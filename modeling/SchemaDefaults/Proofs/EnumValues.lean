import SchemaDefaults.Proofs.Conditions
/-!
Values of enumerations. White space around a text does not count, while a declared value counts
as it stands. So a text that is a declared value, with or without white space around it, stands
for the first entry of that value, as long as the value has no white space at its own ends.
-/

namespace SchemaDefaults

section Surroundings

namespace Text

/-- No white space at either end; there may be some inside. -/
structure Bare (text : List Char) : Prop where
  first : ∀ c, text.head? = some c → isBlank c = false
  last : ∀ c, text.getLast? = some c → isBlank c = false

/-- The text is the core with white space around it, or is the core itself. -/
def Surrounds (text core : List Char) : Prop :=
  ∃ front back, text = front ++ core ++ back ∧ (∀ c ∈ front, isBlank c = true) ∧
    ∀ c ∈ back, isBlank c = true

theorem surrounds_self (core : List Char) : Surrounds core core :=
  ⟨[], [], by simp, by simp, by simp⟩

theorem dropWhile_front (blanks rest : List Char) (blank : ∀ c ∈ blanks, isBlank c = true)
    (first : ∀ c, rest.head? = some c → isBlank c = false) :
    (blanks ++ rest).dropWhile isBlank = rest := by
  rw [List.dropWhile_append_of_pos blank]
  cases rest with
  | nil => rfl
  | cons c later => simp [first c rfl]

theorem dropEndWhile_back (front blanks : List Char) (blank : ∀ c ∈ blanks, isBlank c = true)
    (last : ∀ c, front.getLast? = some c → isBlank c = false) :
    dropEndWhile isBlank (front ++ blanks) = front := by
  have dropped := dropWhile_front blanks.reverse front.reverse
    (fun c member => blank c (List.mem_reverse.mp member))
    (fun c first => last c (by rwa [List.head?_reverse] at first))
  rw [dropEndWhile, List.reverse_append, dropped, List.reverse_reverse]

theorem trim_surrounds (text core : List Char) (bare : Bare core)
    (around : Surrounds text core) : trim text = core := by
  obtain ⟨front, back, rfl, blankFront, blankBack⟩ := around
  cases core with
  | nil =>
      -- Nothing stops the first half of the trimming: it drops the blanks of both sides.
      have blank : ∀ c ∈ front ++ back, isBlank c = true := fun c member =>
        (List.mem_append.mp member).elim (blankFront c) (blankBack c)
      have dropped := dropWhile_front (front ++ back) [] blank (by simp)
      rw [List.append_nil] at dropped
      rw [List.append_nil, trim, dropped]
      rfl
  | cons c rest =>
      have dropped := dropWhile_front front (c :: rest ++ back) blankFront bare.first
      rw [List.append_assoc, trim, dropped]
      exact dropEndWhile_back (c :: rest) back blankBack bare.last

theorem trim_prefix (text : List Char) :
    ∃ back, text.dropWhile isBlank = trim text ++ back ∧ ∀ c ∈ back, isBlank c = true := by
  let reversed := (text.dropWhile isBlank).reverse
  refine ⟨(reversed.takeWhile isBlank).reverse, ?_, fun c inside =>
    List.all_eq_true.mp List.all_takeWhile c (List.mem_reverse.mp inside)⟩
  rw [trim, dropEndWhile, ← List.reverse_append, List.takeWhile_append_dropWhile,
    List.reverse_reverse]

theorem surrounds_trim (text : List Char) : Surrounds text (trim text) := by
  obtain ⟨back, dropped, blank⟩ := trim_prefix text
  refine ⟨text.takeWhile isBlank, back, ?_, List.all_eq_true.mp List.all_takeWhile, blank⟩
  rw [List.append_assoc, ← dropped, List.takeWhile_append_dropWhile]

theorem bare_trim (text : List Char) : Bare (trim text) := by
  have kept (text : List Char) (c : Char) (first : (text.dropWhile isBlank).head? = some c) :
      isBlank c = false := by
    have stopped := List.head?_dropWhile_not isBlank text
    rw [first] at stopped
    simpa using stopped
  obtain ⟨back, dropped, _⟩ := trim_prefix text
  constructor
  · intro c first
    apply kept text
    rw [dropped, List.head?_append, first]
    rfl
  · intro c last
    rw [trim, dropEndWhile, List.getLast?_reverse] at last
    exact kept _ c last

end Text

end Surroundings

namespace Conversion

/-- The first entry of a value stands for it, however often the value is declared. -/
theorem first_of_value (constants : List EnumConstant) (entry : EnumConstant)
    (declared : entry ∈ constants) :
    ∃ earlier first later, constants = earlier ++ first :: later ∧
      first.value = entry.value ∧ ∀ other ∈ earlier, other.value ≠ entry.value := by
  cases found : constants.find? (·.value = entry.value) with
  | none =>
      have missed := List.find?_eq_none.mp found entry declared
      simp at missed
  | some first =>
      obtain ⟨same, earlier, later, split, before⟩ := List.find?_eq_some_iff_append.mp found
      refine ⟨earlier, first, later, split, by simpa using same, ?_⟩
      intro other inside
      simpa using before other inside

theorem enumConstant_iff (e : EnumType) (text : String) (literal : Literal) :
    enumConstant? e text = some literal ↔ ∃ earlier first later,
      e.constants = earlier ++ first :: later ∧ first.value = text ∧
        (∀ other ∈ earlier, other.value ≠ text) ∧
        literal = .enumConstant e.name first.constant := by
  simp only [enumConstant?, Option.map_eq_some_iff, List.find?_eq_some_iff_append,
    decide_eq_true_eq, Bool.not_eq_true', decide_eq_false_iff_not]
  constructor
  · rintro ⟨first, ⟨value, earlier, later, split, before⟩, rfl⟩
    exact ⟨earlier, first, later, split, value, before, rfl⟩
  · rintro ⟨earlier, first, later, split, value, before, rfl⟩
    exact ⟨first, ⟨value, earlier, later, split, before⟩, rfl⟩

theorem convert_enum_iff (e : EnumType) (lexical : String) (literal : Literal) :
    convert lexical (.enum e) = .ok literal ↔ ∃ earlier first later,
      e.constants = earlier ++ first :: later ∧
        (∀ other ∈ earlier, other.value ≠ first.value) ∧ Text.Bare first.value.toList ∧
        Text.Surrounds lexical.toList first.value.toList ∧
        literal = .enumConstant e.name first.constant := by
  rw [convert_ok_iff]
  change enumConstant? e (String.ofList (Text.trim lexical.toList)) = _ ↔ _
  rw [enumConstant_iff]
  constructor
  · rintro ⟨earlier, first, later, split, value, before, rfl⟩
    have trimmed : first.value.toList = Text.trim lexical.toList := by
      rw [value, String.toList_ofList]
    refine ⟨earlier, first, later, split, by rwa [value], ?_, ?_, rfl⟩
    · rw [trimmed]
      exact Text.bare_trim _
    · rw [trimmed]
      exact Text.surrounds_trim _
  · rintro ⟨earlier, first, later, split, before, bare, around, rfl⟩
    rw [Text.trim_surrounds _ _ bare around, String.ofList_toList]
    exact ⟨earlier, first, later, split, rfl, before, rfl⟩

end Conversion

/-- A policy that has a text to convert, and a declaration for the result, does nothing else. -/
theorem Extraction.extract_converted (policy : Policy) (f : Field) (marker : Customization)
    (lexical : String) (declaration : Declaration) (literal : Literal)
    (declared : f.declaration = some declaration)
    (said : lexical? policy f marker = some lexical)
    (converted : convert lexical declaration.type = .ok literal) :
    extract policy f marker = .ok literal := by
  have type : f.type? = some declaration.type := by simp [Field.type?, declared]
  cases policy with
  | annotationLiteral =>
      have value : marker.attributes.get? valueAttribute = some lexical := said
      simp only [extract, fromMarker, type, value, fromText, converted]
  | schemaDefault =>
      cases property : f.property with
      | «attribute» default =>
          have given : default = some lexical := by simpa [lexical?, default?, property] using said
          simp only [extract, fromSchema, property, given, type, fromText, converted]
      | element => simp [lexical?, default?, property] at said
      | other => simp [lexical?, default?, property] at said

section Enumerations

/-- A declared value without white space at its ends is converted to the constant of the first
entry of that value, and white space around it makes no difference. Neither policy rejects a
field of the enumeration for such a text. No other text is converted at all. -/
theorem declared_value_resolved (e : EnumType) :
    (∀ entry ∈ e.constants, Text.Bare entry.value.toList →
      ∃ earlier first later, e.constants = earlier ++ first :: later ∧
        first.value = entry.value ∧ (∀ other ∈ earlier, other.value ≠ entry.value) ∧
        convert entry.value (.enum e) = .ok (.enumConstant e.name first.constant) ∧
        ∀ lexical : String, Text.Surrounds lexical.toList entry.value.toList →
          convert lexical (.enum e) = .ok (.enumConstant e.name first.constant) ∧
          ∀ (policy : Policy) (f : Field) (marker : Customization) (declaration : Declaration),
            f.declaration = some declaration → declaration.type = .enum e →
            Extraction.lexical? policy f marker = some lexical →
            Extraction.extract policy f marker = .ok (.enumConstant e.name first.constant)) ∧
    ∀ (lexical : String) (literal : Literal), convert lexical (.enum e) = .ok literal →
      ∃ earlier first later, e.constants = earlier ++ first :: later ∧
        (∀ other ∈ earlier, other.value ≠ first.value) ∧ Text.Bare first.value.toList ∧
        Text.Surrounds lexical.toList first.value.toList ∧
        literal = .enumConstant e.name first.constant := by
  refine ⟨fun entry declared bare => ?_, fun lexical literal =>
    (Conversion.convert_enum_iff e lexical literal).mp⟩
  obtain ⟨earlier, first, later, split, value, before⟩ :=
    Conversion.first_of_value e.constants entry declared
  have converted (lexical : String)
      (around : Text.Surrounds lexical.toList entry.value.toList) :
      convert lexical (.enum e) = .ok (.enumConstant e.name first.constant) := by
    rw [← value] at bare before around
    exact (Conversion.convert_enum_iff ..).mpr
      ⟨earlier, first, later, split, before, bare, around, rfl⟩
  refine ⟨earlier, first, later, split, value, before,
    converted entry.value (Text.surrounds_self _), fun lexical around =>
      ⟨converted lexical around, ?_⟩⟩
  intro policy f marker declaration carried typed said
  apply Extraction.extract_converted policy f marker lexical declaration _ carried said
  rw [typed]
  exact converted lexical around

/-- One of the values is declared twice, and one is empty. -/
def sampleProtocol : EnumType :=
  ⟨"Protocol", [⟨"pop3", "Pop3"⟩, ⟨"", "Unset"⟩, ⟨"imap", "Imap"⟩, ⟨"pop3", "Pop"⟩]⟩

def sampleProtocolField : Field :=
  ⟨"protocol", .attribute (some "\n pop3\t"), [Pass.sampleMarker 4], none,
    some ⟨.enum sampleProtocol, none⟩⟩

/-- The later of two entries is resolved to the earlier one, whose value is the same. -/
theorem sample_value_resolved :
    (⟨"pop3", "Pop"⟩ : EnumConstant) ∈ sampleProtocol.constants ∧
      Text.Bare "pop3".toList ∧ Text.Surrounds "\n pop3\t".toList "pop3".toList ∧
      convert "\n pop3\t" (.enum sampleProtocol) = .ok (.enumConstant "Protocol" "Pop3") ∧
      Extraction.extract .schemaDefault sampleProtocolField (Pass.sampleMarker 4) =
        .ok (.enumConstant "Protocol" "Pop3") := by
  have declared : (⟨"pop3", "Pop"⟩ : EnumConstant) ∈ sampleProtocol.constants := by decide
  have bare : Text.Bare "pop3".toList := ⟨by rintro c ⟨⟩; rfl, by rintro c ⟨⟩; rfl⟩
  have around : Text.Surrounds "\n pop3\t".toList "pop3".toList :=
    ⟨['\n', ' '], ['\t'], by decide, List.all_eq_true.mp rfl, List.all_eq_true.mp rfl⟩
  obtain ⟨_, first, _, _, _, _, converted, others⟩ :=
    (declared_value_resolved sampleProtocol).1 ⟨"pop3", "Pop"⟩ declared bare
  have constant : first.constant = "Pop3" := by
    have expected : convert "pop3" (.enum sampleProtocol) =
        .ok (.enumConstant "Protocol" "Pop3") := by rfl
    injection converted.symm.trans expected with same
    injection same
  obtain ⟨resolved, extracted⟩ := others "\n pop3\t" around
  rw [constant] at resolved extracted
  exact ⟨declared, bare, around, resolved,
    extracted .schemaDefault sampleProtocolField _ _ rfl rfl rfl⟩

/-- Two of the values have white space at one end. -/
def paddedModes : EnumType :=
  ⟨"Mode", [⟨" fast", "Padded"⟩, ⟨"fast", "Fast"⟩, ⟨"slow ", "Slow"⟩]⟩

/-- A declared value with white space at its ends is not found, or is taken for another entry. -/
theorem padded_value_missed :
    (⟨"slow ", "Slow"⟩ : EnumConstant) ∈ paddedModes.constants ∧
      convert "slow " (.enum paddedModes) = .error ⟨"slow ", .enum paddedModes⟩ ∧
      (⟨" fast", "Padded"⟩ : EnumConstant) ∈ paddedModes.constants ∧
      paddedModes.constants.find? (·.value = " fast") = some ⟨" fast", "Padded"⟩ ∧
      convert " fast" (.enum paddedModes) = .ok (.enumConstant "Mode" "Fast") := by
  refine ⟨by decide, by rfl, by decide, by rfl, by rfl⟩

end Enumerations

end SchemaDefaults
