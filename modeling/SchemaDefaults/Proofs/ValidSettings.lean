import Mathlib.Logic.Relation
import SchemaDefaults.Files
import SchemaDefaults.Proofs.Sequencing
import SchemaDefaults.Settings.Effective
/-!
Settings that a run can go by. What makes them valid can be read off the texts of their paths,
and settings that are not valid are refused for the first condition that they break. A path is
read by its parts, yet its extension can be told without taking it apart: once the endings that
say nothing have been dropped, all that counts is the text behind the last slash.
-/

namespace SchemaDefaults.Path

section LastNames

/-- One ending that says nothing: a slash at the end, or a slash and a dot. -/
inductive DropsEnding : List Char → List Char → Prop
  | slash (rest : List Char) : DropsEnding (rest ++ ['/']) rest
  | dot (rest : List Char) : DropsEnding (rest ++ ['/', '.']) rest

/-- What is left when such endings have been dropped until there is none. -/
structure Core (path core : List Char) : Prop where
  dropped : Relation.ReflTransGen DropsEnding path core
  finished : ∀ shorter, ¬ DropsEnding core shorter

/-- The text behind the last slash, or the whole text if it has none. -/
structure LastName (core name : List Char) : Prop where
  plain : '/' ∉ name
  behind : core = name ∨ ∃ front, core = front ++ '/' :: name

theorem DropsEnding.shorter {path rest : List Char} (drops : DropsEnding path rest) :
    rest.length < path.length := by
  cases drops <;> simp

theorem exists_core (path : List Char) : ∃ core, Core path core := by
  by_cases ending : ∃ shorter, DropsEnding path shorter
  · obtain ⟨shorter, drops⟩ := ending
    obtain ⟨core, dropped, finished⟩ := exists_core shorter
    exact ⟨core, .head drops dropped, finished⟩
  · exact ⟨path, .refl, fun shorter drops => ending ⟨shorter, drops⟩⟩
termination_by path.length
decreasing_by exact drops.shorter

theorem exists_lastName (core : List Char) : ∃ name, LastName core name := by
  induction core with
  | nil => exact ⟨[], by simp, .inl rfl⟩
  | cons c rest ih =>
      obtain ⟨name, plain, whole | ⟨front, split⟩⟩ := ih
      · by_cases slash : c = '/'
        · exact ⟨name, plain, .inr ⟨[], by rw [slash, whole, List.nil_append]⟩⟩
        · refine ⟨c :: name, ?_, .inl (by rw [whole])⟩
          simpa using ⟨Ne.symm slash, plain⟩
      · exact ⟨name, plain, .inr ⟨c :: front, by rw [split, List.cons_append]⟩⟩

end LastNames

section Parts

theorem pieces_nonempty (text : List Char) : pieces text ≠ [] := by
  cases text with
  | nil => simp [pieces]
  | cons c rest =>
      rw [pieces]
      split
      · simp
      · split <;> simp

theorem pieces_append (front back : List Char) :
    pieces (front ++ '/' :: back) = pieces front ++ pieces back := by
  induction front with
  | nil => simp [pieces]
  | cons c rest ih =>
      by_cases slash : c = '/'
      · simp [pieces, slash, ih]
      · obtain ⟨piece, later, split⟩ := List.exists_cons_of_ne_nil (pieces_nonempty rest)
        simp [pieces, slash, ih, split]

theorem pieces_plain (name : List Char) (plain : '/' ∉ name) : pieces name = [name] := by
  induction name with
  | nil => rfl
  | cons c rest ih =>
      obtain ⟨slash, later⟩ : '/' ≠ c ∧ '/' ∉ rest := by simpa using plain
      simp [pieces, Ne.symm slash, ih later]

/-- The pieces that count as parts. -/
def counted (text : List Char) : List (List Char) :=
  (pieces text).filter fun piece => piece ≠ [] ∧ piece ≠ ['.']

theorem parts_counted (path : String) : parts path = (counted path.toList).map String.ofList := by
  have dot (piece : List Char) : String.ofList piece = "." ↔ piece = ['.'] :=
    @String.ofList_inj piece ['.']
  simp only [parts, names, counted, List.filter_map, List.filter_filter, Function.comp_def]
  congr 2
  funext piece
  simp only [ne_eq, dot]
  cases piece <;> simp

theorem counted_append (front back : List Char) :
    counted (front ++ '/' :: back) = counted front ++ counted back := by
  rw [counted, pieces_append, List.filter_append, counted, counted]

theorem counted_drops {path rest : List Char} (drops : DropsEnding path rest) :
    counted path = counted rest := by
  cases drops with
  | slash => exact (counted_append rest []).trans (List.append_nil _)
  | dot => exact (counted_append rest ['.']).trans (List.append_nil _)

theorem counted_core {path core : List Char} (settled : Core path core) :
    counted path = counted core := by
  obtain ⟨dropped, -⟩ := settled
  induction dropped with
  | refl => rfl
  | tail _ drops same => exact same.trans (counted_drops drops)

theorem counted_last {path core name : List Char} (settled : Core path core)
    (last : LastName core name) :
    (counted core).getLast? = if name = [] ∨ name = ['.'] then none else some name := by
  rcases last.behind with rfl | ⟨front, rfl⟩
  · rw [counted, pieces_plain core last.plain]
    by_cases nothing : core = [] ∨ core = ['.']
    · rcases nothing with rfl | rfl <;> rfl
    · obtain ⟨nonempty, named⟩ := not_or.mp nothing
      simp [nonempty, named]
  · -- Behind a slash neither can stand, or there would be an ending left to drop.
    have proper : ¬ (name = [] ∨ name = ['.']) := by
      rintro (rfl | rfl)
      · exact settled.finished front (.slash front)
      · exact settled.finished front (.dot front)
    have alone : counted name = [name] := by
      rw [counted, pieces_plain name last.plain]
      simpa using proper
    rw [if_neg proper, counted_append, alone, List.getLast?_concat]

end Parts

section Extensions

theorem afterLastDot_none_iff (text : List Char) : afterLastDot? text = none ↔ '.' ∉ text := by
  induction text with
  | nil => simp [afterLastDot?]
  | cons c rest ih =>
      rw [afterLastDot?]
      cases found : afterLastDot? rest with
      | some extension =>
          have inside : '.' ∈ rest := Decidable.byContradiction fun none => by
            rw [ih.mpr none] at found
            cases found
          simp [inside]
      | none =>
          have outside := ih.mp found
          by_cases dot : c = '.'
          · simp [dot]
          · simp [dot, outside, Ne.symm dot]

theorem afterLastDot_iff (text extension : List Char) :
    afterLastDot? text = some extension ↔
      '.' :: extension <:+ text ∧ '.' ∉ extension := by
  induction text with
  | nil => simp [afterLastDot?]
  | cons c rest ih =>
      rw [afterLastDot?]
      cases found : afterLastDot? rest with
      | some other =>
          rw [found] at ih
          simp only [ih, List.suffix_cons_iff]
          constructor
          · rintro ⟨ending, plain⟩
            exact ⟨.inr ending, plain⟩
          · rintro ⟨whole | ending, plain⟩
            · -- A dot in front would leave none in the rest, where one has been found.
              injection whole with _ same
              rw [same] at plain
              rw [(afterLastDot_none_iff rest).mpr plain] at found
              cases found
            · exact ⟨ending, plain⟩
      | none =>
          have outside := (afterLastDot_none_iff rest).mp found
          rw [List.suffix_cons_iff]
          have absent : ¬ '.' :: extension <:+ rest := fun ending =>
            outside (ending.subset List.mem_cons_self)
          by_cases dot : c = '.'
          · simp only [dot, ↓reduceIte, Option.some.injEq, List.cons.injEq, true_and, absent,
              or_false]
            constructor
            · rintro rfl
              exact ⟨rfl, outside⟩
            · rintro ⟨rfl, -⟩
              rfl
          · simp [dot, Ne.symm dot, absent]

theorem extensionOf_iff (name extension : List Char) :
    extensionOf? (String.ofList name) = some (String.ofList extension) ↔
      '.' :: extension <:+ name ∧ extension.length + 1 < name.length ∧ '.' ∉ extension := by
  have inj : Function.Injective String.ofList := fun _ _ => String.ofList_inj.mp
  rw [extensionOf?, String.toList_ofList]
  cases name with
  | nil => simp
  | cons c rest =>
      -- The dot is looked for behind the first character, which therefore is never the dot.
      rw [← Option.map_some, (Option.map_injective inj).eq_iff, afterLastDot_iff,
        List.suffix_cons_iff]
      constructor
      · rintro ⟨ending, plain⟩
        have longer := ending.length_le
        rw [List.length_cons] at longer
        exact ⟨.inr ending, Nat.lt_succ_of_le longer, plain⟩
      · rintro ⟨whole | ending, longer, plain⟩
        · rw [← whole] at longer
          simp at longer
        · exact ⟨ending, plain⟩

/-- The extension of the last name of a path. The dot in front of it must not be the first
character, and the name of the parent has none. -/
def HasExtension (path extension : List Char) : Prop :=
  ∃ core name, Core path core ∧ LastName core name ∧ name ≠ ['.', '.'] ∧
    '.' :: extension <:+ name ∧ extension.length + 1 < name.length ∧ '.' ∉ extension

theorem extension_last (path : String) {core name : List Char} (settled : Core path.toList core)
    (last : LastName core name) :
    extension? path =
      if name = ['.', '.'] then none else extensionOf? (String.ofList name) := by
  have read : (parts path).getLast? =
      (if name = [] ∨ name = ['.'] then none else some name).map String.ofList := by
    rw [parts_counted, List.getLast?_map, counted_core settled, counted_last settled last]
  unfold extension? fileName?
  rw [read]
  by_cases nothing : name = [] ∨ name = ['.']
  · rcases nothing with rfl | rfl <;> rfl
  · by_cases parent : name = ['.', '.']
    · rw [parent]
      rfl
    · have proper : String.ofList name ≠ ".." := fun same =>
        parent ((@String.ofList_inj name ['.', '.']).mp same)
      simp only [nothing, parent, ↓reduceIte, Option.map_some]
      split
      · rename_i same
        exact absurd (Option.some.inj same) proper
      · rfl

theorem extension_iff (path extension : String) :
    extension? path = some extension ↔ HasExtension path.toList extension.toList := by
  have law {core name : List Char} (settled : Core path.toList core) (last : LastName core name) :
      extension? path = some extension ↔ name ≠ ['.', '.'] ∧
        '.' :: extension.toList <:+ name ∧ extension.toList.length + 1 < name.length ∧
          '.' ∉ extension.toList := by
    have named := extensionOf_iff name extension.toList
    rw [String.ofList_toList] at named
    rw [extension_last path settled last]
    by_cases parent : name = ['.', '.']
    · simp [parent]
    · rw [if_neg parent, named]
      simp [parent]
  constructor
  · intro found
    obtain ⟨core, settled⟩ := exists_core path.toList
    obtain ⟨name, last⟩ := exists_lastName core
    exact ⟨core, name, settled, last, (law settled last).mp found⟩
  · rintro ⟨core, name, settled, last, rest⟩
    exact (law settled last).mpr rest

/-- Two dots may open a name that has an extension. -/
example : extension? "models.d/..json//./" = some "json" ∧ extension? "models.d/.json" = none := by
  decide

end Extensions

end SchemaDefaults.Path

namespace SchemaDefaults

namespace Path

def Usable (path : String) : Prop := path ≠ "" ∧ '\x00' ∉ path.toList

/-- Behind the last slash, endings that say nothing aside, stands more than `.json`. -/
def NamesJson (path : String) : Prop :=
  ∃ core name, Core path.toList core ∧ LastName core name ∧
    ['.', 'j', 's', 'o', 'n'] <:+ name ∧ 5 < name.length

/-- What is said of a path that does not name such a file. -/
inductive ForeignExtension (path : String) : String → Prop
  | none (absent : ∀ extension, ¬ HasExtension path.toList extension) :
      ForeignExtension path "File has no extension or invalid filename"
  | other (extension : String) (found : HasExtension path.toList extension.toList) :
      ForeignExtension path
        ("Unsupported file extension: " ++ extension ++ ". Allowed extensions: json")

theorem namesJson_iff (path : String) : extension? path = some "json" ↔ NamesJson path := by
  rw [extension_iff]
  constructor
  · rintro ⟨core, name, settled, last, _, ending, longer, _⟩
    exact ⟨core, name, settled, last, ending, longer⟩
  · rintro ⟨core, name, settled, last, ending, longer⟩
    refine ⟨core, name, settled, last, ?_, ending, longer, by decide⟩
    rintro rfl
    simp at longer

end Path

section Rules

namespace Rule

theorem path_ok_iff (field value : String) :
    path field value = .ok () ↔ Path.Usable value := by
  unfold path Path.Usable
  by_cases empty : value = ""
  · simp [empty]
  · by_cases nul : '\x00' ∈ value.toList <;> simp [empty, nul]

theorem path_error_iff (field value : String) (failure : Failure) :
    path field value = .error failure ↔
      (value = "" ∧ failure = .invalidValue field "" "Path cannot be empty") ∨
      (value ≠ "" ∧ '\x00' ∈ value.toList ∧
        failure = .invalidValue field value "Path contains null bytes") := by
  unfold path
  by_cases empty : value = ""
  · simp [empty, eq_comm]
  · by_cases nul : '\x00' ∈ value.toList <;> simp [empty, nul, eq_comm]

theorem unsupported_json (extension : String) :
    unsupported extension Settings.extensions =
      "Unsupported file extension: " ++ extension ++ ". Allowed extensions: json" := by
  have listed : String.intercalate ", " Settings.extensions = "json" := by
    simp [Settings.extensions]
  have told : ". Allowed extensions: " ++ "json" = ". Allowed extensions: json" := by decide
  unfold unsupported
  rw [listed, String.append_assoc]
  exact congrArg _ told

theorem extension_ok_iff (field value : String) :
    extension field value Settings.extensions = .ok () ↔ Path.NamesJson value := by
  rw [← Path.namesJson_iff]
  unfold extension
  cases Path.extension? value with
  | none => simp
  | some found => by_cases allowed : found = "json" <;> simp [Settings.extensions, allowed]

theorem extension_error_iff (field value : String) (failure : Failure) :
    extension field value Settings.extensions = .error failure ↔
      ¬ Path.NamesJson value ∧ ∃ reason, Path.ForeignExtension value reason ∧
        failure = .invalidValue field value reason := by
  have read := Path.extension_iff value
  rw [← Path.namesJson_iff]
  unfold extension
  cases found : Path.extension? value with
  | none =>
      have absent (extension : List Char) : ¬ Path.HasExtension value.toList extension := by
        intro has
        have same := (read (String.ofList extension)).mpr (by rwa [String.toList_ofList])
        rw [found] at same
        cases same
      constructor
      · intro refused
        cases refused
        exact ⟨by simp, _, .none absent, rfl⟩
      · rintro ⟨-, reason, said, rfl⟩
        cases said with
        | none _ => rfl
        | other extension has => exact absurd has (absent extension.toList)
  | some extension =>
      have has := (read extension).mp found
      by_cases allowed : extension = "json"
      · simp [Settings.extensions, allowed]
      · have member : extension ∉ Settings.extensions := by simpa [Settings.extensions] using allowed
        simp only [member, ↓reduceIte, unsupported_json]
        constructor
        · intro refused
          cases refused
          exact ⟨by simpa using allowed, _, .other extension has, rfl⟩
        · rintro ⟨-, reason, said, rfl⟩
          cases said with
          | none absent => exact absurd has (absent extension.toList)
          | other other hasOther =>
              have same := (read other).mpr hasOther
              rw [found] at same
              cases same
              rfl

end Rule

end Rules

section Settings

namespace Settings

/-- The first condition that settings break, as the failure that tells of it. All conditions in
front of it are met. -/
inductive FirstBreach (settings : Settings) : Failure → Prop
  | inputMissing (absent : settings.input = none) : FirstBreach settings (.missing "input")
  | inputEmpty (given : settings.input = some "") :
      FirstBreach settings (.invalidValue "input" "" "Path cannot be empty")
  | inputNul (input : String) (given : settings.input = some input) (nonempty : input ≠ "")
      (nul : '\x00' ∈ input.toList) :
      FirstBreach settings (.invalidValue "input" input "Path contains null bytes")
  | inputExtension (input reason : String) (given : settings.input = some input)
      (usable : Path.Usable input) (foreign : ¬ Path.NamesJson input)
      (said : Path.ForeignExtension input reason) :
      FirstBreach settings (.invalidValue "input" input reason)
  | outputEmpty (input : String) (given : settings.input = some input)
      (usable : Path.Usable input) (json : Path.NamesJson input)
      (named : settings.output = some "") :
      FirstBreach settings (.invalidValue "output" "" "Path cannot be empty")
  | outputNul (input output : String) (given : settings.input = some input)
      (usable : Path.Usable input) (json : Path.NamesJson input)
      (named : settings.output = some output) (nonempty : output ≠ "")
      (nul : '\x00' ∈ output.toList) :
      FirstBreach settings (.invalidValue "output" output "Path contains null bytes")

variable (settings : Settings)

theorem validate_given (input : String) (given : settings.input = some input) :
    settings.validate =
      (do
        Rule.path "input" input
        Rule.extension "input" input extensions
        SettingsFile.optionalPath "output" settings.output) := by
  rw [validate, given]
  rfl

theorem optionalPath_ok_iff (field : String) (value : Option String) :
    SettingsFile.optionalPath field value = .ok () ↔
      ∀ path, value = some path → Path.Usable path := by
  cases value with
  | none => simp [SettingsFile.optionalPath]
  | some path => simp [SettingsFile.optionalPath, Rule.path_ok_iff]

theorem optionalPath_error_iff (field : String) (value : Option String) (failure : Failure) :
    SettingsFile.optionalPath field value = .error failure ↔
      (value = some "" ∧ failure = .invalidValue field "" "Path cannot be empty") ∨
      ∃ path, value = some path ∧ path ≠ "" ∧ '\x00' ∈ path.toList ∧
        failure = .invalidValue field path "Path contains null bytes" := by
  cases value with
  | none => simp [SettingsFile.optionalPath]
  | some path => simp [SettingsFile.optionalPath, Rule.path_error_iff]

theorem validate_ok_iff :
    settings.validate = .ok () ↔
      (∃ input, settings.input = some input ∧ Path.Usable input ∧ Path.NamesJson input) ∧
        ∀ output, settings.output = some output → Path.Usable output := by
  cases given : settings.input with
  | none => simp [validate, given, Rule.required, bind, Except.bind]
  | some input =>
      rw [settings.validate_given input given, check_ok_iff, check_ok_iff, Rule.path_ok_iff,
        Rule.extension_ok_iff, optionalPath_ok_iff]
      simp [and_assoc]

theorem validate_error_iff (failure : Failure) :
    settings.validate = .error failure ↔ FirstBreach settings failure := by
  cases given : settings.input with
  | none =>
      have refused : settings.validate = .error (.missing "input") := by
        rw [validate, given]
        rfl
      rw [refused]
      constructor
      · rintro ⟨⟩
        exact .inputMissing given
      · intro breach
        cases breach with
        | inputMissing _ => rfl
        | inputEmpty same => simp [given] at same
        | inputNul _ same _ _ | inputExtension _ _ same _ _ _ => simp [given] at same
        | outputEmpty _ same _ _ _ | outputNul _ _ same _ _ _ _ _ => simp [given] at same
  | some input =>
      -- A rule is reached only if the rules in front of it have let the settings pass.
      rw [settings.validate_given input given, check_error_iff, check_error_iff,
        Rule.path_error_iff, Rule.path_ok_iff, Rule.extension_error_iff, Rule.extension_ok_iff,
        optionalPath_error_iff]
      constructor
      · rintro ((⟨rfl, rfl⟩ | ⟨nonempty, nul, rfl⟩) |
          ⟨usable, ⟨foreign, reason, said, rfl⟩ | ⟨json, ⟨named, rfl⟩ |
            ⟨output, named, nonempty, nul, rfl⟩⟩⟩)
        · exact .inputEmpty given
        · exact .inputNul input given nonempty nul
        · exact .inputExtension input reason given usable foreign said
        · exact .outputEmpty input given usable json named
        · exact .outputNul input output given usable json named nonempty nul
      · intro breach
        cases breach with
        | inputMissing absent => simp [given] at absent
        | inputEmpty same =>
            cases given.symm.trans same
            exact .inl (.inl ⟨rfl, rfl⟩)
        | inputNul _ same nonempty nul =>
            cases given.symm.trans same
            exact .inl (.inr ⟨nonempty, nul, rfl⟩)
        | inputExtension _ reason same usable foreign said =>
            cases given.symm.trans same
            exact .inr ⟨usable, .inl ⟨foreign, reason, said, rfl⟩⟩
        | outputEmpty _ same usable json named =>
            cases given.symm.trans same
            exact .inr ⟨usable, .inr ⟨json, .inl ⟨named, rfl⟩⟩⟩
        | outputNul _ output same usable json named nonempty nul =>
            cases given.symm.trans same
            exact .inr ⟨usable, .inr ⟨json, .inr ⟨output, named, nonempty, nul, rfl⟩⟩⟩

/-- Settings are accepted exactly if their input is there, is a usable path and names a file by
more than the extension `.json`, and the output is a usable path if it is there. Otherwise they
are refused for the first of these conditions that they break. -/
theorem validate_exact :
    (settings.validate = .ok () ↔
      (∃ input, settings.input = some input ∧ Path.Usable input ∧ Path.NamesJson input) ∧
        ∀ output, settings.output = some output → Path.Usable output) ∧
    ∀ failure, settings.validate = .error failure ↔ FirstBreach settings failure :=
  ⟨settings.validate_ok_iff, settings.validate_error_iff⟩

end Settings

end Settings

end SchemaDefaults
