import SchemaDefaults.Proofs.Marking
import SchemaDefaults.Proofs.RunResult
/-!
The conditions of a policy. A field with a marker gets its initializer if it meets all conditions
of the policy, and otherwise the first one that it does not meet decides the only fatal
diagnostic. Which condition comes first differs between the policies where several fail.
-/

namespace SchemaDefaults

namespace Extraction

section Conditions

/-- The message is that of a field for which the condition is not met. -/
structure Condition where
  met : Bool
  message : String

def isAttribute : Property → Bool
  | .attribute _ => true
  | .element | .other => false

def default? : Property → Option String
  | .attribute default => default
  | .element | .other => none

def lexical? (policy : Policy) (f : Field) (first : Customization) : Option String :=
  match policy with
  | .schemaDefault => default? f.property
  | .annotationLiteral => first.attributes.get? valueAttribute

/-- Without a text or a type there is nothing that could fail to convert. -/
def convertible (text? : Option String) (type? : Option FieldType) : Condition :=
  match text?, type? with
  | some text, some type =>
    ⟨(Conversion.literal? text type).isSome, InvalidLiteral.message ⟨text, type⟩⟩
  | _, _ => ⟨true, ""⟩

def conditions (policy : Policy) (f : Field) (first : Customization) : List Condition :=
  let text? := lexical? policy f first
  match policy with
  | .schemaDefault =>
    [⟨isAttribute f.property, notAnAttribute⟩, ⟨text?.isSome, noDefaultValue⟩,
      ⟨f.declaration.isSome, missingField⟩, convertible text? f.type?]
  | .annotationLiteral =>
    [⟨f.declaration.isSome, missingField⟩, ⟨text?.isSome, missingValue⟩,
      convertible text? f.type?]

def firstUnmet? (policy : Policy) (f : Field) (first : Customization) : Option Condition :=
  (conditions policy f first).find? fun condition => !condition.met

end Conditions

section Verdicts

variable (policy : Policy) (f : Field) (first : Customization)

theorem fromText_literal (text : String) (type : FieldType) :
    fromText text type =
      match Conversion.literal? text type with
      | some literal => .ok literal
      | none => .error (InvalidLiteral.message ⟨text, type⟩) := by
  unfold fromText convert
  cases Conversion.literal? text type <;> rfl

/-- What the conditions say of an extraction. -/
def Verdict (extracted : Except Diagnostic Literal) : Option Condition → Prop
  | some condition => extracted = .error ⟨.fatal, condition.message, place f first⟩
  | none => ∃ text declaration literal,
      lexical? policy f first = some text ∧ f.declaration = some declaration ∧
        convert text declaration.type = .ok literal ∧ extracted = .ok literal

theorem fromSchema_verdict :
    Verdict .schemaDefault f first (extract .schemaDefault f first)
      (firstUnmet? .schemaDefault f first) := by
  -- The cases follow the order of the conditions, so all before the current one are met.
  cases property : f.property with
  | element =>
      simp [Verdict, firstUnmet?, conditions, extract, fromSchema, property, isAttribute]
  | other =>
      simp [Verdict, firstUnmet?, conditions, extract, fromSchema, property, isAttribute]
  | «attribute» default =>
      cases default with
      | none =>
          simp [Verdict, firstUnmet?, conditions, extract, fromSchema, property, isAttribute,
            lexical?, default?]
      | some text =>
          cases declared : f.declaration with
          | none =>
              simp [Verdict, firstUnmet?, conditions, extract, fromSchema, property,
                isAttribute, lexical?, default?, Field.type?, declared]
          | some declaration =>
              cases read : Conversion.literal? text declaration.type <;>
                simp [Verdict, firstUnmet?, conditions, extract, fromSchema, property,
                  isAttribute, lexical?, default?, Field.type?, declared, convertible,
                  fromText_literal, convert, read]

theorem fromMarker_verdict :
    Verdict .annotationLiteral f first (extract .annotationLiteral f first)
      (firstUnmet? .annotationLiteral f first) := by
  cases declared : f.declaration with
  | none =>
      simp [Verdict, firstUnmet?, conditions, extract, fromMarker, Field.type?, declared]
  | some declaration =>
      cases value : first.attributes.get? valueAttribute with
      | none =>
          simp [Verdict, firstUnmet?, conditions, extract, fromMarker, Field.type?, declared,
            lexical?, value]
      | some text =>
          cases read : Conversion.literal? text declaration.type <;>
            simp [Verdict, firstUnmet?, conditions, extract, fromMarker, Field.type?, declared,
              lexical?, value, convertible, fromText_literal, convert, read]

theorem extract_verdict :
    Verdict policy f first (extract policy f first) (firstUnmet? policy f first) := by
  cases policy with
  | schemaDefault => exact fromSchema_verdict f first
  | annotationLiteral => exact fromMarker_verdict f first

end Verdicts

end Extraction

section Markers

namespace Field

theorem matchesFrom_foreign (ordinal : Nat) (foreign rest : List Customization)
    (unmarked : ∀ c ∈ foreign, c.isMarker = false) :
    matchesFrom ordinal (foreign ++ rest) = matchesFrom (ordinal + foreign.length) rest := by
  induction foreign generalizing ordinal with
  | nil => rfl
  | cons c later ih =>
      have skipped : c.isNamed Marker.namespaceUri Marker.tag = false := unmarked c (by simp)
      rw [List.cons_append, matchesFrom, skipped, List.length_cons,
        Nat.add_comm later.length 1, ← Nat.add_assoc]
      exact ih (ordinal + 1) fun other inside => unmarked other (by simp [inside])

theorem matchesFrom_customizations (ordinal : Nat) (customizations : List Customization) :
    (matchesFrom ordinal customizations).map Match.customization =
      customizations.filter Customization.isMarker := by
  induction customizations generalizing ordinal with
  | nil => rfl
  | cons c rest ih =>
      cases named : c.isNamed Marker.namespaceUri Marker.tag with
      | true => simp [matchesFrom, Customization.isMarker, named, ih]
      | false => simp [matchesFrom, Customization.isMarker, named, ih]

theorem markers_split (f : Field) (foreign : List Customization) (first : Customization)
    (later : List Customization) (split : f.customizations = foreign ++ first :: later)
    (unmarked : ∀ c ∈ foreign, c.isMarker = false) (marked : first.isMarker = true) :
    f.markers = ⟨foreign.length, first⟩ :: matchesFrom (foreign.length + 1) later := by
  have named : first.isNamed Marker.namespaceUri Marker.tag = true := marked
  rw [markers, split, matchesFrom_foreign 0 foreign _ unmarked, matchesFrom, named]
  simp

end Field

end Markers

namespace Pass

variable {σ : Type}

/-- The calls that a visit makes, as a recording sink in its place shows them. -/
def visitCalls (channel : Sink σ) (policy : Policy) (className : String) (f : Field)
    (sink : σ) : List Exchange :=
  (visitField channel.recording policy className f (Reporter.start (sink, []))).reporter.sink.2

theorem visitCalls_delivery (channel : Sink σ) (policy : Policy) (className : String)
    (f : Field) (sink : σ) :
    visitCalls channel policy className f sink =
      (channel.deliver (f.diagnostics policy) sink).calls := by
  have exact := visitField_exact channel.recording policy className f
    (Reporter.start (sink, []))
  rw [visitCalls, exact.reporter.sink]
  show (channel.recording.deliver (f.diagnostics policy) (sink, [])).state.2 = _
  rw [channel.deliver_recording]
  rfl

/-- A visit with any other end for a field that has a literal and no declaration. -/
def visitFieldElse (undeclared : Resolution → Reporter σ → Visit σ) (channel : Sink σ)
    (policy : Policy) (className : String) (f : Field) (reporter : Reporter σ) : Visit σ :=
  match resolve channel className f.name f.markers reporter with
  | (none, reporter) => ⟨f, none, [], reporter, none⟩
  | (some resolution, reporter) =>
    match Extraction.extract policy f resolution.canonical with
    | .error d => reject channel className f resolution d reporter
    | .ok literal =>
      match f.declaration with
      | none => undeclared resolution reporter
      | some _ =>
        ⟨f.inject literal, some (.injected literal), resolution.acknowledged,
          reporter.note (injectEvents className f literal), none⟩

theorem visitField_else (undeclared : Resolution → Reporter σ → Visit σ) (channel : Sink σ)
    (policy : Policy) (className : String) (f : Field) (reporter : Reporter σ) :
    visitField channel policy className f reporter =
      visitFieldElse undeclared channel policy className f reporter := by
  simp only [visitField, visitFieldElse]
  rcases resolve channel className f.name f.markers reporter with ⟨_ | resolution, warned⟩
  · rfl
  · simp only []
    cases extracted : Extraction.extract policy f resolution.canonical with
    | error d => rfl
    | ok literal =>
        obtain ⟨declaration, declared⟩ :=
          Extraction.extract_declared policy f resolution.canonical literal extracted
        simp only [declared]

theorem surplus_passed (channel : Sink σ) (f : Field) (sink : σ) :
    (channel.deliver f.surplusWarnings sink).failure = none := by
  cases failed : (channel.deliver f.surplusWarnings sink).failure with
  | none => rfl
  | some failure =>
      obtain ⟨d, surplus, fatal⟩ := channel.failure_fatal f.surplusWarnings sink failure failed
      rw [f.surplus_warns d surplus] at fatal
      cases fatal

/-- A refused warning stops nothing, and the fatal diagnostic of a field comes last, so a visit
sends all that the field has to say. -/
theorem visitCalls_sent (channel : Sink σ) (policy : Policy) (className : String) (f : Field)
    (sink : σ) :
    let calls := visitCalls channel policy className f sink
    calls.map Exchange.diagnostic = f.diagnostics policy ∧
      ∀ call ∈ calls, call.entry = call.diagnostic.kind := by
  simp only [visitCalls_delivery]
  refine ⟨?_, (channel.deliver_follows (f.diagnostics policy) sink).entries⟩
  have quiet := surplus_passed channel f sink
  have warned := (channel.deliver_follows f.surplusWarnings sink).whole quiet
  cases rejected : f.rejection? policy with
  | none => simpa [Field.diagnostics, rejected] using warned
  | some d =>
      rw [f.diagnostics_rejected policy d rejected, channel.deliver_concat _ d sink quiet,
        List.map_append, warned]
      rfl

section Verdicts

variable (channel : Sink σ) (policy : Policy) (className : String) (f : Field)
  (foreign : List Customization) (first : Customization) (later : List Customization)

/-- The first marker is named by the split of the customizations; `unmet` is the first condition
that the field does not meet. -/
theorem first_unmet_decides (reporter : Reporter σ)
    (split : f.customizations = foreign ++ first :: later)
    (unmarked : ∀ c ∈ foreign, c.isMarker = false) (marked : first.isMarker = true) :
    let visit := visitField channel policy className f reporter
    let calls := visitCalls channel policy className f reporter.sink
    let warnings : List Diagnostic := (later.filter Customization.isMarker).map fun extra =>
      ⟨.warning, Extraction.extraCustomization, extra.location⟩
    (∀ call ∈ calls, call.entry = call.diagnostic.kind) ∧
      (∀ unmet, Extraction.firstUnmet? policy f first = some unmet →
        visit.field = f ∧
          calls.map Exchange.diagnostic =
            warnings ++ [⟨.fatal, unmet.message, f.location <|> first.location⟩] ∧
          (visit.failure = none → visit.outcome = some (.rejected unmet.message))) ∧
      (Extraction.firstUnmet? policy f first = none →
        ∃ text declaration literal,
          Extraction.lexical? policy f first = some text ∧
            f.declaration = some declaration ∧
            convert text declaration.type = .ok literal ∧
            visit.field =
              { f with declaration := some { declaration with initializer := some literal } } ∧
            calls.map Exchange.diagnostic = warnings ∧
            visit.failure = none ∧ visit.outcome = some (.injected literal)) ∧
      (∀ marker literal, Extraction.extract policy f marker = .ok literal →
        f.declaration ≠ none) ∧
      ∀ undeclared, visit = visitFieldElse undeclared channel policy className f reporter := by
  intro visit calls warnings
  have found := f.markers_split foreign first later split unmarked marked
  have surplus : f.surplusWarnings = warnings := by
    simp only [Field.surplusWarnings, found, List.tail_cons, warnings,
      ← Field.matchesFrom_customizations (foreign.length + 1) later, List.map_map]
    rfl
  have exact := visitField_exact channel policy className f reporter
  obtain ⟨sent, entries⟩ := visitCalls_sent channel policy className f reporter.sink
  have verdict := Extraction.extract_verdict policy f first
  have decided : f.extracted? policy = some (Extraction.extract policy f first) := by
    simp [Field.extracted?, found]
  refine ⟨entries, ?_, ?_, ?_, fun undeclared =>
    visitField_else undeclared channel policy className f reporter⟩
  · intro unmet unmetFirst
    rw [unmetFirst] at verdict
    have failed : Extraction.extract policy f first = .error _ := verdict
    have rejected := f.rejection_error policy _ _ _ found failed
    refine ⟨exact.field.trans (f.settled_rejected policy _ rejected), ?_, fun passed => ?_⟩
    · rw [← surplus]
      exact sent.trans (f.diagnostics_rejected policy _ rejected)
    · rw [exact.outcome passed, Field.outcome?, decided, failed]
  · intro met
    rw [met] at verdict
    obtain ⟨text, declaration, literal, lexical, declared, converted, extracted⟩ := verdict
    have accepted : f.rejection? policy = none := by
      simp [Field.rejection?, found, extracted]
    have quiet : visit.failure = none := by
      rw [exact.failure, Field.diagnostics, accepted]
      simpa using surplus_passed channel f reporter.sink
    refine ⟨text, declaration, literal, lexical, declared, converted, ?_, ?_, quiet, ?_⟩
    · rw [exact.field, f.settled_extracted policy literal (decided.trans (by rw [extracted]))]
      simp [Field.inject, declared]
    · rw [← surplus]
      simpa [Field.diagnostics, accepted] using sent
    · rw [exact.outcome quiet, Field.outcome?, decided, extracted]
  · intro marker literal extracted missing
    obtain ⟨declaration, declared⟩ :=
      Extraction.extract_declared policy f marker literal extracted
    rw [missing] at declared
    cases declared

end Verdicts

def sampleDoubtful : Field :=
  ⟨"retries", .attribute (some "many"),
    [⟨"urn:other", Marker.tag, SortedMap.empty, none, false⟩, sampleMarker 4,
      { sampleMarker 5 with attributes := SortedMap.ofList [(Extraction.valueAttribute, "3")] }],
    none, some ⟨.integer .int, none⟩⟩

theorem sample_unmet (policy : Policy) :
    Extraction.firstUnmet? policy sampleDoubtful (sampleMarker 4) = some ⟨false,
      match policy with
      | .schemaDefault => InvalidLiteral.message ⟨"many", .integer .int⟩
      | .annotationLiteral => Extraction.missingValue⟩ := by
  cases policy <;> rfl

/-- Each policy finds another fault in the same field. -/
theorem sample_first_unmet :
    (visitCalls shut .schemaDefault "Host" sampleDoubtful ⟨0, 0⟩).map Exchange.diagnostic =
        [⟨.warning, Extraction.extraCustomization, some ⟨none, 5, 1⟩⟩,
          ⟨.fatal, InvalidLiteral.message ⟨"many", .integer .int⟩, some ⟨none, 4, 1⟩⟩] ∧
      (visitCalls shut .annotationLiteral "Host" sampleDoubtful ⟨0, 0⟩).map
          Exchange.diagnostic =
        [⟨.warning, Extraction.extraCustomization, some ⟨none, 5, 1⟩⟩,
          ⟨.fatal, Extraction.missingValue, some ⟨none, 4, 1⟩⟩] := by
  have decided (policy : Policy) := first_unmet_decides shut policy "Host" sampleDoubtful
    [⟨"urn:other", Marker.tag, SortedMap.empty, none, false⟩] (sampleMarker 4)
    [{ sampleMarker 5 with attributes := SortedMap.ofList [(Extraction.valueAttribute, "3")] }]
    (Reporter.start ⟨0, 0⟩) rfl (by decide) (by decide)
  exact ⟨((decided .schemaDefault).2.1 _ (sample_unmet .schemaDefault)).2.1,
    ((decided .annotationLiteral).2.1 _ (sample_unmet .annotationLiteral)).2.1⟩

end Pass

end SchemaDefaults
