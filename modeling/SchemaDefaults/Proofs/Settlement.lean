import SchemaDefaults.Pass
/-!
Fields on their own. The first marker of a field decides by itself what becomes of the field, and
each further marker is one warning. Nothing of this looks at an initializer, so a field that has
been settled once settles to itself.
-/

namespace SchemaDefaults

namespace Extraction

theorem extract_declared (policy : Policy) (f : Field) (marker : Customization)
    (literal : Literal) (extracted : extract policy f marker = .ok literal) :
    ∃ declaration, f.declaration = some declaration := by
  cases declared : f.declaration with
  | some declaration => exact ⟨declaration, rfl⟩
  | none =>
      have typeless : f.type? = none := by simp [Field.type?, declared]
      cases policy with
      | schemaDefault =>
          cases property : f.property with
          | «attribute» default =>
              cases default <;> simp [extract, fromSchema, property, typeless] at extracted
          | element => simp [extract, fromSchema, property] at extracted
          | other => simp [extract, fromSchema, property] at extracted
      | annotationLiteral => simp [extract, fromMarker, typeless] at extracted

theorem extract_error (policy : Policy) (f : Field) (marker : Customization)
    (d : Diagnostic) (extracted : extract policy f marker = .error d) :
    d.kind = .fatal ∧ d.location = place f marker := by
  simp only [extract] at extracted
  split at extracted
  · cases extracted
  · cases extracted
    exact ⟨rfl, rfl⟩

end Extraction

section Fields

namespace Field

/-- What the first marker yields; `none` for a field without a marker. -/
def extracted? (policy : Policy) (f : Field) : Option (Except Diagnostic Literal) :=
  f.markers.head?.map fun first => Extraction.extract policy f first.customization

def outcome? (policy : Policy) (f : Field) : Option Outcome :=
  match f.extracted? policy with
  | none => none
  | some (.ok literal) => some (.injected literal)
  | some (.error d) => some (.rejected d.message)

/-- The field that a visit leaves behind. -/
def settled (policy : Policy) (f : Field) : Field :=
  match f.extracted? policy with
  | some (.ok literal) => f.inject literal
  | _ => f

/-- One warning at the place of each marker behind the first. -/
def surplusWarnings (f : Field) : List Diagnostic :=
  f.markers.tail.map fun extra =>
    ⟨.warning, Extraction.extraCustomization, extra.customization.location⟩

/-- The fatal diagnostic of a field from which nothing can be extracted, placed at the field, or
at the first marker where the field has no place of its own. -/
def rejection? (policy : Policy) (f : Field) : Option Diagnostic :=
  match f.markers with
  | [] => none
  | first :: _ =>
    match Extraction.extract policy f first.customization with
    | .ok _ => none
    | .error d => some ⟨.fatal, d.message, f.location <|> first.customization.location⟩

def diagnostics (policy : Policy) (f : Field) : List Diagnostic :=
  f.surplusWarnings ++ (f.rejection? policy).toList

def markerIds (className : String) (f : Field) : List CustomizationId :=
  f.markers.map fun m => ⟨className, f.name, m.ordinal⟩

end Field

/-- A field is left alone without a report, or gets the extracted literal as its initializer and
nothing else, or is left alone and rejected. -/
inductive Settles (policy : Policy) (f : Field) : Field → Option Outcome → Prop where
  | unmarked (absent : f.markers = []) : Settles policy f f none
  | injected (first : Match) (extras : List Match) (declaration : Declaration)
      (literal : Literal) (found : f.markers = first :: extras)
      (declared : f.declaration = some declaration)
      (extracted : Extraction.extract policy f first.customization = .ok literal) :
      Settles policy f
        { f with declaration := some { declaration with initializer := some literal } }
        (some (.injected literal))
  | rejected (first : Match) (extras : List Match) (d : Diagnostic)
      (found : f.markers = first :: extras)
      (extracted : Extraction.extract policy f first.customization = .error d) :
      Settles policy f f (some (.rejected d.message))

theorem field_settles (policy : Policy) (f : Field) :
    Settles policy f (f.settled policy) (f.outcome? policy) := by
  cases found : f.markers with
  | nil =>
      have nothing : f.extracted? policy = none := by simp [Field.extracted?, found]
      simpa [Field.settled, Field.outcome?, nothing] using Settles.unmarked found
  | cons first extras =>
      have decided : f.extracted? policy =
          some (Extraction.extract policy f first.customization) := by
        simp [Field.extracted?, found]
      cases extracted : Extraction.extract policy f first.customization with
      | error d =>
          simpa [Field.settled, Field.outcome?, decided, extracted] using
            Settles.rejected first extras d found extracted
      | ok literal =>
          obtain ⟨declaration, declared⟩ :=
            Extraction.extract_declared policy f first.customization literal extracted
          simpa [Field.settled, Field.outcome?, decided, extracted, Field.inject, declared] using
            Settles.injected first extras declaration literal found declared extracted

namespace Field

theorem rejection_error (policy : Policy) (f : Field) (first : Match) (extras : List Match)
    (d : Diagnostic) (found : f.markers = first :: extras)
    (extracted : Extraction.extract policy f first.customization = .error d) :
    f.rejection? policy = some d := by
  obtain ⟨entry, place⟩ := Extraction.extract_error policy f first.customization d extracted
  cases d with
  | mk kind message location =>
      simp only at entry place
      subst entry place
      simp only [rejection?, found, extracted, Extraction.place]

theorem rejection_fatal (policy : Policy) (f : Field) (d : Diagnostic)
    (rejected : f.rejection? policy = some d) : d.kind = .fatal := by
  unfold rejection? at rejected
  split at rejected
  · cases rejected
  · split at rejected
    · cases rejected
    · cases rejected
      rfl

theorem diagnostics_rejected (policy : Policy) (f : Field) (d : Diagnostic)
    (rejected : f.rejection? policy = some d) :
    f.diagnostics policy = f.surplusWarnings ++ [d] := by
  rw [diagnostics, rejected]
  rfl

theorem surplus_warns (f : Field) (d : Diagnostic) (surplus : d ∈ f.surplusWarnings) :
    d.kind = .warning := by
  obtain ⟨extra, _, same⟩ := List.mem_map.mp surplus
  subst same
  rfl

theorem diagnostics_fatal (policy : Policy) (f : Field) (d : Diagnostic)
    (sent : d ∈ f.diagnostics policy) (entry : d.kind = .fatal) :
    f.rejection? policy = some d := by
  rcases List.mem_append.mp sent with surplus | rejected
  · rw [f.surplus_warns d surplus] at entry
    cases entry
  · exact Option.mem_toList.mp rejected

theorem settled_rejected (policy : Policy) (f : Field) (d : Diagnostic)
    (rejected : f.rejection? policy = some d) : f.settled policy = f := by
  cases found : f.markers with
  | nil => simp [rejection?, found] at rejected
  | cons first extras =>
      cases extracted : Extraction.extract policy f first.customization with
      | ok literal => simp [rejection?, found, extracted] at rejected
      | error d => simp [settled, extracted?, found, extracted]

end Field

end Fields

section Bare

namespace Field

def bare (f : Field) : Field :=
  { f with declaration := f.declaration.map ({ · with initializer := none }) }

theorem type_bare (f : Field) : f.bare.type? = f.type? := by
  cases declared : f.declaration <;> simp [type?, bare, declared]

theorem extract_bare (policy : Policy) (f : Field) (marker : Customization) :
    Extraction.extract policy f.bare marker = Extraction.extract policy f marker := by
  -- Both policies read the declared type, and of the field itself its property and its place.
  have property : f.bare.property = f.property := rfl
  have location : f.bare.location = f.location := rfl
  cases policy <;>
    simp only [Extraction.extract, Extraction.fromSchema, Extraction.fromMarker,
      Extraction.place, type_bare, property, location]

theorem extracted_bare (policy : Policy) (f : Field) :
    f.bare.extracted? policy = f.extracted? policy := by
  have markers : f.bare.markers = f.markers := rfl
  simp only [extracted?, markers, extract_bare]

theorem outcome_bare (policy : Policy) (f : Field) :
    f.bare.outcome? policy = f.outcome? policy := by
  simp only [outcome?, extracted_bare]

theorem diagnostics_bare (policy : Policy) (f : Field) :
    f.bare.diagnostics policy = f.diagnostics policy := by
  have markers : f.bare.markers = f.markers := rfl
  have location : f.bare.location = f.location := rfl
  simp only [diagnostics, surplusWarnings, rejection?, markers, location, extract_bare]

theorem bare_inject (f : Field) (literal : Literal) : (f.inject literal).bare = f.bare := by
  cases declared : f.declaration <;> simp [inject, bare, declared]

theorem bare_settled (policy : Policy) (f : Field) : (f.settled policy).bare = f.bare := by
  unfold settled
  split
  · exact bare_inject f _
  · rfl

theorem extracted_settled (policy : Policy) (f : Field) :
    (f.settled policy).extracted? policy = f.extracted? policy := by
  rw [← extracted_bare policy (f.settled policy), bare_settled, extracted_bare]

theorem inject_inject (f : Field) (first second : Literal) :
    (f.inject first).inject second = f.inject second := by
  cases declared : f.declaration <;> simp [inject, declared]

theorem settled_extracted (policy : Policy) (f : Field) (literal : Literal)
    (extracted : f.extracted? policy = some (.ok literal)) :
    f.settled policy = f.inject literal := by
  simp only [settled, extracted]

theorem settled_settled (policy : Policy) (f : Field) :
    (f.settled policy).settled policy = f.settled policy := by
  cases decided : f.extracted? policy with
  | none => simp [settled, decided]
  | some extraction =>
      cases extraction with
      | error d => simp [settled, decided]
      | ok literal =>
          -- The literal is extracted once more and written over itself.
          have again : (f.settled policy).extracted? policy = some (.ok literal) := by
            rw [extracted_settled, decided]
          calc (f.settled policy).settled policy
              = (f.settled policy).inject literal := settled_extracted policy _ literal again
            _ = (f.inject literal).inject literal := by
                rw [settled_extracted policy f literal decided]
            _ = f.inject literal := inject_inject f literal literal
            _ = f.settled policy := (settled_extracted policy f literal decided).symm

end Field

end Bare

section Classes

namespace GeneratedClass

def settled (policy : Policy) (c : GeneratedClass) : GeneratedClass :=
  { c with fields := c.fields.map (·.settled policy) }

def bare (c : GeneratedClass) : GeneratedClass := { c with fields := c.fields.map Field.bare }

def reports (policy : Policy) (c : GeneratedClass) : List FieldReport :=
  c.fields.filterMap fun f => (f.outcome? policy).map (⟨c.name, f.name, ·⟩)

def diagnostics (policy : Policy) (c : GeneratedClass) : List Diagnostic :=
  c.fields.flatMap (·.diagnostics policy)

def markerIds (c : GeneratedClass) : List CustomizationId :=
  c.fields.flatMap (·.markerIds c.name)

theorem settled_settled (policy : Policy) (c : GeneratedClass) :
    (c.settled policy).settled policy = c.settled policy := by
  simp [settled, Field.settled_settled]

theorem bare_settled (policy : Policy) (c : GeneratedClass) :
    (c.settled policy).bare = c.bare := by
  simp [settled, bare, Field.bare_settled]

theorem reports_bare (policy : Policy) (c : GeneratedClass) :
    c.bare.reports policy = c.reports policy := by
  simp only [reports, bare, List.filterMap_map, Function.comp_def, Field.outcome_bare]
  rfl

theorem diagnostics_bare (policy : Policy) (c : GeneratedClass) :
    c.bare.diagnostics policy = c.diagnostics policy := by
  simp only [diagnostics, bare, List.flatMap_map, Field.diagnostics_bare]

theorem markerIds_bare (c : GeneratedClass) : c.bare.markerIds = c.markerIds := by
  simp only [markerIds, bare, List.flatMap_map]
  rfl

end GeneratedClass

/-- All that a run has to say about a model, in visiting order. -/
def diagnosticStream (policy : Policy) (classes : List GeneratedClass) : List Diagnostic :=
  classes.flatMap (·.diagnostics policy)

theorem diagnosticStream_bare (policy : Policy) (classes : List GeneratedClass) :
    diagnosticStream policy (classes.map GeneratedClass.bare) =
      diagnosticStream policy classes := by
  simp only [diagnosticStream, List.flatMap_map, GeneratedClass.diagnostics_bare]

end Classes

section Rejections

def Outcome.isRejected : Outcome → Bool
  | .injected _ => false
  | .rejected _ => true

theorem Field.fatals_rejected (policy : Policy) (f : Field) :
    (f.diagnostics policy).countP Diagnostic.isFatal =
      (f.outcome? policy).toList.countP Outcome.isRejected := by
  have mild : f.surplusWarnings.countP Diagnostic.isFatal = 0 := by
    apply List.countP_eq_zero.mpr
    intro d surplus
    simp [Diagnostic.isFatal, f.surplus_warns d surplus]
  rw [diagnostics, List.countP_append, mild, Nat.zero_add]
  cases found : f.markers with
  | nil => simp [rejection?, outcome?, extracted?, found]
  | cons first extras =>
      cases extracted : Extraction.extract policy f first.customization <;>
        simp [rejection?, outcome?, extracted?, found, extracted, Outcome.isRejected,
          Diagnostic.isFatal]

theorem GeneratedClass.fatals_rejected (policy : Policy) (c : GeneratedClass) :
    (c.diagnostics policy).countP Diagnostic.isFatal =
      (c.reports policy).countP (·.outcome.isRejected) := by
  simp only [diagnostics, reports]
  induction c.fields with
  | nil => rfl
  | cons f rest ih =>
      rw [List.flatMap_cons, List.countP_append, ih, f.fatals_rejected]
      cases outcome : f.outcome? policy with
      | none => simp [outcome]
      | some outcome' =>
          simp [outcome, List.countP_cons, Nat.add_comm]

theorem stream_fatals_rejected (policy : Policy) (classes : List GeneratedClass) :
    (diagnosticStream policy classes).countP Diagnostic.isFatal =
      (classes.flatMap (·.reports policy)).countP (·.outcome.isRejected) := by
  simp only [diagnosticStream]
  induction classes with
  | nil => rfl
  | cons c rest ih =>
      rw [List.flatMap_cons, List.flatMap_cons, List.countP_append, List.countP_append, ih,
        c.fatals_rejected]

end Rejections

end SchemaDefaults
