import Mathlib.Data.List.Forall2
import SchemaDefaults.Proofs.RunResult
/-!
What a policy reads. Of a customization no policy reads its flag, and of its attributes at most
the value of the first marker of a field. The policy that goes by the schema reads no attribute
at all, and the one that goes by the marker reads no property. Two models that agree in the rest
give the same run, down to the journal.
-/

namespace SchemaDefaults

section Agreement

/-- Customizations that differ at most in their attributes and their flags. -/
structure Customization.Alike (c d : Customization) : Prop where
  namespaceUri : c.namespaceUri = d.namespaceUri
  tag : c.tag = d.tag
  location : c.location = d.location

/-- The value attribute of the first marker. -/
def Field.markerValue? (f : Field) : Option String :=
  f.markers.head?.bind fun first =>
    first.customization.attributes.get? Extraction.valueAttribute

/-- Fields that differ at most where a run by the policy does not look. -/
structure Field.Alike (policy : Policy) (f g : Field) : Prop where
  name : f.name = g.name
  location : f.location = g.location
  declaration : f.declaration = g.declaration
  customizations : List.Forall₂ Customization.Alike f.customizations g.customizations
  property : policy = .schemaDefault → f.property = g.property
  value : policy = .annotationLiteral → f.markerValue? = g.markerValue?

structure GeneratedClass.Alike (policy : Policy) (c d : GeneratedClass) : Prop where
  name : c.name = d.name
  location : c.location = d.location
  fields : List.Forall₂ (Field.Alike policy) c.fields d.fields

end Agreement

section Reading

structure Match.Alike (m n : Match) : Prop where
  ordinal : m.ordinal = n.ordinal
  customization : m.customization.Alike n.customization

namespace Field

theorem matchesFrom_alike {cs ds : List Customization}
    (alike : List.Forall₂ Customization.Alike cs ds) (start : Nat) :
    List.Forall₂ Match.Alike (matchesFrom start cs) (matchesFrom start ds) := by
  induction alike generalizing start with
  | nil => exact .nil
  | @cons c d _ _ head _ ih =>
      have named : c.isNamed Marker.namespaceUri Marker.tag =
          d.isNamed Marker.namespaceUri Marker.tag := by
        rw [Customization.isNamed, Customization.isNamed, head.namespaceUri, head.tag]
      simp only [matchesFrom, named]
      split
      · exact .cons ⟨rfl, head⟩ (ih (start + 1))
      · exact ih (start + 1)

variable {policy : Policy} {f g : Field}

theorem Alike.markers (alike : f.Alike policy g) :
    List.Forall₂ Match.Alike f.markers g.markers :=
  matchesFrom_alike alike.customizations 0

theorem Alike.type (alike : f.Alike policy g) : f.type? = g.type? := by
  rw [type?, type?, alike.declaration]

/-- The literal goes by the parts in which the fields agree, and so does the place of the
diagnostic that stands in for it. -/
theorem Alike.extract (alike : f.Alike policy g) {first other : Match} {extras others : List Match}
    (found : f.markers = first :: extras) (foundOther : g.markers = other :: others) :
    Extraction.extract policy f first.customization =
      Extraction.extract policy g other.customization := by
  have heads : first.customization.Alike other.customization := by
    have markers := alike.markers
    rw [found, foundOther] at markers
    cases markers with
    | cons head _ => exact head.customization
  have place : Extraction.place f first.customization =
      Extraction.place g other.customization := by
    rw [Extraction.place, Extraction.place, alike.location, heads.location]
  cases policy with
  | schemaDefault =>
      have read : Extraction.fromSchema f = Extraction.fromSchema g := by
        rw [Extraction.fromSchema, Extraction.fromSchema, alike.property rfl, alike.type]
      simp only [Extraction.extract, read, place]
  | annotationLiteral =>
      have value := alike.value rfl
      simp only [markerValue?, found, foundOther, List.head?_cons, Option.bind_some] at value
      have read : Extraction.fromMarker f first.customization =
          Extraction.fromMarker g other.customization := by
        rw [Extraction.fromMarker, Extraction.fromMarker, alike.type, value]
      simp only [Extraction.extract, read, place]

theorem Alike.inject (alike : f.Alike policy g) (literal : Literal) :
    (f.inject literal).Alike policy (g.inject literal) :=
  { alike with declaration := by simp only [Field.inject, alike.declaration] }

theorem Alike.initializer (alike : f.Alike policy g) : f.initializer? = g.initializer? := by
  rw [initializer?, initializer?, alike.declaration]

end Field

theorem GeneratedClass.Alike.initializers {policy : Policy} {c d : GeneratedClass}
    (alike : c.Alike policy d) :
    c.fields.map Field.initializer? = d.fields.map Field.initializer? := by
  have fields := alike.fields.imp fun _ _ same => same.initializer
  rw [← List.forall₂_eq_eq_eq, List.forall₂_map_left_iff, List.forall₂_map_right_iff]
  exact fields

end Reading

namespace Pass

variable {σ : Type} {policy : Policy}

section Visits

/-- Visits that leave the same behind, apart from what the policy does not read. -/
structure Visit.Alike (policy : Policy) (v w : Visit σ) : Prop where
  field : v.field.Alike policy w.field
  outcome : v.outcome = w.outcome
  acknowledged : v.acknowledged = w.acknowledged
  reporter : v.reporter = w.reporter
  failure : v.failure = w.failure

structure FieldsVisit.Alike (policy : Policy) (v w : FieldsVisit σ) : Prop where
  fields : List.Forall₂ (Field.Alike policy) v.fields w.fields
  visited : v.visited = w.visited
  reports : v.reports = w.reports
  acknowledged : v.acknowledged = w.acknowledged
  reporter : v.reporter = w.reporter
  failure : v.failure = w.failure

structure ClassesVisit.Alike (policy : Policy) (v w : ClassesVisit σ) : Prop where
  classes : List.Forall₂ (GeneratedClass.Alike policy) v.classes w.classes
  classesVisited : v.classesVisited = w.classesVisited
  fieldsVisited : v.fieldsVisited = w.fieldsVisited
  reports : v.reports = w.reports
  acknowledged : v.acknowledged = w.acknowledged
  reporter : v.reporter = w.reporter
  failure : v.failure = w.failure

theorem warnExtras_alike (channel : Sink σ) {extras others : List Match}
    (alike : List.Forall₂ Match.Alike extras others) (r : Reporter σ) :
    warnExtras channel extras r = warnExtras channel others r := by
  induction alike generalizing r with
  | nil => rfl
  | @cons m n _ _ head _ ih =>
      have same : extraWarning m = extraWarning n := by
        rw [extraWarning, extraWarning, head.customization.location]
      simp only [warnExtras, same, ih]

theorem ids_alike (className fieldName : String) {markers others : List Match}
    (alike : List.Forall₂ Match.Alike markers others) :
    markers.map (fun m => (⟨className, fieldName, m.ordinal⟩ : CustomizationId)) =
      others.map (fun m => ⟨className, fieldName, m.ordinal⟩) := by
  induction alike with
  | nil => rfl
  | cons head _ ih => rw [List.map_cons, List.map_cons, head.ordinal, ih]

theorem reject_alike (channel : Sink σ) (className : String) {f g : Field}
    (alike : f.Alike policy g) {one two : Resolution} (ids : one.acknowledged = two.acknowledged)
    (d : Diagnostic) (r : Reporter σ) :
    (reject channel className f one d r).Alike policy
      (reject channel className g two d r) := by
  have event : fieldEvent className f d.message = fieldEvent className g d.message := by
    rw [fieldEvent, fieldEvent, alike.name]
  simp only [reject, event, ids]
  split <;> exact ⟨alike, rfl, rfl, rfl, rfl⟩

theorem visitField_alike (channel : Sink σ) (className : String) {f g : Field}
    (alike : f.Alike policy g) (r : Reporter σ) :
    (visitField channel policy className f r).Alike policy
      (visitField channel policy className g r) := by
  have markers := alike.markers
  cases found : f.markers with
  | nil =>
      rw [found, List.forall₂_nil_left_iff] at markers
      simp only [visitField, resolve, found, markers]
      exact ⟨alike, rfl, rfl, rfl, rfl⟩
  | cons first extras =>
      obtain ⟨other, others, _, surplus, foundOther⟩ :=
        List.forall₂_cons_left_iff.mp (found ▸ markers)
      have extracted := alike.extract found foundOther
      have ids := ids_alike className f.name markers
      have warned := warnExtras_alike channel surplus r
      rw [found, foundOther] at ids
      simp only [visitField, resolve, found, foundOther, extracted, warned]
      rw [← alike.name, ← alike.declaration]
      cases decided : Extraction.extract policy g other.customization with
      | error d => exact reject_alike channel className alike ids d _
      | ok literal =>
          -- A literal is extracted for a declared type, so neither visit misses a declaration.
          obtain ⟨declaration, declared⟩ :=
            Extraction.extract_declared policy g other.customization literal decided
          have events : injectEvents className f literal = injectEvents className g literal := by
            simp only [injectEvents, fieldEvent, alike.name, alike.initializer]
          simp only [alike.declaration, declared, events]
          exact ⟨alike.inject literal, rfl, ids, rfl, rfl⟩

theorem visitFields_alike (channel : Sink σ) (className : String) {fields others : List Field}
    (alike : List.Forall₂ (Field.Alike policy) fields others) (r : Reporter σ) :
    (visitFields channel policy className fields r).Alike policy
      (visitFields channel policy className others r) := by
  induction alike generalizing r with
  | nil => exact ⟨.nil, rfl, rfl, rfl, rfl, rfl⟩
  | @cons f g _ _ head tail ih =>
      have first := visitField_alike channel className head r
      have later := ih (visitField channel policy className g r).reporter
      simp only [visitFields, first.failure, first.acknowledged, first.reporter, first.outcome,
        head.name]
      -- Both visits end at this field or neither does, and a field that is not reached is kept.
      cases (visitField channel policy className g r).failure with
      | some failure => exact ⟨.cons first.field tail, rfl, rfl, rfl, rfl, rfl⟩
      | none =>
          simp only [later.visited, later.reports, later.acknowledged, later.reporter,
            later.failure]
          exact ⟨.cons first.field later.fields, rfl, rfl, rfl, rfl, rfl⟩

theorem visitClasses_alike (channel : Sink σ) {classes others : List GeneratedClass}
    (alike : List.Forall₂ (GeneratedClass.Alike policy) classes others) (r : Reporter σ) :
    (visitClasses channel policy classes r).Alike policy
      (visitClasses channel policy others r) := by
  induction alike generalizing r with
  | nil => exact ⟨.nil, rfl, rfl, rfl, rfl, rfl, rfl⟩
  | @cons c d _ _ head tail ih =>
      obtain ⟨name, location, fields⟩ := c
      obtain ⟨_, _, others⟩ := d
      obtain ⟨rfl, rfl, inside⟩ := head
      have first := visitFields_alike channel name inside r
      have later := ih (visitFields channel policy name others r).reporter
      simp only [visitClasses, first.failure, first.visited, first.reports, first.acknowledged,
        first.reporter]
      cases (visitFields channel policy name others r).failure with
      | some failure =>
          exact ⟨.cons ⟨rfl, rfl, first.fields⟩ tail, rfl, rfl, rfl, rfl, rfl, rfl⟩
      | none =>
          simp only [later.classesVisited, later.fieldsVisited, later.reports,
            later.acknowledged, later.reporter, later.failure]
          exact ⟨.cons ⟨rfl, rfl, first.fields⟩ later.classes, rfl, rfl, rfl, rfl, rfl, rfl⟩

end Visits

section Runs

structure Run.Alike (policy : Policy) (one two : Run σ) : Prop where
  classes : List.Forall₂ (GeneratedClass.Alike policy) one.classes two.classes
  result : one.result = two.result
  sink : one.sink = two.sink
  journal : one.journal = two.journal

theorem run_alike (channel : Sink σ) (options : PassOptions) {first second : List GeneratedClass}
    (alike : List.Forall₂ (GeneratedClass.Alike options.policy) first second) (sink : σ) :
    (run channel options first sink).Alike options.policy (run channel options second sink) := by
  simp only [run]
  split
  · have opening : startEvent options.policy first = startEvent options.policy second := by
      rw [startEvent, startEvent, alike.length_eq]
    have visits := visitClasses_alike channel alike
      ((Reporter.start sink).note [startEvent options.policy second])
    have report : (visitClasses channel options.policy first
        ((Reporter.start sink).note [startEvent options.policy second])).report =
        (visitClasses channel options.policy second
          ((Reporter.start sink).note [startEvent options.policy second])).report := by
      simp only [ClassesVisit.report, visits.classesVisited, visits.fieldsVisited,
        visits.reports, visits.acknowledged, visits.reporter]
    simp only [runEnabled, opening, report, visits.failure, visits.reporter]
    split <;> exact ⟨visits.classes, rfl, rfl, rfl⟩
  · exact ⟨alike, rfl, rfl, rfl⟩

/-- By either policy, models that agree in what the policy reads give the same report or the same
failure, the same calls with the same answers, and the same journal, and their fields end up with
the same initializers, also where the run is interrupted. -/
theorem policy_reads_own_parts (channel : Sink σ) (options : PassOptions)
    (first second : List GeneratedClass) (sink : σ)
    (alike : List.Forall₂ (GeneratedClass.Alike options.policy) first second) :
    let one := run channel options first sink
    let two := run channel options second sink
    one.result = two.result ∧ one.sink = two.sink ∧ one.journal = two.journal ∧
      (run channel.recording options first (sink, [])).sink.2 =
        (run channel.recording options second (sink, [])).sink.2 ∧
      one.classes.map (fun c => c.fields.map Field.initializer?) =
        two.classes.map (fun c => c.fields.map Field.initializer?) ∧
      List.Forall₂ (GeneratedClass.Alike options.policy) one.classes two.classes := by
  have runs := run_alike channel options alike sink
  have recorded := run_alike channel.recording options alike (sink, [])
  refine ⟨runs.result, runs.sink, runs.journal, by rw [recorded.sink], ?_, runs.classes⟩
  rw [← List.forall₂_eq_eq_eq, List.forall₂_map_left_iff, List.forall₂_map_right_iff]
  exact runs.classes.imp fun _ _ same => same.initializers

section Sample

def portClass (property : Property) (first second : Customization) : GeneratedClass :=
  ⟨"Host", none, [⟨"port", property, [first, second], none, some ⟨.integer .int, none⟩⟩]⟩

def valuedMarker (line : UInt32) (value : String) : Customization :=
  { sampleMarker line with attributes := SortedMap.ofList [(Extraction.valueAttribute, value)] }

/-- Values and flags do not matter to the policy that goes by the schema, and to the other one
neither does the kind of the property, nor the value of the second marker. -/
theorem sample_policy_reads :
    let valued := portClass (.attribute (some "110")) (valuedMarker 4 "5") (valuedMarker 5 "6")
    let marked := portClass (.attribute (some "110"))
      { sampleMarker 4 with acknowledged := true } (sampleMarker 5)
    let element := portClass .element (valuedMarker 4 "5") (sampleMarker 5)
    List.Forall₂ (GeneratedClass.Alike .schemaDefault) [valued] [marked] ∧
      (run shut ⟨true, .schemaDefault⟩ [valued] ⟨0, 0⟩).result =
        (run shut ⟨true, .schemaDefault⟩ [marked] ⟨0, 0⟩).result ∧
      List.Forall₂ (GeneratedClass.Alike .annotationLiteral) [valued] [element] ∧
      (run shut ⟨true, .annotationLiteral⟩ [valued] ⟨0, 0⟩).classes.map
          (fun c => c.fields.map Field.initializer?) = [[some (.integer .int "5")]] ∧
      (run shut ⟨true, .annotationLiteral⟩ [element] ⟨0, 0⟩).classes.map
          (fun c => c.fields.map Field.initializer?) = [[some (.integer .int "5")]] := by
  intro valued marked element
  have bySchema : List.Forall₂ (GeneratedClass.Alike .schemaDefault) [valued] [marked] :=
    .cons ⟨rfl, rfl, .cons ⟨rfl, rfl, rfl, .cons ⟨rfl, rfl, rfl⟩ (.cons ⟨rfl, rfl, rfl⟩ .nil),
      fun _ => rfl, nofun⟩ .nil⟩ .nil
  have byMarker : List.Forall₂ (GeneratedClass.Alike .annotationLiteral) [valued] [element] :=
    .cons ⟨rfl, rfl, .cons ⟨rfl, rfl, rfl, .cons ⟨rfl, rfl, rfl⟩ (.cons ⟨rfl, rfl, rfl⟩ .nil),
      nofun, fun _ => rfl⟩ .nil⟩ .nil
  obtain ⟨result, _⟩ :=
    policy_reads_own_parts shut ⟨true, .schemaDefault⟩ [valued] [marked] ⟨0, 0⟩ bySchema
  obtain ⟨_, _, _, _, initializers, _⟩ :=
    policy_reads_own_parts shut ⟨true, .annotationLiteral⟩ [valued] [element] ⟨0, 0⟩ byMarker
  exact ⟨bySchema, result, byMarker, rfl, initializers ▸ rfl⟩

end Sample

end Runs

end Pass

end SchemaDefaults
