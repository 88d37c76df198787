import Mathlib.Data.List.Forall2
import Mathlib.Logic.Relation
import SchemaDefaults.Proofs.History
import SchemaDefaults.Proofs.Run
import SchemaDefaults.Proofs.Typing
/-!
What a host can make of a model. However often the pass is run, enabled or dormant, to its end or
not, and whatever is acknowledged in between, the model keeps its shape: initializers change only
in fields with a marker, to literals of the declared type, and acknowledged customizations stay
acknowledged. Initializers that have come with the model may be of any type.
-/

namespace SchemaDefaults

section Kept

structure Customization.Kept (before after : Customization) : Prop where
  namespaceUri : after.namespaceUri = before.namespaceUri
  tag : after.tag = before.tag
  attributes : after.attributes = before.attributes
  location : after.location = before.location
  acknowledged : before.acknowledged = true → after.acknowledged = true

/-- A field without a type is one without a declaration. -/
structure Field.Kept (before after : Field) : Prop where
  name : after.name = before.name
  property : after.property = before.property
  location : after.location = before.location
  customizations : List.Forall₂ Customization.Kept before.customizations after.customizations
  type : after.type? = before.type?
  changed : after.initializer? ≠ before.initializer? →
    (∃ c ∈ after.customizations, c.isNamed Marker.namespaceUri Marker.tag = true) ∧
      ∃ type literal, after.type? = some type ∧ after.initializer? = some literal ∧
        literal.HasType type

structure GeneratedClass.Kept (before after : GeneratedClass) : Prop where
  name : after.name = before.name
  location : after.location = before.location
  fields : List.Forall₂ Field.Kept before.fields after.fields

theorem forall₂_trans {α : Type} {R : α → α → Prop} {first second third : List α}
    (trans : ∀ a b c, R a b → R b c → R a c) (early : List.Forall₂ R first second)
    (late : List.Forall₂ R second third) : List.Forall₂ R first third := by
  induction early generalizing third with
  | nil => exact late
  | cons head _ ih =>
      cases late with
      | cons next rest => exact .cons (trans _ _ _ head next) (ih rest)

instance : Std.Refl Customization.Kept :=
  ⟨fun _ => ⟨rfl, rfl, rfl, rfl, id⟩⟩

instance : Std.Refl Field.Kept :=
  ⟨fun f => ⟨rfl, rfl, rfl, List.forall₂_refl f.customizations, rfl,
    fun changed => absurd rfl changed⟩⟩

instance : Std.Refl GeneratedClass.Kept :=
  ⟨fun c => ⟨rfl, rfl, List.forall₂_refl c.fields⟩⟩

theorem Customization.Kept.trans (first second third : Customization)
    (early : first.Kept second) (late : second.Kept third) : first.Kept third :=
  ⟨late.namespaceUri.trans early.namespaceUri, late.tag.trans early.tag,
    late.attributes.trans early.attributes, late.location.trans early.location,
    late.acknowledged ∘ early.acknowledged⟩

theorem marker_kept {before after : List Customization}
    (kept : List.Forall₂ Customization.Kept before after)
    (marked : ∃ c ∈ before, c.isNamed Marker.namespaceUri Marker.tag = true) :
    ∃ c ∈ after, c.isNamed Marker.namespaceUri Marker.tag = true := by
  induction kept with
  | nil => exact marked
  | @cons old new _ _ same _ ih =>
      obtain ⟨c, member, named⟩ := marked
      rcases List.mem_cons.mp member with rfl | later
      · refine ⟨new, List.mem_cons_self, ?_⟩
        rw [← named, Customization.isNamed, Customization.isNamed, same.namespaceUri, same.tag]
      · obtain ⟨found, inside, marker⟩ := ih ⟨c, later, named⟩
        exact ⟨found, List.mem_cons_of_mem new inside, marker⟩

theorem Field.Kept.trans (first second third : Field) (early : first.Kept second)
    (late : second.Kept third) : first.Kept third := by
  refine ⟨late.name.trans early.name, late.property.trans early.property,
    late.location.trans early.location,
    forall₂_trans Customization.Kept.trans early.customizations late.customizations,
    late.type.trans early.type, ?_⟩
  intro changed
  by_cases same : third.initializer? = second.initializer?
  · -- The literal is an earlier one, and its field has kept marker and type.
    rw [same] at changed ⊢
    obtain ⟨marked, typed⟩ := early.changed changed
    rw [late.type]
    exact ⟨marker_kept late.customizations marked, typed⟩
  · exact late.changed same

theorem GeneratedClass.Kept.trans (first second third : GeneratedClass)
    (early : first.Kept second) (late : second.Kept third) : first.Kept third :=
  ⟨late.name.trans early.name, late.location.trans early.location,
    forall₂_trans Field.Kept.trans early.fields late.fields⟩

end Kept

section Steps

theorem Field.matchesFrom_listed (start : Nat) (customizations : List Customization) (m : Match)
    (found : m ∈ matchesFrom start customizations) :
    m.customization ∈ customizations ∧
      m.customization.isNamed Marker.namespaceUri Marker.tag = true := by
  induction customizations generalizing start with
  | nil => cases found
  | cons c rest ih =>
      rw [matchesFrom] at found
      split at found
      · rename_i named
        rcases List.mem_cons.mp found with rfl | later
        · exact ⟨List.mem_cons_self, named⟩
        · exact (ih (start + 1) later).imp (List.mem_cons_of_mem c) id
      · exact (ih (start + 1) found).imp (List.mem_cons_of_mem c) id

theorem Field.kept_settled (policy : Policy) (f : Field) : f.Kept (f.settled policy) := by
  have settles := field_settles policy f
  generalize f.settled policy = after at settles ⊢
  generalize f.outcome? policy = outcome at settles
  cases settles with
  | unmarked => exact refl f
  | rejected => exact refl f
  | injected first extras declaration literal found declared extracted =>
      have member : first ∈ f.markers := by simp [found]
      obtain ⟨listed, named⟩ := matchesFrom_listed 0 f.customizations first member
      obtain ⟨type, typed, fits⟩ :=
        Extraction.extract_typed policy f first.customization literal extracted
      have kept : (some { declaration with initializer := some literal }).map
          Declaration.type = f.type? := by
        simp [Field.type?, declared]
      refine ⟨rfl, rfl, rfl, List.forall₂_refl f.customizations, kept, ?_⟩
      intro _
      exact ⟨⟨_, listed, named⟩, type, literal, kept.trans typed, rfl, fits⟩

theorem customizations_kept_marked (picked : Nat → Bool) (customizations : List Customization) :
    List.Forall₂ Customization.Kept customizations
      (customizations.mapIdx fun ordinal c => c.marked (picked ordinal)) := by
  induction customizations generalizing picked with
  | nil => exact .nil
  | cons c rest ih =>
      rw [List.mapIdx_cons]
      refine .cons ⟨rfl, rfl, rfl, rfl, ?_⟩ (ih fun ordinal => picked (ordinal + 1))
      intro before
      simp [Customization.marked, before]

theorem Field.kept_marked (picked : CustomizationId → Bool) (className : String) (f : Field) :
    f.Kept (f.marked picked className) :=
  ⟨rfl, rfl, rfl, customizations_kept_marked _ f.customizations, rfl,
    fun changed => absurd rfl changed⟩

theorem fields_kept (change : Field → Field) (fields : List Field)
    (kept : ∀ f : Field, f.Kept (change f)) : List.Forall₂ Field.Kept fields (fields.map change) :=
  List.forall₂_map_right_iff.mpr (List.forall₂_same.mpr fun f _ => kept f)

theorem classes_kept (change : GeneratedClass → GeneratedClass) (classes : List GeneratedClass)
    (kept : ∀ c : GeneratedClass, c.Kept (change c)) :
    List.Forall₂ GeneratedClass.Kept classes (classes.map change) :=
  List.forall₂_map_right_iff.mpr (List.forall₂_same.mpr fun c _ => kept c)

theorem GeneratedClass.kept_settled (policy : Policy) (c : GeneratedClass) :
    c.Kept (c.settled policy) :=
  ⟨rfl, rfl, fields_kept _ c.fields (Field.kept_settled policy)⟩

theorem GeneratedClass.kept_marked (picked : CustomizationId → Bool) (c : GeneratedClass) :
    c.Kept (c.marked picked) :=
  ⟨rfl, rfl, fields_kept _ c.fields (Field.kept_marked picked c.name)⟩

theorem FieldPlace.kept_cut (policy : Policy) (p : FieldPlace) :
    List.Forall₂ GeneratedClass.Kept p.classes (p.cut policy) := by
  have earlier := fields_kept _ p.earlier (Field.kept_settled policy)
  have later : List.Forall₂ Field.Kept (p.field :: p.later) (p.field :: p.later) :=
    List.forall₂_refl _
  exact List.rel_append (classes_kept _ p.before (GeneratedClass.kept_settled policy))
    (.cons ⟨rfl, rfl, List.rel_append earlier later⟩ (List.forall₂_refl p.after))

namespace Pass

variable {σ : Type}

/-- A run keeps the model, be it dormant, successful or interrupted. -/
theorem run_kept (channel : Sink σ) (options : PassOptions) (classes : List GeneratedClass)
    (sink : σ) :
    List.Forall₂ GeneratedClass.Kept classes (run channel options classes sink).classes := by
  obtain ⟨enabled, policy⟩ := options
  cases enabled with
  | false => exact List.forall₂_refl _
  | true =>
      cases answered : (channel.deliver (diagnosticStream policy classes) sink).failure with
      | none =>
          rw [(run_passed channel policy classes sink answered).1]
          exact classes_kept _ classes (GeneratedClass.kept_settled policy)
      | some failure =>
          obtain ⟨_, _, p, split, left, _⟩ :=
            run_stopped channel policy classes sink failure answered
          rw [left, ← split]
          exact p.kept_cut policy

end Pass

theorem acknowledge_kept (ids : IdSet) (classes : List GeneratedClass) :
    List.Forall₂ GeneratedClass.Kept classes (Acknowledgement.acknowledge ids classes).1 := by
  rw [Acknowledgement.acknowledge_marked]
  exact classes_kept _ classes (GeneratedClass.kept_marked ids.contains)

end Steps

section Reachability

/-- One run of the pass, whatever its result, or one acknowledgement of any customizations. -/
inductive HostStep : List GeneratedClass → List GeneratedClass → Prop where
  | run {σ : Type} (channel : Sink σ) (sink : σ) (options : PassOptions)
      (classes : List GeneratedClass) :
      HostStep classes (Pass.run channel options classes sink).classes
  | acknowledge (ids : IdSet) (classes : List GeneratedClass) :
      HostStep classes (Acknowledgement.acknowledge ids classes).1

theorem HostStep.kept {before after : List GeneratedClass} (step : HostStep before after) :
    List.Forall₂ GeneratedClass.Kept before after := by
  cases step with
  | run channel sink options classes => exact Pass.run_kept channel options before sink
  | acknowledge ids classes => exact acknowledge_kept ids before

/-- Every model that a host can reach from a loaded one has kept the classes and fields of it with
their types and customizations, has cleared no flag, and has new initializers only where there is a
marker, and only of the declared type. -/
theorem reachable_kept (loaded reached : List GeneratedClass)
    (steps : Relation.ReflTransGen HostStep loaded reached) :
    List.Forall₂ GeneratedClass.Kept loaded reached := by
  induction steps with
  | refl => exact List.forall₂_refl _
  | tail _ step ih => exact forall₂_trans GeneratedClass.Kept.trans ih step.kept

/-- An interrupted run, a dormant one and an acknowledgement. -/
theorem sample_reachable :
    Relation.ReflTransGen HostStep [Pass.sampleClass] sampleRevision ∧
      List.Forall₂ GeneratedClass.Kept [Pass.sampleClass] sampleRevision := by
  have steps : Relation.ReflTransGen HostStep [Pass.sampleClass] sampleRevision :=
    ((Relation.ReflTransGen.single
      (HostStep.run Pass.shut ⟨0, 0⟩ ⟨true, .schemaDefault⟩ [Pass.sampleClass])).tail
      (HostStep.run Sink.collecting [] ⟨false, .annotationLiteral⟩ _)).tail
      (HostStep.acknowledge (IdSet.ofList [⟨"Host", "retries", 1⟩]) _)
  exact ⟨steps, reachable_kept [Pass.sampleClass] sampleRevision steps⟩

end Reachability

end SchemaDefaults
