import Mathlib.Data.List.Nodup
import SchemaDefaults.Marker
import SchemaDefaults.Pass
import SchemaDefaults.Proofs.Settlement
/-!
Marks and inventories. Acknowledging customizations sets the flags of those that it names,
wherever in the model they stand, and nothing else. A run of the pass reads no flag, so it cannot
tell a model from the same model with more marks, and it carries the marks along.

The inventory of a model lists its customizations in document order, each one under the id that
its class, its field and its position give it. Several customizations may stand under one id,
since classes and fields may share a name. A run leaves the inventory as it is, marks set flags in
it, and what has not been consumed is a part of it.
-/

namespace SchemaDefaults

section Marks

def Customization.marked (picked : Bool) (c : Customization) : Customization :=
  { c with acknowledged := c.acknowledged || picked }

theorem Customization.marked_marked (first second : Bool) (c : Customization) :
    (c.marked first).marked second = c.marked (first || second) := by
  simp [marked, Bool.or_assoc]

def Field.marked (picked : CustomizationId → Bool) (className : String) (f : Field) : Field :=
  { f with
    customizations := f.customizations.mapIdx fun ordinal c =>
      c.marked (picked ⟨className, f.name, ordinal⟩) }

def GeneratedClass.marked (picked : CustomizationId → Bool) (c : GeneratedClass) :
    GeneratedClass :=
  { c with fields := c.fields.map (·.marked picked c.name) }

theorem Field.marked_marked (first second : CustomizationId → Bool) (className : String)
    (f : Field) :
    (f.marked first className).marked second className =
      f.marked (fun id => first id || second id) className := by
  simp [marked, Customization.marked_marked, List.mapIdx_mapIdx, Function.comp_def]

theorem GeneratedClass.marked_marked (first second : CustomizationId → Bool)
    (c : GeneratedClass) :
    (c.marked first).marked second = c.marked fun id => first id || second id := by
  simp [marked, Field.marked_marked]

theorem Field.marked_nothing (className : String) (f : Field) :
    f.marked (fun _ => false) className = f := by
  have unmarked (c : Customization) : c.marked false = c := by simp [Customization.marked]
  have customizations : f.customizations.mapIdx (fun _ c => c) = f.customizations := by
    apply List.ext_getElem <;> simp
  rw [marked]
  simp only [unmarked, customizations]

theorem GeneratedClass.marked_nothing (c : GeneratedClass) : c.marked (fun _ => false) = c := by
  simp [marked, Field.marked_nothing]

end Marks

namespace Acknowledgement

theorem markFrom_marked (ids : IdSet) (className fieldName : String) (start : Nat)
    (customizations : List Customization) :
    (markFrom ids className fieldName start customizations).1 =
      customizations.mapIdx fun ordinal c =>
        c.marked (ids.contains ⟨className, fieldName, start + ordinal⟩) := by
  induction customizations generalizing start with
  | nil => rfl
  | cons c rest ih =>
      have later := ih (start + 1)
      simp only [Nat.add_assoc, Nat.add_comm 1] at later
      simp only [markFrom, List.mapIdx_cons, Nat.add_zero, ← later]
      -- A customization that is acknowledged already keeps its flag, and is not counted.
      cases c with
      | mk namespaceUri tag attributes location acknowledged =>
          cases ids.contains ⟨className, fieldName, start⟩ <;> cases acknowledged <;> rfl

theorem markField_marked (ids : IdSet) (className : String) (f : Field) :
    (markField ids className f).1 = f.marked ids.contains className := by
  simp only [markField, Field.marked, markFrom_marked, Nat.zero_add]

theorem markFields_marked (ids : IdSet) (className : String) (fields : List Field) :
    (markFields ids className fields).1 = fields.map (·.marked ids.contains className) := by
  induction fields with
  | nil => rfl
  | cons f rest ih => simp only [markFields, List.map_cons, markField_marked, ih]

theorem acknowledge_marked (ids : IdSet) (classes : List GeneratedClass) :
    (acknowledge ids classes).1 = classes.map (·.marked ids.contains) := by
  induction classes with
  | nil => rfl
  | cons c rest ih =>
      simp only [acknowledge, List.map_cons, markFields_marked, ih]
      rfl

end Acknowledgement

section Reading

namespace Match

def marked (picked : Nat → Bool) (m : Match) : Match :=
  ⟨m.ordinal, m.customization.marked (picked m.ordinal)⟩

end Match

theorem Extraction.extract_marked (policy : Policy) (f : Field) (c : Customization)
    (picked : CustomizationId → Bool) (className : String) (flag : Bool) :
    extract policy (f.marked picked className) (c.marked flag) = extract policy f c := by
  cases policy <;> rfl

namespace Field

theorem matchesFrom_marked (picked : Nat → Bool) (start : Nat)
    (customizations : List Customization) :
    matchesFrom start
        (customizations.mapIdx fun ordinal c => c.marked (picked (start + ordinal))) =
      (matchesFrom start customizations).map (·.marked picked) := by
  induction customizations generalizing start with
  | nil => rfl
  | cons c rest ih =>
      have later := ih (start + 1)
      simp only [Nat.add_assoc, Nat.add_comm 1] at later
      have named : (c.marked (picked start)).isNamed Marker.namespaceUri Marker.tag =
          c.isNamed Marker.namespaceUri Marker.tag := rfl
      simp only [List.mapIdx_cons, matchesFrom, Nat.add_zero, named, later]
      split <;> rfl

theorem markers_marked (picked : CustomizationId → Bool) (className : String) (f : Field) :
    (f.marked picked className).markers =
      f.markers.map (·.marked fun ordinal => picked ⟨className, f.name, ordinal⟩) := by
  have read := matchesFrom_marked (fun ordinal => picked ⟨className, f.name, ordinal⟩) 0
    f.customizations
  simp only [Nat.zero_add] at read
  exact read

theorem extracted_marked (policy : Policy) (picked : CustomizationId → Bool)
    (className : String) (f : Field) :
    (f.marked picked className).extracted? policy = f.extracted? policy := by
  simp only [extracted?, markers_marked, List.head?_map, Option.map_map, Function.comp_def,
    Match.marked, Extraction.extract_marked]

theorem marked_inject (picked : CustomizationId → Bool) (className : String) (f : Field)
    (literal : Literal) :
    (f.marked picked className).inject literal = (f.inject literal).marked picked className :=
  rfl

end Field

end Reading

section Runs

namespace Pass

variable {σ : Type} (picked : CustomizationId → Bool)

def Visit.marked (className : String) (v : Visit σ) : Visit σ :=
  { v with field := v.field.marked picked className }

def FieldsVisit.marked (className : String) (v : FieldsVisit σ) : FieldsVisit σ :=
  { v with fields := v.fields.map (·.marked picked className) }

def ClassesVisit.marked (v : ClassesVisit σ) : ClassesVisit σ :=
  { v with classes := v.classes.map (·.marked picked) }

def Run.marked (r : Run σ) : Run σ := { r with classes := r.classes.map (·.marked picked) }

theorem warnExtras_marked (channel : Sink σ) (flags : Nat → Bool) (extras : List Match)
    (r : Reporter σ) :
    warnExtras channel (extras.map (·.marked flags)) r = warnExtras channel extras r := by
  induction extras generalizing r with
  | nil => rfl
  | cons extra rest ih => exact ih (r.warn channel (extraWarning extra))

theorem reject_marked (channel : Sink σ) (className : String) (f : Field) (d : Diagnostic)
    (first marked : Customization) (ids : List CustomizationId) (r : Reporter σ) :
    reject channel className (f.marked picked className) ⟨marked, ids⟩ d r =
      (reject channel className f ⟨first, ids⟩ d r).marked picked className := by
  have noted : fieldEvent className (f.marked picked className) d.message =
      fieldEvent className f d.message := rfl
  simp only [reject, noted]
  rcases (r.note [fieldEvent className f d.message]).fatal channel d with ⟨_ | failure, after⟩ <;>
    rfl

theorem visitField_marked (channel : Sink σ) (policy : Policy) (className : String) (f : Field)
    (r : Reporter σ) :
    visitField channel policy className (f.marked picked className) r =
      (visitField channel policy className f r).marked picked className := by
  have read := f.markers_marked picked className
  cases found : f.markers with
  | nil =>
      rw [found, List.map_nil] at read
      simp only [visitField, resolve, found, read]
      rfl
  | cons first extras =>
      -- Marks change neither the places of the markers nor what is extracted from the first.
      let flags := fun ordinal => picked ⟨className, f.name, ordinal⟩
      rw [found, List.map_cons] at read
      have warned := warnExtras_marked channel flags extras r
      have extracted : Extraction.extract policy (f.marked picked className)
          (first.marked flags).customization =
            Extraction.extract policy f first.customization :=
        Extraction.extract_marked policy f first.customization picked className _
      have ids : (first.marked flags :: extras.map (·.marked flags)).map
          (fun m => (⟨className, f.name, m.ordinal⟩ : CustomizationId)) =
            (first :: extras).map (fun m => ⟨className, f.name, m.ordinal⟩) := by
        simp [Match.marked, Function.comp_def]
      have declared : (f.marked picked className).declaration = f.declaration := rfl
      have name : (f.marked picked className).name = f.name := rfl
      simp only [visitField, resolve, found, read, name, declared]
      rw [warned, ids, extracted]
      cases Extraction.extract policy f first.customization with
      | error d => exact reject_marked picked channel className f d _ _ _ _
      | ok literal =>
          cases f.declaration with
          | none => exact reject_marked picked channel className f _ _ _ _ _
          | some declaration => rfl

theorem visitFields_marked (channel : Sink σ) (policy : Policy) (className : String)
    (fields : List Field) (r : Reporter σ) :
    visitFields channel policy className (fields.map (·.marked picked className)) r =
      (visitFields channel policy className fields r).marked picked className := by
  induction fields generalizing r with
  | nil => rfl
  | cons f rest ih =>
      simp only [List.map_cons, visitFields, visitField_marked]
      cases answered : (visitField channel policy className f r).failure with
      | some failure => simp only [Visit.marked, answered, FieldsVisit.marked, List.map_cons]
      | none =>
          have later := ih (visitField channel policy className f r).reporter
          simp only [Visit.marked, answered, later]
          rfl

theorem visitClasses_marked (channel : Sink σ) (policy : Policy)
    (classes : List GeneratedClass) (r : Reporter σ) :
    visitClasses channel policy (classes.map (·.marked picked)) r =
      (visitClasses channel policy classes r).marked picked := by
  induction classes generalizing r with
  | nil => rfl
  | cons c rest ih =>
      have fields := visitFields_marked picked channel policy c.name c.fields r
      simp only [List.map_cons, visitClasses, GeneratedClass.marked, fields]
      cases answered : (visitFields channel policy c.name c.fields r).failure with
      | some failure => simp only [FieldsVisit.marked, answered]; rfl
      | none =>
          have later := ih (visitFields channel policy c.name c.fields r).reporter
          simp only [GeneratedClass.marked] at later
          simp only [FieldsVisit.marked, answered, later]
          rfl

/-- A run does not see the marks of a model, and leaves them where they are: result, sink and
journal are those of the run over the unmarked model. -/
theorem run_marked (channel : Sink σ) (options : PassOptions) (classes : List GeneratedClass)
    (sink : σ) :
    run channel options (classes.map (·.marked picked)) sink =
      (run channel options classes sink).marked picked := by
  have start : startEvent options.policy (classes.map (·.marked picked)) =
      startEvent options.policy classes := by
    simp [startEvent]
  simp only [run, runEnabled, start, visitClasses_marked]
  split
  · cases answered : (visitClasses channel options.policy classes
      ((Reporter.start sink).note [startEvent options.policy classes])).failure <;>
      simp only [ClassesVisit.marked, answered] <;> rfl
  · rfl

end Pass

end Runs

def Customization.isMarker (c : Customization) : Bool :=
  c.isNamed Marker.namespaceUri Marker.tag

section Inventory

def inventoryFrom (className fieldName : String) :
    Nat → List Customization → List (CustomizationId × Customization)
  | _, [] => []
  | ordinal, c :: rest =>
    (⟨className, fieldName, ordinal⟩, c) :: inventoryFrom className fieldName (ordinal + 1) rest

def Field.inventory (className : String) (f : Field) : List (CustomizationId × Customization) :=
  inventoryFrom className f.name 0 f.customizations

def GeneratedClass.inventory (c : GeneratedClass) : List (CustomizationId × Customization) :=
  c.fields.flatMap (·.inventory c.name)

def inventory (classes : List GeneratedClass) : List (CustomizationId × Customization) :=
  classes.flatMap GeneratedClass.inventory

theorem inventoryFrom_marked (picked : CustomizationId → Bool) (className fieldName : String)
    (start : Nat) (customizations : List Customization) :
    inventoryFrom className fieldName start (customizations.mapIdx fun ordinal c =>
        c.marked (picked ⟨className, fieldName, start + ordinal⟩)) =
      (inventoryFrom className fieldName start customizations).map
        fun entry => (entry.1, entry.2.marked (picked entry.1)) := by
  induction customizations generalizing start with
  | nil => rfl
  | cons c rest ih =>
      have later := ih (start + 1)
      simp only [Nat.add_assoc, Nat.add_comm 1] at later
      rw [List.mapIdx_cons, inventoryFrom, inventoryFrom, List.map_cons, later]
      rfl

theorem Field.inventory_marked (picked : CustomizationId → Bool) (className : String)
    (f : Field) :
    (f.marked picked className).inventory className =
      (f.inventory className).map fun entry => (entry.1, entry.2.marked (picked entry.1)) := by
  have marks := inventoryFrom_marked picked className f.name 0 f.customizations
  simp only [Nat.zero_add] at marks
  exact marks

theorem GeneratedClass.inventory_marked (picked : CustomizationId → Bool)
    (c : GeneratedClass) :
    (c.marked picked).inventory =
      c.inventory.map fun entry => (entry.1, entry.2.marked (picked entry.1)) := by
  simp only [inventory, marked, List.flatMap_map, List.map_flatMap, Field.inventory_marked]

theorem inventory_marked (picked : CustomizationId → Bool) (classes : List GeneratedClass) :
    inventory (classes.map (·.marked picked)) =
      (inventory classes).map fun entry => (entry.1, entry.2.marked (picked entry.1)) := by
  simp only [inventory, List.flatMap_map, List.map_flatMap, GeneratedClass.inventory_marked]

theorem inventory_bare (classes : List GeneratedClass) :
    inventory (classes.map GeneratedClass.bare) = inventory classes := by
  simp only [inventory, List.flatMap_map]
  congr
  funext c
  simp only [GeneratedClass.inventory, GeneratedClass.bare, List.flatMap_map]
  rfl

end Inventory

section Parts

theorem markers_inventoryFrom (className fieldName : String) (start : Nat)
    (customizations : List Customization) :
    (Field.matchesFrom start customizations).map
        (fun m => (⟨className, fieldName, m.ordinal⟩ : CustomizationId)) =
      ((inventoryFrom className fieldName start customizations).filter (·.2.isMarker)).map
        Prod.fst := by
  induction customizations generalizing start with
  | nil => rfl
  | cons c rest ih =>
      simp only [Field.matchesFrom, inventoryFrom, List.filter_cons, Customization.isMarker]
      split
      · rw [List.map_cons, List.map_cons, ih]
        rfl
      · exact ih (start + 1)

theorem markerIds_inventory (classes : List GeneratedClass) :
    classes.flatMap (·.markerIds) =
      ((inventory classes).filter (·.2.isMarker)).map Prod.fst := by
  have field (className : String) (f : Field) : f.markerIds className =
      ((f.inventory className).filter (·.2.isMarker)).map Prod.fst :=
    markers_inventoryFrom className f.name 0 f.customizations
  simp only [inventory, GeneratedClass.inventory, GeneratedClass.markerIds, field,
    List.filter_flatMap, List.map_flatMap]

theorem left_inventoryFrom (className fieldName : String) (start : Nat)
    (customizations : List Customization) :
    Acknowledgement.leftFrom className fieldName start customizations =
      (inventoryFrom className fieldName start customizations).filter fun entry =>
        !(entry.2.acknowledged || !Marker.namespaces.contains entry.2.namespaceUri) := by
  induction customizations generalizing start with
  | nil => rfl
  | cons c rest ih =>
      simp only [Acknowledgement.leftFrom, inventoryFrom, List.filter_cons, ih (start + 1)]
      cases c.acknowledged || !Marker.namespaces.contains c.namespaceUri <;> rfl

theorem unrecognized_inventory (classes : List GeneratedClass) :
    Acknowledgement.unrecognized classes = (inventory classes).filter fun entry =>
      !entry.2.acknowledged && decide (entry.2.namespaceUri = Marker.namespaceUri) := by
  have routed (uri : String) :
      Marker.namespaces.contains uri = decide (uri = Marker.namespaceUri) := by
    simp [Marker.namespaces]
  simp only [Acknowledgement.unrecognized, inventory, GeneratedClass.inventory, Field.inventory,
    left_inventoryFrom, List.filter_flatMap, Bool.not_or, Bool.not_not, routed]

end Parts

section Names

/-- The fields of a model, each with the name of its class. -/
def placedFields (classes : List GeneratedClass) : List (String × Field) :=
  classes.flatMap fun c => c.fields.map fun f => (c.name, f)

/-- No two fields of a model have the same name in classes of the same name. -/
def DistinctNames (classes : List GeneratedClass) : Prop :=
  ((placedFields classes).map fun p => (p.1, p.2.name)).Nodup

theorem inventory_placedFields (classes : List GeneratedClass) :
    inventory classes = (placedFields classes).flatMap fun p => p.2.inventory p.1 := by
  simp only [inventory, placedFields, List.flatMap_assoc, List.flatMap_map]
  rfl

theorem inventoryFrom_ids (className fieldName : String) (start : Nat)
    (customizations : List Customization) :
    (inventoryFrom className fieldName start customizations).map Prod.fst =
      (List.range' start customizations.length).map (⟨className, fieldName, ·⟩) := by
  induction customizations generalizing start with
  | nil => rfl
  | cons c rest ih =>
      rw [inventoryFrom, List.map_cons, ih, List.length_cons, List.range'_succ, List.map_cons]

theorem Field.inventory_ids (className : String) (f : Field) :
    (f.inventory className).map Prod.fst =
      (List.range' 0 f.customizations.length).map (⟨className, f.name, ·⟩) :=
  inventoryFrom_ids className f.name 0 f.customizations

theorem ids_nodup (classes : List GeneratedClass) (distinct : DistinctNames classes) :
    ((inventory classes).map Prod.fst).Nodup := by
  rw [inventory_placedFields, List.map_flatMap, List.nodup_flatMap]
  constructor
  · intro p _
    rw [Field.inventory_ids]
    have positions : (List.range' 0 p.2.customizations.length).Nodup := List.nodup_range'
    apply positions.map
    intro first second same
    injection same
  · -- An id keeps the names of its class and of its field.
    refine (List.pairwise_map.mp distinct).imp ?_
    intro p q names id inFirst inSecond
    simp only [Field.inventory_ids, List.mem_map] at inFirst inSecond
    obtain ⟨_, _, rfl⟩ := inFirst
    obtain ⟨_, _, same⟩ := inSecond
    injection same with className fieldName
    exact names (by rw [className, fieldName])

theorem entry_unique (classes : List GeneratedClass) (distinct : DistinctNames classes)
    (first second : CustomizationId × Customization) (here : first ∈ inventory classes)
    (there : second ∈ inventory classes) (same : first.1 = second.1) : first = second :=
  List.inj_on_of_nodup_map (ids_nodup classes distinct) here there same

end Names

end SchemaDefaults
