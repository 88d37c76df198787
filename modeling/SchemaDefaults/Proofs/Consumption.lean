import Mathlib.Data.List.Forall2
import SchemaDefaults.Proofs.DocumentText
import SchemaDefaults.Proofs.Marking
import SchemaDefaults.Proofs.RunResult
/-!
Consumption. A run reports the ids of all markers of its model, whatever becomes of their fields,
and the host marks what stands under these ids. So no marker is left over. An id says no more than
two names and a position, though: where fields share their names, the host also marks what stands
in the place of another field's marker.
-/

namespace SchemaDefaults

/-- By class, then by field, then by position. -/
def CustomizationId.Precedes (a b : CustomizationId) : Prop :=
  a.className < b.className ∨ a.className = b.className ∧
    (a.fieldName < b.fieldName ∨ a.fieldName = b.fieldName ∧ a.ordinal < b.ordinal)

theorem CustomizationId.precedes_of_compare (a b : CustomizationId)
    (before : compare a b = .lt) : a.Precedes b := by
  have names (first second : String) (equal : compare first second = .eq) : first = second :=
    Std.LawfulEqCmp.eq_of_compare equal
  have earlier (first second : String) (less : compare first second = .lt) : first < second :=
    compareOfLessAndEq_eq_lt.mp less
  rw [compare_eq, Ordering.then_eq_lt, Ordering.then_eq_lt] at before
  rcases before with className | ⟨className, fieldName | ⟨fieldName, ordinal⟩⟩
  · exact .inl (earlier _ _ className)
  · exact .inr ⟨names _ _ className, .inl (earlier _ _ fieldName)⟩
  · exact .inr ⟨names _ _ className, .inr ⟨names _ _ fieldName, Nat.compare_eq_lt.mp ordinal⟩⟩

theorem IdSet.mem_keys_ofList (ids : List CustomizationId) (id : CustomizationId) :
    id ∈ (IdSet.ofList ids).keys ↔ id ∈ ids := by
  rw [IdSet.ofList, SortedMap.mem_keys_ofList]
  simp

section Consumed

def namesMarker (classes : List GeneratedClass) (id : CustomizationId) : Bool :=
  (inventory classes).any fun entry => decide (entry.1 = id) && entry.2.isMarker

theorem namesMarker_iff (classes : List GeneratedClass) (id : CustomizationId) :
    namesMarker classes id = true ↔
      ∃ marker, (id, marker) ∈ inventory classes ∧ marker.isMarker = true := by
  simp only [namesMarker, List.any_eq_true, Bool.and_eq_true, decide_eq_true_eq]
  constructor
  · rintro ⟨⟨_, marker⟩, member, rfl, kind⟩
    exact ⟨marker, member, kind⟩
  · rintro ⟨marker, member, kind⟩
    exact ⟨(id, marker), member, rfl, kind⟩

theorem mem_markerIds_iff (classes : List GeneratedClass) (id : CustomizationId) :
    id ∈ classes.flatMap (·.markerIds) ↔
      ∃ marker, (id, marker) ∈ inventory classes ∧ marker.isMarker = true := by
  simp [markerIds_inventory]

variable {σ : Type} {channel : Sink σ} {policy : Policy} {classes : List GeneratedClass}
  {sink : σ} {report : Report}

theorem mem_acknowledged_iff
    (succeeded : (Pass.run channel ⟨true, policy⟩ classes sink).result = .ok report)
    (id : CustomizationId) :
    id ∈ report.acknowledged.keys ↔
      ∃ marker, (id, marker) ∈ inventory classes ∧ marker.isMarker = true := by
  obtain ⟨_, rfl⟩ := (Pass.run_ok_iff channel policy classes sink report).mp succeeded
  exact (IdSet.mem_keys_ofList _ id).trans (mem_markerIds_iff classes id)

theorem acknowledged_contains
    (succeeded : (Pass.run channel ⟨true, policy⟩ classes sink).result = .ok report) :
    report.acknowledged.contains = namesMarker classes := by
  funext id
  rw [Bool.eq_iff_iff, SortedMap.contains_iff, mem_acknowledged_iff succeeded, namesMarker_iff]

/-- Run and host together set the flags under the ids of markers and no others. -/
theorem inventory_consumed
    (succeeded : (Pass.run channel ⟨true, policy⟩ classes sink).result = .ok report) :
    inventory (Acknowledgement.acknowledge report.acknowledged
        (Pass.run channel ⟨true, policy⟩ classes sink).classes).1 =
      (inventory classes).map
        fun entry => (entry.1, entry.2.marked (namesMarker classes entry.1)) := by
  obtain ⟨passed, _⟩ := (Pass.run_ok_iff channel policy classes sink report).mp succeeded
  have bare : (classes.map (·.settled policy)).map GeneratedClass.bare =
      classes.map GeneratedClass.bare := by
    simp [GeneratedClass.bare_settled]
  rw [Acknowledgement.acknowledge_marked, inventory_marked, acknowledged_contains succeeded,
    (Pass.run_passed channel policy classes sink passed).1, ← inventory_bare, bare, inventory_bare]

end Consumed

section Leftovers

variable {before after : List GeneratedClass} {picked : CustomizationId → Bool}

theorem unrecognized_marked
    (marked : inventory after =
      (inventory before).map fun entry => (entry.1, entry.2.marked (picked entry.1))) :
    Acknowledgement.unrecognized after = (inventory before).filter fun entry =>
      !(entry.2.acknowledged || picked entry.1) &&
        decide (entry.2.namespaceUri = Marker.namespaceUri) := by
  rw [unrecognized_inventory, marked, List.filter_map]
  -- What is left has not been picked, so it is what it was before.
  have same (entry : CustomizationId × Customization)
      (left : entry ∈ (inventory before).filter fun entry =>
        !(entry.2.acknowledged || picked entry.1) &&
          decide (entry.2.namespaceUri = Marker.namespaceUri)) :
      (entry.1, entry.2.marked (picked entry.1)) = id entry := by
    have kept := (List.mem_filter.mp left).2
    simp only [Bool.and_eq_true, Bool.not_eq_true', Bool.or_eq_false_iff] at kept
    simp [Customization.marked, kept.1.2]
  exact (List.map_congr_left same).trans (List.map_id _)

end Leftovers

section Markers

variable {σ : Type}

/-- A successful run reports exactly the ids of the markers of its model, in ascending order, be
their fields injected or rejected and be they surplus or acknowledged before. When the host has
marked what stands under them, every marker is acknowledged, and none is left over. -/
theorem markers_consumed (channel : Sink σ) (policy : Policy) (classes : List GeneratedClass)
    (sink : σ) (report : Report)
    (succeeded : (Pass.run channel ⟨true, policy⟩ classes sink).result = .ok report) :
    let ids := report.acknowledged.keys
    let left := (Acknowledgement.acknowledge report.acknowledged
      (Pass.run channel ⟨true, policy⟩ classes sink).classes).1
    (∀ id, id ∈ ids ↔ ∃ marker, (id, marker) ∈ inventory classes ∧
        marker.isNamed Marker.namespaceUri Marker.tag = true) ∧
      ids.Pairwise CustomizationId.Precedes ∧
      (∃ earlier later, report.toJson = .object
        (earlier ++ ("acknowledged", .array (ids.map CustomizationId.toJson)) :: later)) ∧
      inventory left = (inventory classes).map (fun entry =>
        (entry.1, { entry.2 with
          acknowledged := entry.2.acknowledged || decide (entry.1 ∈ ids) })) ∧
      (∀ entry ∈ inventory left, entry.2.isNamed Marker.namespaceUri Marker.tag = true →
        entry.2.acknowledged = true) ∧
      ∀ entry ∈ Acknowledgement.unrecognized left, entry.2.tag ≠ Marker.tag := by
  have named := mem_acknowledged_iff succeeded
  have marked := inventory_consumed succeeded
  have flag (id : CustomizationId) :
      namesMarker classes id = decide (id ∈ report.acknowledged.keys) := by
    rw [Bool.eq_iff_iff, namesMarker_iff, decide_eq_true_eq, named]
  have consumed : ∀ entry ∈ inventory (Acknowledgement.acknowledge report.acknowledged
      (Pass.run channel ⟨true, policy⟩ classes sink).classes).1,
      entry.2.isMarker = true → entry.2.acknowledged = true := by
    intro entry member kind
    rw [marked] at member
    obtain ⟨⟨id, marker⟩, inside, rfl⟩ := List.mem_map.mp member
    have found := (namesMarker_iff classes id).mpr ⟨marker, inside, kind⟩
    simp [Customization.marked, found]
  refine ⟨named, ?_, ?_, ?_, consumed, ?_⟩
  · exact report.acknowledged.keys_ascending.imp fun before =>
      CustomizationId.precedes_of_compare _ _ before
  · exact ⟨[_, _, _, _], [_, _], rfl⟩
  · rw [marked]
    simp only [flag, Customization.marked]
  · intro entry leftover kind
    rw [unrecognized_inventory] at leftover
    obtain ⟨member, open'⟩ := List.mem_filter.mp leftover
    simp only [Bool.and_eq_true, Bool.not_eq_true', decide_eq_true_eq] at open'
    -- A leftover with the marker's tag would be a marker without a flag.
    have marker : entry.2.isMarker = true := by
      simp [Customization.isMarker, Customization.isNamed, open'.2, kind]
    rw [consumed entry member marker] at open'
    exact absurd open'.1 (by decide)

theorem sample_markers_consumed :
    (Pass.run Pass.deafToWarnings ⟨true, .schemaDefault⟩ [Pass.sampleClass] ⟨0, 0⟩).result =
        .ok Pass.sampleReport ∧
      Pass.sampleReport.acknowledged.keys =
        [⟨"Host", "hostname", 0⟩, ⟨"Host", "retries", 0⟩, ⟨"Host", "retries", 1⟩] ∧
      Pass.sampleReport.acknowledged.keys.Pairwise CustomizationId.Precedes ∧
      ∀ entry ∈ inventory (Acknowledgement.acknowledge Pass.sampleReport.acknowledged
          (Pass.run Pass.deafToWarnings ⟨true, .schemaDefault⟩ [Pass.sampleClass]
            ⟨0, 0⟩).classes).1,
        entry.2.isNamed Marker.namespaceUri Marker.tag = true → entry.2.acknowledged = true := by
  obtain ⟨_, ascending, _, _, consumed, _⟩ := markers_consumed Pass.deafToWarnings .schemaDefault
    [Pass.sampleClass] ⟨0, 0⟩ Pass.sampleReport Pass.sample_succeeded
  exact ⟨Pass.sample_succeeded, by decide, ascending, consumed⟩

end Markers

section Namesakes

/-- No flags are set but those of markers. -/
def OnlyMarkersMarked (before after : List GeneratedClass) : Prop :=
  List.Forall₂ (fun old new => new.1 = old.1 ∧
      (new.2.acknowledged = true → old.2.acknowledged = true ∨ old.2.isMarker = true))
    (inventory before) (inventory after)

/-- Under the id of a marker stand only markers, and what is acknowledged already. -/
def MarkersApart (classes : List GeneratedClass) : Prop :=
  ∀ entry ∈ inventory classes, namesMarker classes entry.1 = true →
    entry.2.isMarker = true ∨ entry.2.acknowledged = true

theorem markersApart_of_distinct (classes : List GeneratedClass)
    (distinct : DistinctNames classes) : MarkersApart classes := by
  intro entry member named
  obtain ⟨marker, inside, kind⟩ := (namesMarker_iff classes entry.1).mp named
  have same := entry_unique classes distinct entry (entry.1, marker) member inside rfl
  rw [same]
  exact .inl kind

/-- After a run and the host's marks a customization is acknowledged if it has been so before or
if a marker stands under its id, and what is left over are the others of the marker's namespace.
That only markers have been marked holds exactly if they stand apart, as they do where no two
fields share their names; then all that is left over are the customizations with another tag. -/
theorem marks_follow_ids {σ : Type} (channel : Sink σ) (policy : Policy)
    (classes : List GeneratedClass) (sink : σ) (report : Report)
    (succeeded : (Pass.run channel ⟨true, policy⟩ classes sink).result = .ok report) :
    let left := (Acknowledgement.acknowledge report.acknowledged
      (Pass.run channel ⟨true, policy⟩ classes sink).classes).1
    inventory left = (inventory classes).map (fun entry =>
        (entry.1, { entry.2 with
          acknowledged := entry.2.acknowledged || namesMarker classes entry.1 })) ∧
      Acknowledgement.unrecognized left = (inventory classes).filter (fun entry =>
        !(entry.2.acknowledged || namesMarker classes entry.1) &&
          decide (entry.2.namespaceUri = Marker.namespaceUri)) ∧
      (OnlyMarkersMarked classes left ↔ MarkersApart classes) ∧
      (MarkersApart classes →
        Acknowledgement.unrecognized left = (inventory classes).filter (fun entry =>
          decide (entry.2.namespaceUri = Marker.namespaceUri) &&
            decide (entry.2.tag ≠ Marker.tag) && !entry.2.acknowledged)) ∧
      (DistinctNames classes → MarkersApart classes) := by
  have marked := inventory_consumed succeeded
  have leftovers := unrecognized_marked marked
  refine ⟨marked, leftovers, ?_, ?_, markersApart_of_distinct classes⟩
  · rw [OnlyMarkersMarked, marked, List.forall₂_map_right_iff, List.forall₂_same, MarkersApart]
    apply forall₂_congr
    intro entry _
    cases namesMarker classes entry.1 <;> simp +contextual [Customization.marked, or_comm]
  · intro apart
    rw [leftovers]
    apply List.filter_congr
    intro entry member
    have kind : entry.2.isMarker = true ↔
        entry.2.namespaceUri = Marker.namespaceUri ∧ entry.2.tag = Marker.tag := by
      simp [Customization.isMarker, Customization.isNamed]
    have own : entry.2.isMarker = true → namesMarker classes entry.1 = true :=
      fun marker => (namesMarker_iff classes entry.1).mpr ⟨entry.2, member, marker⟩
    have others := apart entry member
    rw [kind] at own others
    rw [Bool.eq_iff_iff]
    simp only [Bool.and_eq_true, Bool.not_eq_true', Bool.or_eq_false_iff, decide_eq_true_eq]
    grind

def misspelled : Customization :=
  ⟨Marker.namespaceUri, "attr-init", SortedMap.empty, none, false⟩

def misspelledBeside (name : String) : List GeneratedClass :=
  [⟨"Host", none,
    [⟨"port", .attribute (some "110"), [{ misspelled with tag := Marker.tag }], none,
        some ⟨.integer .int, none⟩⟩,
      ⟨name, .attribute (some "143"), [misspelled], none, some ⟨.integer .int, none⟩⟩]⟩]

def portReport : Report :=
  { enabled := true
    classesVisited := 1
    fieldsVisited := 2
    fields := [⟨"Host", "port", .injected (.integer .int "110")⟩]
    acknowledged := IdSet.ofList [⟨"Host", "port", 0⟩]
    warnings := 0
    fatals := 0 }

theorem port_succeeded (name : String) :
    (Pass.run Sink.collecting ⟨true, .schemaDefault⟩ (misspelledBeside name) []).result =
      .ok portReport := by
  rfl

/-- A field of another name keeps its misspelled tag apart from the marker. -/
theorem sample_marks_follow_ids :
    let left := (Acknowledgement.acknowledge portReport.acknowledged
      (Pass.run Sink.collecting ⟨true, .schemaDefault⟩ (misspelledBeside "ssl") []).classes).1
    (Pass.run Sink.collecting ⟨true, .schemaDefault⟩ (misspelledBeside "ssl") []).result =
        .ok portReport ∧
      DistinctNames (misspelledBeside "ssl") ∧
      OnlyMarkersMarked (misspelledBeside "ssl") left ∧
      Acknowledgement.unrecognized left = [(⟨"Host", "ssl", 0⟩, misspelled)] := by
  obtain ⟨_, _, exactly, others, apart⟩ := marks_follow_ids Sink.collecting .schemaDefault
    (misspelledBeside "ssl") [] portReport (port_succeeded "ssl")
  have distinct : DistinctNames (misspelledBeside "ssl") := by
    unfold DistinctNames
    decide
  exact ⟨port_succeeded "ssl", distinct, exactly.mpr (apart distinct), others (apart distinct)⟩

/-- Two fields of one name, in a document that can be read. The host marks the misspelled tag of
the second one along with the marker of the first, and it is never found to be left over. -/
theorem namesake_marked :
    let left := (Acknowledgement.acknowledge portReport.acknowledged
      (Pass.run Sink.collecting ⟨true, .schemaDefault⟩ (misspelledBeside "port") []).classes).1
    Document.ofText ((⟨misspelledBeside "port"⟩ : Document).fileText false) =
        .ok ⟨misspelledBeside "port"⟩ ∧
      (Pass.run Sink.collecting ⟨true, .schemaDefault⟩ (misspelledBeside "port") []).result =
        .ok portReport ∧
      ¬ OnlyMarkersMarked (misspelledBeside "port") left ∧
      Acknowledgement.unrecognized left = [] ∧
      (inventory (misspelledBeside "port")).filter (fun entry =>
          decide (entry.2.namespaceUri = Marker.namespaceUri) &&
            decide (entry.2.tag ≠ Marker.tag) && !entry.2.acknowledged) =
        [(⟨"Host", "port", 0⟩, misspelled)] := by
  refine ⟨Document.ofText_fileText false _, port_succeeded "port", ?_, rfl, by decide⟩
  intro marked
  cases marked with
  | cons _ rest =>
      cases rest with
      | cons second _ =>
          rcases second.2 rfl with before | kind
          · exact absurd before (by decide)
          · exact absurd kind (by decide)

end Namesakes

end SchemaDefaults
