import SchemaDefaults.Proofs.Consumption
/-!
Counts of marks. A call that acknowledges customizations returns how many flags it has set. Calls
that follow one another set each flag at most once, so that their counts add up, whatever their
order, to the count of a single call with all of their ids.
-/

namespace SchemaDefaults

namespace Acknowledgement

section Calls

/-- Named by the call, and not acknowledged yet. -/
def newlyNamed (picked : CustomizationId → Bool) (entry : CustomizationId × Customization) :
    Bool :=
  picked entry.1 && !entry.2.acknowledged

theorem markFrom_count (ids : IdSet) (className fieldName : String) (start : Nat)
    (customizations : List Customization) :
    (markFrom ids className fieldName start customizations).2 =
      (inventoryFrom className fieldName start customizations).countP
        (newlyNamed ids.contains) := by
  induction customizations generalizing start with
  | nil => rfl
  | cons c rest ih =>
      let later := markFrom ids className fieldName (start + 1) rest
      by_cases named : newlyNamed ids.contains (⟨className, fieldName, start⟩, c) = true
      · have marked : markFrom ids className fieldName start (c :: rest) =
            ({ c with acknowledged := true } :: later.1, later.2 + 1) := if_pos named
        rw [marked, inventoryFrom, List.countP_cons_of_pos named, ← ih (start + 1)]
      · have kept : markFrom ids className fieldName start (c :: rest) =
            (c :: later.1, later.2) := if_neg named
        rw [kept, inventoryFrom, List.countP_cons_of_neg named, ← ih (start + 1)]

theorem markFields_count (ids : IdSet) (className : String) (fields : List Field) :
    (markFields ids className fields).2 =
      (fields.flatMap (·.inventory className)).countP (newlyNamed ids.contains) := by
  induction fields with
  | nil => rfl
  | cons f rest ih =>
      rw [List.flatMap_cons, List.countP_append, ← ih]
      exact congrArg (· + _) (markFrom_count ids className f.name 0 f.customizations)

theorem acknowledge_count (ids : IdSet) (classes : List GeneratedClass) :
    (acknowledge ids classes).2 = (inventory classes).countP (newlyNamed ids.contains) := by
  induction classes with
  | nil => rfl
  | cons c rest ih =>
      rw [inventory, List.flatMap_cons, List.countP_append, ← inventory, ← ih]
      exact congrArg (· + _) (markFields_count ids c.name c.fields)

/-- The customizations whose flag is set in the second model and not in the first, place by
place. -/
def flagsSet (before after : List GeneratedClass) : Nat :=
  ((inventory before).zip (inventory after)).countP fun places =>
    !places.1.2.acknowledged && places.2.2.acknowledged

theorem flagsSet_marked (picked : CustomizationId → Bool) (classes : List GeneratedClass) :
    flagsSet classes (classes.map (·.marked picked)) =
      (inventory classes).countP (newlyNamed picked) := by
  rw [flagsSet, inventory_marked, ← List.map_prod_left_eq_zip, List.countP_map]
  apply List.countP_congr
  intro entry _
  cases picked entry.1 <;> cases flag : entry.2.acknowledged <;>
    simp [newlyNamed, Customization.marked, flag]

theorem acknowledge_flagsSet (ids : IdSet) (classes : List GeneratedClass) :
    (acknowledge ids classes).2 = flagsSet classes (acknowledge ids classes).1 := by
  rw [acknowledge_count, acknowledge_marked, flagsSet_marked]

end Calls

section Sequences

/-- The model behind all calls, and the count that each of them has returned. -/
def acknowledgeAll : List IdSet → List GeneratedClass → List GeneratedClass × List Nat
  | [], classes => (classes, [])
  | ids :: rest, classes =>
    let (marked, count) := acknowledge ids classes
    let (final, counts) := acknowledgeAll rest marked
    (final, count :: counts)

def anyNames (calls : List IdSet) (id : CustomizationId) : Bool := calls.any (·.contains id)

theorem anyNames_nil : anyNames [] = fun _ => false := rfl

theorem acknowledgeAll_append (first second : List IdSet) (classes : List GeneratedClass) :
    acknowledgeAll (first ++ second) classes =
      ((acknowledgeAll second (acknowledgeAll first classes).1).1,
        (acknowledgeAll first classes).2 ++
          (acknowledgeAll second (acknowledgeAll first classes).1).2) := by
  induction first generalizing classes with
  | nil => rfl
  | cons ids rest ih =>
      simp only [List.cons_append, acknowledgeAll, ih (acknowledge ids classes).1]

theorem acknowledgeAll_length (calls : List IdSet) (classes : List GeneratedClass) :
    (acknowledgeAll calls classes).2.length = calls.length := by
  induction calls generalizing classes with
  | nil => rfl
  | cons ids rest ih => exact congrArg (· + 1) (ih (acknowledge ids classes).1)

theorem acknowledgeAll_count (earlier later : List IdSet) (ids : IdSet)
    (classes : List GeneratedClass) :
    (acknowledgeAll (earlier ++ ids :: later) classes).2[earlier.length]? =
      some (acknowledge ids (acknowledgeAll earlier classes).1).2 := by
  have front := acknowledgeAll_length earlier classes
  rw [acknowledgeAll_append, List.getElem?_append_right (by omega), front, Nat.sub_self]
  rfl

theorem acknowledgeAll_marked (calls : List IdSet) (classes : List GeneratedClass) :
    (acknowledgeAll calls classes).1 = classes.map (·.marked (anyNames calls)) := by
  induction calls generalizing classes with
  | nil => simp [acknowledgeAll, anyNames_nil, GeneratedClass.marked_nothing]
  | cons ids rest ih =>
      simp only [acknowledgeAll, ih, acknowledge_marked, List.map_map, Function.comp_def,
        GeneratedClass.marked_marked]
      rfl

theorem acknowledgeAll_perm {calls others : List IdSet} (order : others.Perm calls)
    (classes : List GeneratedClass) :
    (acknowledgeAll others classes).1 = (acknowledgeAll calls classes).1 := by
  have same : anyNames others = anyNames calls := by
    funext id
    exact order.any_eq
  rw [acknowledgeAll_marked, acknowledgeAll_marked, same]

/-- What the first call leaves to the second is what the first has not named. -/
theorem count_remaining (first second : CustomizationId → Bool)
    (entries : List (CustomizationId × Customization)) :
    entries.countP (newlyNamed first) +
        (entries.map fun entry => (entry.1, entry.2.marked (first entry.1))).countP
          (newlyNamed second) =
      entries.countP (newlyNamed fun id => first id || second id) := by
  induction entries with
  | nil => rfl
  | cons entry rest ih =>
      rw [List.map_cons, List.countP_cons, List.countP_cons, List.countP_cons, ← ih]
      cases named : first entry.1 <;> cases flag : entry.2.acknowledged <;>
        simp [newlyNamed, Customization.marked, named, flag] <;> omega

theorem acknowledgeAll_sum (calls : List IdSet) (classes : List GeneratedClass) :
    (acknowledgeAll calls classes).2.sum =
      (inventory classes).countP (newlyNamed (anyNames calls)) := by
  induction calls generalizing classes with
  | nil =>
      have nothing : newlyNamed (anyNames []) = fun _ => false := rfl
      rw [nothing, List.countP_false]
      rfl
  | cons ids rest ih =>
      -- The calls behind the first one count on a model that the first one has marked.
      simp only [acknowledgeAll, List.sum_cons, ih, acknowledge_count, acknowledge_marked,
        inventory_marked, count_remaining]
      rfl

theorem acknowledge_again (ids : IdSet) (picked : CustomizationId → Bool)
    (classes : List GeneratedClass)
    (before : ∀ id, ids.contains id = true → picked id = true) :
    acknowledge ids (classes.map (·.marked picked)) = (classes.map (·.marked picked), 0) := by
  have same : (fun id => picked id || ids.contains id) = picked := by
    funext id
    cases named : ids.contains id with
    | false => exact Bool.or_false _
    | true => rw [before id named, Bool.or_true]
  apply Prod.ext
  · simp only [acknowledge_marked, List.map_map, Function.comp_def,
      GeneratedClass.marked_marked, same]
  · -- What the call names is marked, so that nothing is left to count.
    rw [acknowledge_count, inventory_marked, List.countP_map, List.countP_eq_zero]
    intro entry _
    cases named : ids.contains entry.1 with
    | false => simp [newlyNamed, named]
    | true => simp [newlyNamed, Customization.marked, before _ named]

end Sequences

end Acknowledgement

def IdSet.union (calls : List IdSet) : IdSet := IdSet.ofList (calls.flatMap SortedMap.keys)

theorem IdSet.contains_union (calls : List IdSet) :
    (IdSet.union calls).contains = Acknowledgement.anyNames calls := by
  funext id
  rw [Bool.eq_iff_iff, SortedMap.contains_iff, IdSet.union, IdSet.mem_keys_ofList]
  simp [Acknowledgement.anyNames, SortedMap.contains_iff]

/-- Each call returns the number of flags that it has set, and none where all of its ids have
been in calls before, which then leaves the model as it is. The counts add up to that of one call
with all ids. In the end the flags are set that were set before or are named by a call, in
whatever order the calls are made, and nothing else has changed. -/
theorem acknowledgements_counted (calls : List IdSet) (classes : List GeneratedClass) :
    let done := Acknowledgement.acknowledgeAll calls classes
    (∀ earlier ids later, calls = earlier ++ ids :: later →
      let before := (Acknowledgement.acknowledgeAll earlier classes).1
      let call := Acknowledgement.acknowledge ids before
      done.2[earlier.length]? = some call.2 ∧
        call.2 = Acknowledgement.flagsSet before call.1 ∧
        ((∀ id, ids.contains id = true → ∃ other ∈ earlier, other.contains id = true) →
          call = (before, 0))) ∧
      done.2.length = calls.length ∧
      done.2.sum = (Acknowledgement.acknowledge (IdSet.union calls) classes).2 ∧
      (∀ others, others.Perm calls →
        (Acknowledgement.acknowledgeAll others classes).1 = done.1) ∧
      done.1 = classes.map fun c => { c with
        fields := c.fields.map fun f => { f with
          customizations := f.customizations.mapIdx fun ordinal customization =>
            { customization with
              acknowledged := customization.acknowledged ||
                calls.any (·.contains ⟨c.name, f.name, ordinal⟩) } } } := by
  refine ⟨?_, Acknowledgement.acknowledgeAll_length calls classes, ?_, ?_,
    Acknowledgement.acknowledgeAll_marked calls classes⟩
  · intro earlier ids later split before call
    refine ⟨?_, Acknowledgement.acknowledge_flagsSet ids before, ?_⟩
    · rw [split]
      exact Acknowledgement.acknowledgeAll_count earlier later ids classes
    · intro named
      have marked := Acknowledgement.acknowledgeAll_marked earlier classes
      simp only [call, before, marked]
      apply Acknowledgement.acknowledge_again
      intro id inside
      obtain ⟨other, member, contains⟩ := named id inside
      exact List.any_eq_true.mpr ⟨other, member, contains⟩
  · rw [Acknowledgement.acknowledgeAll_sum, Acknowledgement.acknowledge_count,
      IdSet.contains_union]
  · intro others order
    exact Acknowledgement.acknowledgeAll_perm order classes

/-- One id that stands for two customizations and one that stands for none, and then the first of
them again. -/
def sampleCalls : List IdSet :=
  [IdSet.ofList [⟨"Host", "port", 0⟩, ⟨"Nowhere", "port", 3⟩], IdSet.ofList [⟨"Host", "port", 0⟩]]

theorem sample_acknowledgements :
    let first := Acknowledgement.acknowledgeAll (sampleCalls.take 1) (misspelledBeside "port")
    first.2 = [2] ∧
      (Acknowledgement.acknowledgeAll sampleCalls (misspelledBeside "port")).2 = [2, 0] ∧
      (Acknowledgement.acknowledge (IdSet.union sampleCalls) (misspelledBeside "port")).2 = 2 ∧
      Acknowledgement.acknowledge (IdSet.ofList [⟨"Host", "port", 0⟩]) first.1 =
        (first.1, 0) := by
  obtain ⟨each, _, sum, _⟩ := acknowledgements_counted sampleCalls (misspelledBeside "port")
  obtain ⟨_, _, again⟩ := each (sampleCalls.take 1) (IdSet.ofList [⟨"Host", "port", 0⟩]) [] rfl
  refine ⟨by decide, by decide, sum.symm.trans (by decide), again ?_⟩
  intro id named
  have same : id = ⟨"Host", "port", 0⟩ := by
    simpa using (IdSet.mem_keys_ofList _ id).mp ((SortedMap.contains_iff _ id).mp named)
  rw [same]
  exact ⟨_, List.mem_cons_self, by decide⟩

end SchemaDefaults
