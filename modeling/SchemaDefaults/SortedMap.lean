/-!
Finite maps kept as lists in strictly ascending key order, so that a map has one representation
and two maps with the same entries are equal. Inserting replaces the value of a key that is there
already. A map is known by what it holds for each key, and made from a list it holds the last
value of each key, so only the order of entries of one key matters.
-/

namespace SchemaDefaults

structure SortedMap (κ ν : Type) [Ord κ] where
  entries : List (κ × ν)
  ascending : entries.Pairwise fun a b => compare a.1 b.1 = .lt
deriving DecidableEq, Repr

namespace SortedMap

variable {κ ν : Type} [Ord κ]

def insertEntry (key : κ) (value : ν) : List (κ × ν) → List (κ × ν)
  | [] => [(key, value)]
  | entry :: rest =>
    match compare key entry.1 with
    | .lt => (key, value) :: entry :: rest
    | .eq => (key, value) :: rest
    | .gt => entry :: insertEntry key value rest

theorem mem_insertEntry (key : κ) (value : ν) (entries : List (κ × ν)) (entry : κ × ν)
    (member : entry ∈ insertEntry key value entries) :
    entry = (key, value) ∨ entry ∈ entries := by
  induction entries with
  | nil => simpa [insertEntry] using member
  | cons first rest ih =>
    rw [insertEntry] at member
    split at member <;> grind

theorem insertEntry_ascending [Std.TransOrd κ] (key : κ) (value : ν)
    (entries : List (κ × ν))
    (ascending : entries.Pairwise fun a b => compare a.1 b.1 = .lt) :
    (insertEntry key value entries).Pairwise fun a b => compare a.1 b.1 = .lt := by
  induction entries with
  | nil => simp [insertEntry]
  | cons first rest ih =>
    obtain ⟨head, tail⟩ := List.pairwise_cons.mp ascending
    rw [insertEntry]
    split
    · rename_i before
      refine List.pairwise_cons.mpr ⟨?_, ascending⟩
      intro entry member
      rcases List.mem_cons.mp member with rfl | later
      · exact before
      · exact Std.TransCmp.lt_trans before (head entry later)
    · rename_i same
      refine List.pairwise_cons.mpr ⟨?_, tail⟩
      intro entry later
      exact Std.TransCmp.lt_of_eq_of_lt same (head entry later)
    · rename_i after
      refine List.pairwise_cons.mpr ⟨?_, ih tail⟩
      intro entry member
      rcases mem_insertEntry key value rest entry member with rfl | later
      · exact Std.OrientedCmp.gt_iff_lt.mp after
      · exact head entry later

def empty : SortedMap κ ν := ⟨[], List.Pairwise.nil⟩

instance : Inhabited (SortedMap κ ν) := ⟨empty⟩

variable [Std.TransOrd κ]

def insert (map : SortedMap κ ν) (key : κ) (value : ν) : SortedMap κ ν :=
  ⟨insertEntry key value map.entries, insertEntry_ascending key value _ map.ascending⟩

/-- Entries of a list, a later one replacing an earlier one of the same key. -/
def ofList (entries : List (κ × ν)) : SortedMap κ ν :=
  entries.foldl (fun map entry => map.insert entry.1 entry.2) empty

theorem insertEntry_last (key : κ) (value : ν) (entries : List (κ × ν))
    (last : ∀ entry ∈ entries, compare entry.1 key = .lt) :
    insertEntry key value entries = entries ++ [(key, value)] := by
  induction entries with
  | nil => rfl
  | cons first rest ih =>
    have after : compare key first.1 = .gt :=
      Std.OrientedCmp.gt_iff_lt.mpr (last first List.mem_cons_self)
    have later := ih fun entry inside => last entry (List.mem_cons_of_mem first inside)
    simp only [insertEntry, after, later, List.cons_append]

theorem foldl_insert_entries (entries : List (κ × ν)) (map : SortedMap κ ν)
    (ascending : (map.entries ++ entries).Pairwise fun a b => compare a.1 b.1 = .lt) :
    (entries.foldl (fun map entry => map.insert entry.1 entry.2) map).entries =
      map.entries ++ entries := by
  induction entries generalizing map with
  | nil => simp
  | cons entry rest ih =>
    have before := (List.pairwise_append.mp ascending).2.2
    have inserted : (map.insert entry.1 entry.2).entries = map.entries ++ [entry] :=
      insertEntry_last entry.1 entry.2 map.entries fun other inside =>
        before other inside entry List.mem_cons_self
    have extended := ih (map.insert entry.1 entry.2)
    rw [inserted, List.append_assoc] at extended
    exact extended ascending

omit [Std.TransOrd κ] in
theorem ext_entries {first second : SortedMap κ ν} (same : first.entries = second.entries) :
    first = second := by
  cases first
  cases second
  cases same
  rfl

theorem ofList_entries (map : SortedMap κ ν) : ofList map.entries = map :=
  ext_entries (foldl_insert_entries map.entries empty map.ascending)

omit [Std.TransOrd κ] in
def keys (map : SortedMap κ ν) : List κ := map.entries.map Prod.fst

omit [Std.TransOrd κ] in
def get? [DecidableEq κ] (map : SortedMap κ ν) (key : κ) : Option ν :=
  (map.entries.find? (·.1 = key)).map Prod.snd

omit [Std.TransOrd κ] in
def isEmpty (map : SortedMap κ ν) : Bool := map.entries.isEmpty

omit [Std.TransOrd κ] in
def contains [DecidableEq κ] (map : SortedMap κ ν) (key : κ) : Bool :=
  map.entries.any (·.1 = key)

section Keys

omit [Std.TransOrd κ] in
theorem keys_ascending (map : SortedMap κ ν) :
    map.keys.Pairwise fun a b => compare a b = .lt :=
  List.pairwise_map.mpr map.ascending

omit [Std.TransOrd κ] in
theorem contains_iff [DecidableEq κ] (map : SortedMap κ ν) (key : κ) :
    map.contains key = true ↔ key ∈ map.keys := by
  simp [contains, keys]

omit [Std.TransOrd κ] in
theorem mem_keys_insertEntry [Std.LawfulEqOrd κ] (key : κ) (value : ν)
    (entries : List (κ × ν)) (other : κ) :
    other ∈ (insertEntry key value entries).map Prod.fst ↔
      other = key ∨ other ∈ entries.map Prod.fst := by
  induction entries with
  | nil => simp [insertEntry]
  | cons first rest ih =>
    rw [insertEntry]
    split
    · simp
    · -- The entry is replaced by one of the same key.
      rename_i same
      have replaced : key = first.1 := Std.LawfulEqCmp.eq_of_compare same
      simp [replaced]
    · rw [List.map_cons, List.mem_cons, List.map_cons, List.mem_cons, ih]
      exact or_left_comm

theorem mem_keys_ofList [Std.LawfulEqOrd κ] (entries : List (κ × ν)) (key : κ) :
    key ∈ (ofList entries).keys ↔ key ∈ entries.map Prod.fst := by
  have inserted (map : SortedMap κ ν) :
      key ∈ (entries.foldl (fun map entry => map.insert entry.1 entry.2) map).keys ↔
        key ∈ entries.map Prod.fst ∨ key ∈ map.keys := by
    induction entries generalizing map with
    | nil => simp
    | cons entry rest ih =>
      have first : key ∈ (map.insert entry.1 entry.2).keys ↔ key = entry.1 ∨ key ∈ map.keys :=
        mem_keys_insertEntry entry.1 entry.2 map.entries key
      rw [List.foldl_cons, ih, first, List.map_cons, List.mem_cons, or_left_comm, or_assoc]
  exact (inserted empty).trans (or_iff_left List.not_mem_nil)

end Keys

end SortedMap

namespace SortedMap

variable {κ ν : Type} [Ord κ] [DecidableEq κ] [Std.TransOrd κ]

section Held

omit [DecidableEq κ] in
theorem compare_self (key : κ) : compare key key = .eq := Std.ReflCmp.compare_self

/-- An ascending list has one entry for a key at most. -/
theorem get?_iff (map : SortedMap κ ν) (key : κ) (value : ν) :
    map.get? key = some value ↔ (key, value) ∈ map.entries := by
  obtain ⟨entries, ascending⟩ := map
  simp only [get?]
  induction entries with
  | nil => simp
  | cons entry rest ih =>
      obtain ⟨first, later⟩ := List.pairwise_cons.mp ascending
      by_cases same : entry.1 = key
      · subst same
        have fresh : (entry.1, value) ∉ rest := by
          intro inside
          have order := first _ inside
          rw [compare_self] at order
          cases order
        simp [fresh, Prod.ext_iff, eq_comm]
      · have differs : (key, value) ≠ entry := fun equal => same (by rw [← equal])
        simpa [same, differs] using ih later

theorem ext_get? (first second : SortedMap κ ν)
    (same : ∀ key, first.get? key = second.get? key) : first = second := by
  apply ext_entries
  have members (entry : κ × ν) : entry ∈ first.entries ↔ entry ∈ second.entries := by
    rw [← get?_iff first, ← get?_iff second, same]
  have distinct (map : SortedMap κ ν) : map.entries.Nodup := by
    apply map.ascending.imp
    intro a b order equal
    rw [equal, compare_self] at order
    cases order
  have moved := (List.perm_ext_iff_of_nodup (distinct first) (distinct second)).mpr members
  apply moved.eq_of_pairwise _ first.ascending second.ascending
  intro a b _ _ before behind
  rw [Std.OrientedCmp.gt_iff_lt.mpr behind] at before
  cases before

end Held

section Lists

variable [Std.LawfulEqOrd κ]

theorem find?_insertEntry (key other : κ) (value : ν) (entries : List (κ × ν)) :
    (insertEntry key value entries).find? (·.1 = other) =
      if key = other then some (key, value) else entries.find? (·.1 = other) := by
  induction entries with
  | nil => by_cases same : key = other <;> simp [insertEntry, same]
  | cons entry rest ih =>
      cases order : compare key entry.1 with
      | lt =>
          simp only [insertEntry, order]
          by_cases same : key = other <;> simp [same]
      | eq =>
          -- The entry is replaced by one of the same key.
          have replaced : entry.1 = key := (Std.LawfulEqCmp.eq_of_compare order).symm
          simp only [insertEntry, order]
          by_cases same : key = other <;> simp [same, replaced]
      | gt =>
          have differs : entry.1 ≠ key := by
            intro same
            rw [same, compare_self] at order
            cases order
          simp only [insertEntry, order]
          by_cases first : entry.1 = other
          · have fresh : key ≠ other := fun same => differs (first.trans same.symm)
            simp [fresh, first]
          · simpa [first] using ih

theorem get?_insert (map : SortedMap κ ν) (key other : κ) (value : ν) :
    (map.insert key value).get? other = if key = other then some value else map.get? other := by
  simp only [get?, insert, find?_insertEntry]
  by_cases same : key = other <;> simp [same]

/-- The last value of a key is the one that the map holds. -/
theorem get?_ofList (entries : List (κ × ν)) (key : κ) :
    (ofList entries).get? key = ((entries.filter (·.1 = key)).getLast?).map Prod.snd := by
  have inserted (map : SortedMap κ ν) :
      (entries.foldl (fun map entry => map.insert entry.1 entry.2) map).get? key =
        (((entries.filter (·.1 = key)).getLast?).map Prod.snd).or (map.get? key) := by
    induction entries generalizing map with
    | nil => simp
    | cons entry rest ih =>
        rw [List.foldl_cons, ih, get?_insert]
        by_cases same : entry.1 = key
        · simp only [same, ↓reduceIte, decide_true, List.filter_cons_of_pos, List.getLast?_cons]
          cases (rest.filter (·.1 = key)).getLast? <;> rfl
        · simp [same]
  exact (inserted empty).trans (Option.or_none ..)

theorem ofList_congr (first second : List (κ × ν))
    (same : ∀ key, first.filter (·.1 = key) = second.filter (·.1 = key)) :
    ofList first = ofList second := by
  apply ext_get?
  intro key
  rw [get?_ofList, get?_ofList, same key]

end Lists

end SortedMap

end SchemaDefaults
