import SchemaDefaults.Proofs.PhraseEdits
import SchemaDefaults.Proofs.SlotFilling
import SchemaDefaults.SortedMap
/-!
Steady readers. A reader that takes a tree has met no fault in it, and a harmless edit of the
phrase leaves what it reads as it is. Where a member is repeated, the first of the two is read, and
then the fault is that of the repeated member. Readers that are made of steady readers are steady.
-/

namespace SchemaDefaults

open Phrase (Edit Member Repeat)
open SchemaDefaults.Tree (Whole)

/-- A reader of values that are taken for this part. -/
structure Reader.Steady {α : Type} (part : Part) (read : Reader α) : Prop where
  whole : ∀ levels tree value, read levels tree = .ok value → Whole tree
  edited : ∀ before after : Phrase, Edit part before after → ∀ levels value,
    read levels before.tree = .ok value → read levels after.tree = .ok value
  repeated : ∀ (name : String) (before replaced after : Phrase),
    Repeat name part before replaced after → ∀ levels value,
    read levels before.tree = .ok value →
    read levels after.tree = (read levels replaced.tree >>= unlessRepeated (some name))

/-- What a steady reader makes of the last of three phrases follows from the other two. -/
def Reader.Follows (repeated? : Option String) (part : Part) (before replaced after : Phrase) :
    Prop :=
  ∀ {α : Type} (read : Reader α), Steady part read → ∀ levels value,
    read levels before.tree = .ok value →
    read levels after.tree = (read levels replaced.tree >>= unlessRepeated repeated?)

theorem Phrase.Edit.follows {part : Part} {before after : Phrase} (edit : Edit part before after) :
    Reader.Follows none part before before after := by
  intro α read steady levels value taken
  rw [steady.edited before after edit levels value taken, taken]
  rfl

theorem Phrase.Repeat.follows {name : String} {part : Part} {before replaced after : Phrase}
    (twice : Repeat name part before replaced after) :
    Reader.Follows (some name) part before replaced after := by
  intro α read steady
  exact steady.repeated name before replaced after twice

namespace Reader

variable {α : Type}

section Scalars

def isScalar : Tree → Bool
  | .null | .bool _ | .number _ | .string _ => true
  | .array _ _ | .object _ _ | .stump _ | .broken _ => false

theorem whole_scalar (tree : Tree) (scalar : isScalar tree = true) : Whole tree := by
  cases tree with
  | null | bool | number | string => rfl
  | array | object | stump | broken => cases scalar

theorem scalar_compound (phrase : Phrase) (compound : phrase.isCompound = true) :
    isScalar phrase.tree = false := by
  cases phrase with
  | null | bool | number | string => cases compound
  | array items => rfl
  | object members => rfl

/-- A scalar has no members. -/
theorem scalar_steady (part : Part) {read : Reader α}
    (scalar : ∀ levels tree value, read levels tree = .ok value → isScalar tree = true) :
    Steady part read := by
  constructor
  · intro levels tree value taken
    exact whole_scalar tree (scalar levels tree value taken)
  · intro before after edit levels value taken
    have compound := scalar_compound before edit.compound.1
    rw [scalar levels before.tree value taken] at compound
    cases compound
  · intro name before replaced after twice levels value taken
    have compound := scalar_compound before twice.compound.1
    rw [scalar levels before.tree value taken] at compound
    cases compound

theorem refuse_not_ok (tree : Tree) (expected : String) (value : α) :
    tree.refuse expected ≠ .ok value := by
  unfold Tree.refuse
  cases tree.found <;> simp [bind, Except.bind, throw, throwThe, MonadExceptOf.throw]

theorem string_scalar (levels : Nat) (tree : Tree) (value : String)
    (taken : string levels tree = .ok value) : isScalar tree = true := by
  cases tree with
  | null | bool | number | string => rfl
  | array | object | stump | broken => exact absurd taken (refuse_not_ok _ _ _)

theorem string_steady (part : Part) : Steady part string := scalar_steady part string_scalar

theorem bool_steady (part : Part) : Steady part bool := by
  apply scalar_steady
  intro levels tree value taken
  cases tree with
  | null | bool | number | string => rfl
  | array | object | stump | broken => exact absurd taken (refuse_not_ok _ _ _)

theorem word32_steady (part : Part) : Steady part word32 := by
  apply scalar_steady
  intro levels tree value taken
  cases tree with
  | null | bool | number | string => rfl
  | array | object | stump | broken => exact absurd taken (refuse_not_ok _ _ _)

end Scalars

theorem passed_of_kept (key : Key) (name : String) (kept : key.kept = .ok name) :
    key.passed = .ok () := by
  cases key with
  | text => rfl
  | broken | stray => cases kept

section Optional

theorem optional_present (read : Reader α) (levels : Nat) (tree : Tree) (present : tree ≠ .null) :
    optional read levels tree = (read levels tree).map some := by
  unfold optional
  split
  · exact absurd rfl present
  · rfl

theorem compound_present (phrase : Phrase) (compound : phrase.isCompound = true) :
    phrase.tree ≠ .null := by
  cases phrase with
  | null => cases compound
  | bool | number | string | array | object => simp [Phrase.tree]

theorem Steady.optional {part : Part} {read : Reader α} (steady : Steady part read) :
    Steady part (optional read) := by
  constructor
  · intro levels tree value taken
    by_cases absent : tree = .null
    · subst absent
      rfl
    · rw [optional_present read levels tree absent] at taken
      cases inner : read levels tree with
      | error fault => rw [inner] at taken; cases taken
      | ok kept => exact steady.whole levels tree kept inner
  · intro before after edit levels value taken
    rw [optional_present _ _ _ (compound_present before edit.compound.1)] at taken
    rw [optional_present _ _ _ (compound_present after edit.compound.2)]
    cases inner : read levels before.tree with
    | error fault => rw [inner] at taken; cases taken
    | ok kept =>
        rw [inner] at taken
        rw [steady.edited before after edit levels kept inner]
        exact taken
  · intro name before replaced after twice levels value taken
    obtain ⟨there, put, there'⟩ := twice.compound
    rw [optional_present _ _ _ (compound_present before there)] at taken
    rw [optional_present _ _ _ (compound_present replaced put),
      optional_present _ _ _ (compound_present after there')]
    cases inner : read levels before.tree with
    | error fault => rw [inner] at taken; cases taken
    | ok kept =>
        rw [steady.repeated name before replaced after twice levels kept inner]
        cases read levels replaced.tree <;> rfl

end Optional

section Lists

variable (read : Reader α)

theorem list_array {levels inner : Nat} (entered : Tree.enter levels = .ok inner)
    (trees : List Tree) : list read levels (.array trees none) = items read inner trees := by
  simp only [list, entered]
  cases taken : items read inner trees <;> simp [taken, bind, Except.bind, Tree.checkEnding, pure,
    Except.pure]

theorem list_ok_iff (levels : Nat) (tree : Tree) (values : List α) :
    list read levels tree = .ok values ↔ ∃ trees inner, tree = .array trees none ∧
      Tree.enter levels = .ok inner ∧ items read inner trees = .ok values := by
  cases tree with
  | array trees ending =>
      simp only [list, bind_ok_iff]
      constructor
      · rintro ⟨inner, entered, _, taken, _, closed, same⟩
        cases (Tree.checkEnding_iff ending).mp closed
        cases same
        exact ⟨trees, inner, rfl, entered, taken⟩
      · rintro ⟨_, inner, same, entered, taken⟩
        cases same
        exact ⟨inner, entered, values, taken, (), rfl, rfl⟩
  | null | bool | number | string | object | stump | broken =>
      constructor
      · intro taken
        exact absurd taken (refuse_not_ok _ _ _)
      · rintro ⟨_, _, same, _⟩
        cases same

variable {read}

theorem items_cons_ok_iff (levels : Nat) (tree : Tree) (rest : List Tree) (values : List α) :
    items read levels (tree :: rest) = .ok values ↔
      ∃ value later, read levels tree = .ok value ∧ items read levels rest = .ok later ∧
        values = value :: later := by
  simp only [items, bind_ok_iff]
  constructor
  · rintro ⟨value, taken, later, others, same⟩
    cases same
    exact ⟨value, later, taken, others, rfl⟩
  · rintro ⟨value, later, taken, others, rfl⟩
    exact ⟨value, taken, later, others, rfl⟩

theorem items_whole {part : Part} (steady : Steady part read) (levels : Nat) (trees : List Tree)
    (values : List α) (taken : items read levels trees = .ok values) :
    ∀ tree ∈ trees, Whole tree := by
  induction trees generalizing values with
  | nil => exact List.forall_mem_nil _
  | cons tree rest ih =>
      obtain ⟨value, later, first, others, rfl⟩ := (items_cons_ok_iff levels ..).mp taken
      exact List.forall_mem_cons.mpr ⟨steady.whole levels tree value first, ih later others⟩

theorem items_changed (repeated? : Option String) (levels : Nat) {before replaced after : Tree}
    (changed : ∀ value, read levels before = .ok value →
      read levels after = (read levels replaced >>= unlessRepeated repeated?))
    (front back : List Tree) (values : List α)
    (taken : items read levels (front ++ before :: back) = .ok values) :
    items read levels (front ++ after :: back) =
      (items read levels (front ++ replaced :: back) >>= unlessRepeated repeated?) := by
  induction front generalizing values with
  | nil =>
      obtain ⟨value, later, first, others, -⟩ := (items_cons_ok_iff levels ..).mp taken
      simp only [List.nil_append, items, changed value first, others]
      exact unlessRepeated_bind repeated? _ _ fun _ _ => ⟨_, rfl⟩
  | cons tree front ih =>
      obtain ⟨value, later, first, others, -⟩ := (items_cons_ok_iff levels ..).mp taken
      simp only [List.cons_append, items, first]
      show (items read levels (front ++ after :: back) >>= fun later => .ok (value :: later)) = _
      rw [ih later others]
      exact unlessRepeated_bind repeated? _ _ fun _ _ => ⟨_, rfl⟩

theorem list_changed {part : Part} (steady : Steady part read) {repeated? : Option String}
    {before replaced after : Phrase} (follows : Follows repeated? part before replaced after)
    (front back : List Phrase) (levels : Nat) (values : List α)
    (taken : list read levels (Phrase.array (front ++ before :: back)).tree = .ok values) :
    list read levels (Phrase.array (front ++ after :: back)).tree =
      (list read levels (Phrase.array (front ++ replaced :: back)).tree >>=
        unlessRepeated repeated?) := by
  simp only [Phrase.tree_array, List.map_append, List.map_cons] at taken ⊢
  obtain ⟨_, inner, same, entered, others⟩ := (list_ok_iff read levels _ values).mp taken
  cases same
  rw [list_array read entered, list_array read entered]
  exact items_changed repeated? inner (follows read steady inner) _ _ values others

theorem Steady.list {part : Part} (steady : Steady part read) :
    Steady (.list part) (list read) := by
  constructor
  · intro levels tree values taken
    obtain ⟨trees, inner, rfl, _, others⟩ := (list_ok_iff read levels tree values).mp taken
    exact (Tree.whole_array_iff trees none).mpr ⟨items_whole steady inner trees values others, rfl⟩
  · intro before after edit levels values taken
    obtain ⟨trees, _, same, _⟩ := (list_ok_iff read levels _ values).mp taken
    obtain ⟨items, rfl, _⟩ := Phrase.tree_eq_array before trees none same
    obtain ⟨front, back, old, new, rfl, rfl, change⟩ := edit.of_array
    rw [list_changed steady change.follows front back levels values taken, taken]
    rfl
  · intro name before replaced after twice levels values taken
    obtain ⟨trees, _, same, _⟩ := (list_ok_iff read levels _ values).mp taken
    obtain ⟨items, rfl, _⟩ := Phrase.tree_eq_array before trees none same
    obtain ⟨front, back, old, new, changed, rfl, rfl, rfl, change⟩ := twice.of_array
    exact list_changed steady change.follows front back levels values taken

end Lists

section Maps

variable (read : Reader α) (levels : Nat)

def readPair? (member : Key × Tree) : Option (String × α) :=
  match member.1.kept, read levels member.2 with
  | .ok name, .ok value => some (name, value)
  | _, _ => none

theorem readPair?_eq_some_iff (member : Key × Tree) (entry : String × α) :
    readPair? read levels member = some entry ↔
      member.1.kept = .ok entry.1 ∧ read levels member.2 = .ok entry.2 := by
  unfold readPair?
  cases member.1.kept with
  | error fault => simp
  | ok name =>
      cases read levels member.2 with
      | error fault => simp
      | ok value => simp [Prod.ext_iff]

theorem entries_ok_iff (members : List (Key × Tree)) (values : List (String × α)) :
    entries read levels members = .ok values ↔
      members.map (readPair? read levels) = values.map some := by
  induction members generalizing values with
  | nil => cases values <;> simp [entries]
  | cons member rest ih =>
      rw [entries, bind_ok_iff, List.map_cons]
      constructor
      · rintro ⟨name, named, behind⟩
        obtain ⟨value, taken, behind⟩ := (bind_ok_iff ..).mp behind
        obtain ⟨later, others, same⟩ := (bind_ok_iff ..).mp behind
        cases same
        have first := (readPair?_eq_some_iff read levels member (name, value)).mpr ⟨named, taken⟩
        rw [first, (ih later).mp others, List.map_cons]
      · intro same
        obtain ⟨entry, later, rfl, first, others⟩ := List.map_eq_cons_iff.mp same.symm
        obtain ⟨named, taken⟩ := (readPair?_eq_some_iff read levels member entry).mp first.symm
        refine ⟨entry.1, named, (bind_ok_iff ..).mpr ⟨entry.2, taken, ?_⟩⟩
        exact (bind_ok_iff ..).mpr ⟨later, (ih later).mpr others.symm, rfl⟩

theorem map_ok_iff (tree : Tree) (result : SortedMap String α) :
    map read levels tree = .ok result ↔ ∃ members inner values, tree = .object members none ∧
      Tree.enter levels = .ok inner ∧ entries read inner members = .ok values ∧
      result = SortedMap.ofList values := by
  cases tree with
  | object members ending =>
      simp only [map, bind_ok_iff]
      constructor
      · rintro ⟨inner, entered, values, taken, _, closed, same⟩
        cases (Tree.checkEnding_iff ending).mp closed
        cases same
        exact ⟨members, inner, values, rfl, entered, taken, rfl⟩
      · rintro ⟨_, inner, values, same, entered, taken, rfl⟩
        cases same
        exact ⟨inner, entered, values, taken, (), rfl, rfl⟩
  | null | bool | number | string | array | stump | broken =>
      constructor
      · intro taken
        exact absurd taken (refuse_not_ok _ _ _)
      · rintro ⟨_, _, _, same, _⟩
        cases same

theorem map_object {inner : Nat} (entered : Tree.enter levels = .ok inner)
    (members : List (Key × Tree)) (values : List (String × α))
    (taken : entries read inner members = .ok values) :
    map read levels (.object members none) = .ok (SortedMap.ofList values) :=
  (map_ok_iff read levels _ _).mpr ⟨members, inner, values, rfl, entered, taken, rfl⟩

/-- The entry of a member, where it has one. -/
def memberPair? (member : Member) : Option (String × α) := readPair? read levels member.tree

theorem entries_members_iff (members : List Member) (values : List (String × α)) :
    entries read levels (members.map Member.tree) = .ok values ↔
      (∀ member ∈ members, (memberPair? read levels member).isSome = true) ∧
        members.filterMap (memberPair? read levels) = values := by
  rw [entries_ok_iff, List.map_map]
  show members.map (memberPair? read levels) = values.map some ↔ _
  induction members generalizing values with
  | nil => cases values <;> simp
  | cons member rest ih =>
      cases first : memberPair? read levels member with
      | none => cases values <;> simp [first]
      | some entry => cases values <;> simp [first, ih, and_left_comm]

theorem filter_memberPair (members : List Member) (name : String) :
    (members.filterMap (memberPair? read levels)).filter (·.1 = name) =
      (members.filter (Phrase.hasName name)).filterMap (memberPair? read levels) := by
  rw [List.filter_filterMap, List.filterMap_filter]
  refine congrArg (List.filterMap · members) (funext fun member => ?_)
  cases taken : memberPair? read levels member with
  | none => cases Phrase.hasName name member <;> rfl
  | some entry =>
      have named : member.1.value = .ok entry.1 :=
        ((readPair?_eq_some_iff read levels _ entry).mp taken).1
      by_cases same : entry.1 = name
      · simp [Phrase.hasName, named, same]
      · simp [Phrase.hasName, named, same]

theorem string_map_steady : Steady .attributes (map string) := by
  constructor
  · intro levels tree result taken
    obtain ⟨members, inner, values, rfl, _, others, rfl⟩ := (map_ok_iff string levels _ _).mp taken
    apply (Tree.whole_object_iff members none).mpr
    refine ⟨fun member inside => ?_, rfl⟩
    have listed := (entries_ok_iff string inner members values).mp others ▸
      List.mem_map_of_mem inside
    obtain ⟨entry, _, same⟩ := List.mem_map.mp listed
    obtain ⟨named, kept⟩ := (readPair?_eq_some_iff string inner member entry).mp same.symm
    exact ⟨passed_of_kept member.1 entry.1 named,
      (string_steady .value).whole inner member.2 entry.2 kept⟩
  · intro before after edit levels result taken
    obtain ⟨trees, inner, values, same, entered, others, rfl⟩ :=
      (map_ok_iff string levels _ _).mp taken
    obtain ⟨members, rfl, rfl⟩ := Phrase.tree_eq_object before trees none same
    obtain ⟨there, rfl⟩ := (entries_members_iff string inner members values).mp others
    cases edit with
    | insert _ isStructure => cases isStructure
    | reorder _ moved kept =>
        have read := (entries_members_iff string inner _ _).mpr
          ⟨fun member inside => there member (moved.mem_iff.mpr inside), rfl⟩
        rw [Phrase.tree_object, map_object string levels entered _ _ read]
        apply congrArg Except.ok
        apply SortedMap.ofList_congr
        intro name
        rw [filter_memberPair, filter_memberPair, kept rfl name]
    | member _ front back key edit =>
        -- The values of attributes are strings, which no edit changes.
        have inside := there _ (List.mem_append_right _ List.mem_cons_self)
        obtain ⟨entry, found⟩ := Option.isSome_iff_exists.mp inside
        have kept := ((readPair?_eq_some_iff string inner _ entry).mp found).2
        have compound := scalar_compound _ edit.compound.1
        cases (string_scalar inner _ entry.2 kept).symm.trans compound
  · intro name before replaced after twice levels result taken
    obtain ⟨trees, _, _, same, _⟩ := (map_ok_iff string levels _ _).mp taken
    obtain ⟨members, rfl, rfl⟩ := Phrase.tree_eq_object before trees none same
    cases twice with
    | behind _ isStructure | ahead _ isStructure => cases isStructure
    | member _ front back key inner =>
        have isValue : Part.attributes.member key.value = .value := by cases key.value <;> rfl
        exact absurd isValue inner.not_value

end Maps

end Reader

end SchemaDefaults
