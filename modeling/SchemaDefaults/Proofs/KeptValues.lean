import SchemaDefaults.Json.Record
import SchemaDefaults.Proofs.SteadyReaders
/-!
Kept values. An edit of a phrase that is kept as a value moves members of the value about, and
nothing else. The same holds of the parts of a tagged value, whose tag may stand anywhere.
-/

namespace SchemaDefaults

open Phrase (Edit Member)
open SchemaDefaults.Tree (Whole)

/-- Members of one object inside the value have changed places. -/
inductive Json.Shuffled : Json → Json → Prop where
  | reorder {before after : List (String × Json)} (moved : before.Perm after) :
      Shuffled (.object before) (.object after)
  | item (front back : List Json) {before after : Json} (inner : Shuffled before after) :
      Shuffled (.array (front ++ before :: back)) (.array (front ++ after :: back))
  | member (front back : List (String × Json)) (name : String) {before after : Json}
      (inner : Shuffled before after) :
      Shuffled (.object (front ++ (name, before) :: back))
        (.object (front ++ (name, after) :: back))

theorem Json.Shuffled.cons_member (entry : String × Json) {before after : List (String × Json)}
    (shuffled : Shuffled (.object before) (.object after)) :
    Shuffled (.object (entry :: before)) (.object (entry :: after)) := by
  cases shuffled with
  | reorder moved => exact .reorder (moved.cons entry)
  | member front back name inner => exact .member (entry :: front) back name inner

theorem Json.Shuffled.of_empty {after : Json} (shuffled : Shuffled (.object []) after) :
    after = .object [] := by
  generalize same : Json.object [] = before at shuffled
  cases shuffled with
  | item => cases same
  | reorder moved =>
      cases same
      rw [moved.nil_eq]
  | member front => simp at same

theorem Json.Shuffled.length_eq {before after : List Json}
    (shuffled : Shuffled (.array before) (.array after)) : before.length = after.length := by
  cases shuffled with
  | item front back inner => rw [List.length_append, List.length_append]; rfl

namespace Tree

section Keeping

def kept : Reader Json := fun levels tree => tree.keep levels

theorem keepItems_eq (levels : Nat) (trees : List Tree) :
    keepItems levels trees = kept.items levels trees := by
  induction trees with
  | nil => rfl
  | cons tree rest ih => rw [keepItems, Reader.items, ih]; rfl

theorem keepMembers_eq (levels : Nat) (members : List (Key × Tree)) :
    keepMembers levels members = kept.entries levels members := by
  induction members with
  | nil => rfl
  | cons member rest ih => rw [keepMembers, Reader.entries, ih]; rfl

variable (levels : Nat) (value : Json)

theorem keep_array_iff (trees : List Tree) (ending : Option Fault) :
    keep levels (.array trees ending) = .ok value ↔ ∃ inner items, ending = none ∧
      enter levels = .ok inner ∧ kept.items inner trees = .ok items ∧ value = .array items := by
  simp only [keep, keepItems_eq, bind_ok_iff]
  constructor
  · rintro ⟨inner, entered, items, taken, _, closed, same⟩
    cases same
    exact ⟨inner, items, (checkEnding_iff ending).mp closed, entered, taken, rfl⟩
  · rintro ⟨inner, items, rfl, entered, taken, rfl⟩
    exact ⟨inner, entered, items, taken, (), rfl, rfl⟩

theorem keep_object_iff (members : List (Key × Tree)) (ending : Option Fault) :
    keep levels (.object members ending) = .ok value ↔ ∃ inner entries, ending = none ∧
      enter levels = .ok inner ∧ kept.entries inner members = .ok entries ∧
      value = .object entries := by
  simp only [keep, keepMembers_eq, bind_ok_iff]
  constructor
  · rintro ⟨inner, entered, entries, taken, _, closed, same⟩
    cases same
    exact ⟨inner, entries, (checkEnding_iff ending).mp closed, entered, taken, rfl⟩
  · rintro ⟨inner, entries, rfl, entered, taken, rfl⟩
    exact ⟨inner, entered, entries, taken, (), rfl, rfl⟩

end Keeping

section Wholeness

mutual

theorem keep_whole : (tree : Tree) → ∀ levels value, keep levels tree = .ok value → Whole tree
  | .null | .bool _ | .number _ | .string _ => fun _ _ _ => rfl
  | .stump _ | .broken _ => fun _ _ taken => by cases taken
  | .array trees ending => fun levels value taken => by
      obtain ⟨inner, items, rfl, _, others, -⟩ := (keep_array_iff levels value _ _).mp taken
      exact (whole_array_iff trees none).mpr ⟨keptItems_whole trees inner items others, rfl⟩
  | .object members ending => fun levels value taken => by
      obtain ⟨inner, entries, rfl, _, others, -⟩ := (keep_object_iff levels value _ _).mp taken
      exact (whole_object_iff members none).mpr
        ⟨keptMembers_whole members inner entries others, rfl⟩

theorem keptItems_whole : (trees : List Tree) → ∀ levels items,
    kept.items levels trees = .ok items → ∀ tree ∈ trees, Whole tree
  | [] => fun _ _ _ => List.forall_mem_nil _
  | tree :: rest => fun levels items taken => by
      obtain ⟨value, later, first, others, -⟩ := (Reader.items_cons_ok_iff levels ..).mp taken
      exact List.forall_mem_cons.mpr
        ⟨keep_whole tree levels value first, keptItems_whole rest levels later others⟩

theorem keptMembers_whole : (members : List (Key × Tree)) → ∀ levels entries,
    kept.entries levels members = .ok entries →
    ∀ member ∈ members, member.1.passed = .ok () ∧ Whole member.2
  | [] => fun _ _ _ => List.forall_mem_nil _
  | (key, tree) :: rest => fun levels entries taken => by
      obtain ⟨name, named, behind⟩ := (bind_ok_iff ..).mp taken
      obtain ⟨value, first, behind⟩ := (bind_ok_iff ..).mp behind
      obtain ⟨later, others, -⟩ := (bind_ok_iff ..).mp behind
      exact List.forall_mem_cons.mpr
        ⟨⟨Reader.passed_of_kept key name named, keep_whole tree levels value first⟩,
          keptMembers_whole rest levels later others⟩

end

end Wholeness

section Edits

variable (levels : Nat)

theorem keptItems_replaced (front back : List Tree) (before : Tree) (items : List Json)
    (taken : kept.items levels (front ++ before :: back) = .ok items) :
    ∃ front' value back', items = front' ++ value :: back' ∧ keep levels before = .ok value ∧
      ∀ after value', keep levels after = .ok value' →
        kept.items levels (front ++ after :: back) = .ok (front' ++ value' :: back') := by
  induction front generalizing items with
  | nil =>
      obtain ⟨value, later, first, others, rfl⟩ := (Reader.items_cons_ok_iff levels ..).mp taken
      refine ⟨[], value, later, rfl, first, fun after value' read => ?_⟩
      exact (Reader.items_cons_ok_iff levels ..).mpr ⟨value', later, read, others, rfl⟩
  | cons tree front ih =>
      obtain ⟨value, later, first, others, rfl⟩ := (Reader.items_cons_ok_iff levels ..).mp taken
      obtain ⟨front', value₀, back', rfl, read, replaced⟩ := ih later others
      refine ⟨value :: front', value₀, back', rfl, read, fun after value' read => ?_⟩
      exact (Reader.items_cons_ok_iff levels ..).mpr
        ⟨value, _, first, replaced after value' read, rfl⟩

theorem keptMembers_replaced (front back : List (Key × Tree)) (key : Key) (before : Tree)
    (entries : List (String × Json))
    (taken : kept.entries levels (front ++ (key, before) :: back) = .ok entries) :
    ∃ front' name value back', entries = front' ++ (name, value) :: back' ∧
      keep levels before = .ok value ∧ ∀ after value', keep levels after = .ok value' →
        kept.entries levels (front ++ (key, after) :: back) =
          .ok (front' ++ (name, value') :: back') := by
  rw [Reader.entries_ok_iff, List.map_append, List.map_cons] at taken
  obtain ⟨front', rest, rfl, ahead, behind⟩ := List.append_eq_map_iff.mp taken
  obtain ⟨entry, back', rfl, first, later⟩ := List.map_eq_cons_iff.mp behind
  obtain ⟨named, read⟩ := (Reader.readPair?_eq_some_iff kept levels _ entry).mp first.symm
  refine ⟨front', entry.1, entry.2, back', rfl, read, fun after value' replaced => ?_⟩
  have entered := (Reader.readPair?_eq_some_iff kept levels (key, after) (entry.1, value')).mpr
    ⟨named, replaced⟩
  rw [Reader.entries_ok_iff, List.map_append, List.map_cons, entered, ← ahead, ← later,
    List.map_append, List.map_cons]

/-- The values of an object's members are kept each on its own. -/
theorem keptMembers_perm {before after : List Member} (moved : before.Perm after)
    (entries : List (String × Json))
    (taken : kept.entries levels (before.map Member.tree) = .ok entries) :
    ∃ entries', kept.entries levels (after.map Member.tree) = .ok entries' ∧
      entries.Perm entries' := by
  obtain ⟨there, rfl⟩ := (Reader.entries_members_iff kept levels before entries).mp taken
  refine ⟨_, (Reader.entries_members_iff kept levels after _).mpr ⟨?_, rfl⟩, moved.filterMap _⟩
  exact fun member inside => there member (moved.mem_iff.mpr inside)

theorem keep_edited {part : Part} {before after : Phrase} (edit : Edit part before after)
    (isValue : part = .value) (levels : Nat) (value : Json) (taken : keep levels before.tree = .ok value) :
    ∃ value', keep levels after.tree = .ok value' ∧ value.Shuffled value' := by
  induction edit generalizing levels value with
  | reorder _ moved _ =>
      rw [Phrase.tree_object] at taken ⊢
      obtain ⟨inner, entries, _, entered, others, rfl⟩ := (keep_object_iff levels ..).mp taken
      obtain ⟨entries', read, shuffled⟩ := keptMembers_perm inner moved entries others
      exact ⟨.object entries', (keep_object_iff ..).mpr ⟨inner, entries', rfl, entered, read, rfl⟩,
        .reorder shuffled⟩
  | insert _ isStructure =>
      subst isValue
      cases isStructure
  | item _ front back edit ih =>
      subst isValue
      rw [Phrase.tree_array] at taken ⊢
      obtain ⟨inner, items, _, entered, others, rfl⟩ := (keep_array_iff levels ..).mp taken
      rw [List.map_append, List.map_cons] at others ⊢
      obtain ⟨front', first, back', rfl, read, replaced⟩ :=
        keptItems_replaced inner _ _ _ items others
      obtain ⟨value', read', shuffled⟩ := ih rfl inner first read
      refine ⟨.array (front' ++ value' :: back'), ?_, .item front' back' shuffled⟩
      exact (keep_array_iff ..).mpr ⟨inner, _, rfl, entered, replaced _ value' read', rfl⟩
  | member _ front back key edit ih =>
      subst isValue
      rw [Phrase.tree_object] at taken ⊢
      obtain ⟨inner, entries, _, entered, others, rfl⟩ := (keep_object_iff levels ..).mp taken
      rw [List.map_append, List.map_cons] at others ⊢
      obtain ⟨front', name, first, back', rfl, read, replaced⟩ :=
        keptMembers_replaced inner _ _ _ _ entries others
      obtain ⟨value', read', shuffled⟩ := ih (Part.member_value key.value) inner first read
      refine ⟨.object (front' ++ (name, value') :: back'), ?_, .member front' back' name shuffled⟩
      exact (keep_object_iff ..).mpr ⟨inner, _, rfl, entered, replaced _ value' read', rfl⟩

end Edits

end Tree

/-- The kept parts of a tagged value, put together as a value. -/
def Content.json : Content → Json
  | .members entries => .object entries
  | .items values => .array values

namespace Tagged

variable (tag : String) (known : List String) (levels : Nat)

section Splitting

theorem split_cons_ok_iff (name? result : Option String) (key : Key) (tree : Tree)
    (rest : List (Key × Tree)) (others : List (String × Json)) :
    split tag known levels name? ((key, tree) :: rest) = .ok (result, others) ↔
      ∃ name, key.kept = .ok name ∧
        ((name = tag ∧ name? = none ∧ ∃ value, variant known levels tree = .ok value ∧
          split tag known levels (some value) rest = .ok (result, others)) ∨
        (name ≠ tag ∧ ∃ value later, tree.keep levels = .ok value ∧
          split tag known levels name? rest = .ok (result, later) ∧
          others = (name, value) :: later)) := by
  simp only [split, bind_ok_iff]
  apply exists_congr
  intro name
  apply and_congr_right
  intro _
  by_cases own : name = tag
  · cases name? with
    | none => simp [own, bind_ok_iff]
    | some value => simp [own, throw, throwThe, MonadExceptOf.throw]
  · simp only [own, ↓reduceIte, bind_ok_iff]
    constructor
    · rintro ⟨value, taken, ⟨_, later⟩, behind, same⟩
      cases same
      exact .inr ⟨own, value, later, taken, behind, rfl⟩
    · rintro (⟨same, _⟩ | ⟨_, value, later, taken, behind, rfl⟩)
      · exact same.elim
      · exact ⟨value, taken, (result, later), behind, rfl⟩

variable {tag known levels} {key : Key} {tree : Tree} {value : String} {result : Option String}
  {rest : List (Key × Tree)} {later : List (String × Json)}

theorem split_tag {name : String} (named : key.kept = .ok name) (own : name = tag)
    (read : variant known levels tree = .ok value)
    (behind : split tag known levels (some value) rest = .ok (result, later)) :
    split tag known levels none ((key, tree) :: rest) = .ok (result, later) :=
  (split_cons_ok_iff ..).mpr ⟨name, named, .inl ⟨own, rfl, value, read, behind⟩⟩

theorem split_other {name : String} (named : key.kept = .ok name) (other : name ≠ tag)
    {name? : Option String} {kept : Json} (read : tree.keep levels = .ok kept)
    (behind : split tag known levels name? rest = .ok (result, later)) :
    split tag known levels name? ((key, tree) :: rest) = .ok (result, (name, kept) :: later) :=
  (split_cons_ok_iff ..).mpr ⟨name, named, .inr ⟨other, kept, later, read, behind, rfl⟩⟩

variable (tag known levels)

/-- The names of variants are strings. -/
theorem variant_scalar (tree : Tree) (name : String)
    (taken : variant known levels tree = .ok name) : Reader.isScalar tree = true := by
  cases tree with
  | null | bool | number | string => rfl
  | array | object | stump | broken => exact absurd taken (Reader.refuse_not_ok _ _ _)

theorem split_whole (name? result : Option String) (members : List (Key × Tree))
    (others : List (String × Json))
    (taken : split tag known levels name? members = .ok (result, others)) :
    ∀ member ∈ members, member.1.passed = .ok () ∧ Whole member.2 := by
  induction members generalizing name? others with
  | nil => exact List.forall_mem_nil _
  | cons member rest ih =>
      obtain ⟨name, named, ⟨_, _, value, read, behind⟩ | ⟨_, value, later, read, behind, _⟩⟩ :=
        (split_cons_ok_iff tag known levels name? result member.1 member.2 rest others).mp taken
      · have whole := Reader.whole_scalar _ (variant_scalar known levels member.2 value read)
        exact List.forall_mem_cons.mpr
          ⟨⟨Reader.passed_of_kept member.1 name named, whole⟩, ih (some value) others behind⟩
      · have whole := Tree.keep_whole member.2 levels value read
        exact List.forall_mem_cons.mpr
          ⟨⟨Reader.passed_of_kept member.1 name named, whole⟩, ih name? later behind⟩

theorem split_perm {before after : List (Key × Tree)} (moved : before.Perm after)
    (name? result : Option String) (others : List (String × Json))
    (taken : split tag known levels name? before = .ok (result, others)) :
    ∃ others', split tag known levels name? after = .ok (result, others') ∧
      others.Perm others' := by
  induction moved generalizing name? others with
  | nil => exact ⟨others, taken, .refl others⟩
  | trans _ _ first second =>
      obtain ⟨between, read, moved⟩ := first name? others taken
      obtain ⟨others', read', moved'⟩ := second name? between read
      exact ⟨others', read', moved.trans moved'⟩
  | cons member _ ih =>
      obtain ⟨name, named, ⟨own, rfl, value, read, behind⟩ |
        ⟨other, value, later, read, behind, rfl⟩⟩ := (split_cons_ok_iff ..).mp taken
      · obtain ⟨others', read', moved⟩ := ih (some value) others behind
        exact ⟨others', split_tag named own read read', moved⟩
      · obtain ⟨later', read', moved⟩ := ih name? later behind
        exact ⟨_, split_other named other read read', moved.cons _⟩
  | swap second first rest =>
      obtain ⟨name, named, ⟨own, rfl, value, read, behind⟩ |
        ⟨other, value, later, read, behind, rfl⟩⟩ := (split_cons_ok_iff ..).mp taken
      · obtain ⟨name', named', ⟨_, occupied, _⟩ | ⟨other', value', later', read', behind', rfl⟩⟩ :=
          (split_cons_ok_iff ..).mp behind
        · -- The tag has been met already.
          cases occupied
        · exact ⟨_, split_other named' other' read' (split_tag named own read behind'), .refl _⟩
      · obtain ⟨name', named', ⟨own', rfl, value', read', behind'⟩ |
          ⟨other', value', later', read', behind', rfl⟩⟩ := (split_cons_ok_iff ..).mp behind
        · exact ⟨_, split_tag named' own' read' (split_other named other read behind'), .refl _⟩
        · exact ⟨_, split_other named' other' read' (split_other named other read behind'),
            .swap ..⟩

theorem split_edited (front back : List (Key × Tree)) (key : Key) (before after : Tree)
    (untagged : ∀ name, variant known levels before ≠ .ok name)
    (edited : ∀ value, before.keep levels = .ok value →
      ∃ value', after.keep levels = .ok value' ∧ value.Shuffled value')
    (name? result : Option String) (others : List (String × Json))
    (taken : split tag known levels name? (front ++ (key, before) :: back) =
      .ok (result, others)) :
    ∃ others', split tag known levels name? (front ++ (key, after) :: back) =
      .ok (result, others') ∧ Json.Shuffled (.object others) (.object others') := by
  induction front generalizing name? others with
  | nil =>
      obtain ⟨name, named, ⟨_, _, value, read, _⟩ | ⟨other, value, later, read, behind, rfl⟩⟩ :=
        (split_cons_ok_iff ..).mp taken
      · exact absurd read (untagged value)
      · obtain ⟨value', read', shuffled⟩ := edited value read
        exact ⟨_, split_other named other read' behind, .member [] later name shuffled⟩
  | cons member front ih =>
      obtain ⟨name, named, ⟨own, rfl, value, read, behind⟩ |
        ⟨other, value, later, read, behind, rfl⟩⟩ := (split_cons_ok_iff ..).mp taken
      · obtain ⟨others', read', shuffled⟩ := ih (some value) others behind
        exact ⟨others', split_tag named own read read', shuffled⟩
      · obtain ⟨later', read', shuffled⟩ := ih name? later behind
        exact ⟨_, split_other named other read read', shuffled.cons_member _⟩

end Splitting

section Contents

variable (what : String) (name : String) (parts : Content)

theorem content_object_iff (members : List (Key × Tree)) (ending : Option Fault) :
    content what tag known levels (.object members ending) = .ok (name, parts) ↔
      ∃ inner others, ending = none ∧ Tree.enter levels = .ok inner ∧
        split tag known inner none members = .ok (some name, others) ∧
        parts = .members others := by
  simp only [content, bind_ok_iff]
  constructor
  · rintro ⟨inner, entered, ⟨name?, others⟩, taken, _, closed, same⟩
    cases name? with
    | none => cases same
    | some name =>
        cases same
        exact ⟨inner, others, (Tree.checkEnding_iff ending).mp closed, entered, taken, rfl⟩
  · rintro ⟨inner, others, rfl, entered, taken, rfl⟩
    exact ⟨inner, entered, (some name, others), taken, (), rfl, rfl⟩

theorem content_array_iff (first : Tree) (rest : List Tree) (ending : Option Fault) :
    content what tag known levels (.array (first :: rest) ending) = .ok (name, parts) ↔
      ∃ inner items, ending = none ∧ Tree.enter levels = .ok inner ∧
        variant known inner first = .ok name ∧ Tree.kept.items inner rest = .ok items ∧
        parts = .items items := by
  simp only [content, Tree.keepItems_eq, bind_ok_iff]
  constructor
  · rintro ⟨inner, entered, value, read, items, taken, _, closed, same⟩
    cases same
    exact ⟨inner, items, (Tree.checkEnding_iff ending).mp closed, entered, read, taken, rfl⟩
  · rintro ⟨inner, items, rfl, entered, read, taken, rfl⟩
    exact ⟨inner, entered, name, read, items, taken, (), rfl, rfl⟩

theorem content_array_nil (ending : Option Fault) :
    content what tag known levels (.array [] ending) ≠ .ok (name, parts) := by
  simp only [content, Ne, bind_ok_iff]
  rintro ⟨_, _, _, _, absent⟩
  cases absent

theorem content_whole (tree : Tree)
    (taken : content what tag known levels tree = .ok (name, parts)) : Whole tree := by
  cases tree with
  | object members ending =>
      obtain ⟨inner, others, rfl, _, read, _⟩ := (content_object_iff ..).mp taken
      exact (Tree.whole_object_iff members none).mpr ⟨split_whole _ _ _ _ _ _ _ read, rfl⟩
  | array items ending =>
      cases items with
      | nil => exact absurd taken (content_array_nil tag known levels what name parts ending)
      | cons first rest =>
          obtain ⟨inner, kept, rfl, _, read, others, _⟩ := (content_array_iff ..).mp taken
          have whole := Reader.whole_scalar first (variant_scalar known inner first name read)
          exact (Tree.whole_array_iff (first :: rest) none).mpr
            ⟨List.forall_mem_cons.mpr ⟨whole, Tree.keptItems_whole rest inner kept others⟩, rfl⟩
  | null | bool | number | string | stump | broken =>
      exact absurd taken (Reader.refuse_not_ok _ _ _)

/-- No edit changes the name of a variant. -/
theorem variant_compound (phrase : Phrase) (compound : phrase.isCompound = true) (name : String) :
    variant known levels phrase.tree ≠ .ok name := by
  intro taken
  cases (variant_scalar known levels _ name taken).symm.trans
    (Reader.scalar_compound phrase compound)

theorem content_edited {before after : Phrase} (edit : Edit .value before after)
    (taken : content what tag known levels before.tree = .ok (name, parts)) :
    ∃ parts', content what tag known levels after.tree = .ok (name, parts') ∧
      parts.json.Shuffled parts'.json := by
  cases edit with
  | reorder _ moved _ =>
      rw [Phrase.tree_object] at taken ⊢
      obtain ⟨inner, others, _, entered, read, rfl⟩ := (content_object_iff ..).mp taken
      obtain ⟨others', read', shuffled⟩ :=
        split_perm tag known inner (moved.map Member.tree) none (some name) others read
      exact ⟨.members others', (content_object_iff ..).mpr
        ⟨inner, others', rfl, entered, read', rfl⟩, .reorder shuffled⟩
  | insert _ isStructure => cases isStructure
  | item _ front back edit =>
      rw [Phrase.tree_array, List.map_append, List.map_cons] at taken ⊢
      cases front with
      | nil =>
          obtain ⟨inner, _, _, _, read, _⟩ := (content_array_iff ..).mp taken
          exact absurd read (variant_compound known inner _ edit.compound.1 name)
      | cons first front =>
          obtain ⟨inner, items, _, entered, read, others, rfl⟩ := (content_array_iff ..).mp taken
          obtain ⟨front', value, back', rfl, kept, replaced⟩ :=
            Tree.keptItems_replaced inner _ _ _ items others
          obtain ⟨value', kept', shuffled⟩ := Tree.keep_edited edit rfl inner value kept
          refine ⟨.items (front' ++ value' :: back'), ?_, .item front' back' shuffled⟩
          exact (content_array_iff ..).mpr
            ⟨inner, _, rfl, entered, read, replaced _ value' kept', rfl⟩
  | member _ front back key edit =>
      rw [Phrase.tree_object, List.map_append, List.map_cons] at taken ⊢
      obtain ⟨inner, others, _, entered, read, rfl⟩ := (content_object_iff ..).mp taken
      obtain ⟨others', read', shuffled⟩ := split_edited tag known inner _ _ _ _ _
        (variant_compound known inner _ edit.compound.1)
        (Tree.keep_edited edit (Part.member_value key.value) inner) none (some name) others read
      exact ⟨.members others', (content_object_iff ..).mpr
        ⟨inner, others', rfl, entered, read', rfl⟩, shuffled⟩

end Contents

end Tagged

end SchemaDefaults
