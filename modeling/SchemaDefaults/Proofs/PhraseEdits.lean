import SchemaDefaults.Proofs.Phrases
/-!
Edits of phrases. The parts of a document are the objects and lists that its reader knows, each
with the names of its members. One object anywhere in a phrase is changed: its members are moved
about, one is added of a name that the part does not have, or one is repeated of a name that it has.
-/

namespace SchemaDefaults

open Token (Letters)

section Parts

inductive Part where
  | document | generatedClass | field | location | customization | declaration
  | enumType | enumConstant
  | type
  | attributes
  | list (item : Part)
  | value

namespace Part

/-- The known members in their order, and what their values are taken for. -/
def members : Part → List (String × Part)
  | .document => [("classes", .list .generatedClass)]
  | .generatedClass => [("name", .value), ("location", .location), ("fields", .list .field)]
  | .field =>
    [("name", .value), ("property", .value), ("customizations", .list .customization),
      ("location", .location), ("declaration", .declaration)]
  | .location => [("system_id", .value), ("line", .value), ("column", .value)]
  | .customization =>
    [("namespace", .value), ("tag", .value), ("attributes", .attributes), ("location", .location),
      ("acknowledged", .value)]
  | .declaration => [("ty", .type), ("initializer", .value)]
  | .enumType => [("name", .value), ("constants", .list .enumConstant)]
  | .enumConstant => [("value", .value), ("constant", .value)]
  | .type => [("enum", .enumType)]
  | .attributes | .list _ | .value => []

def names (part : Part) : List String := part.members.map Prod.fst

def isStructure : Part → Bool
  | .type | .attributes | .list _ | .value => false
  | _ => true

def member (part : Part) (key : Except Fault String) : Part :=
  match key with
  | .ok name => ((part.members.find? (·.1 = name)).map Prod.snd).getD .value
  | .error _ => .value

/-- What an item of an array is taken for. A structure may be written as the array of its
members. -/
def item (part : Part) (index : Nat) : Part :=
  match part with
  | .list item => item
  | _ => (part.members[index]?.map Prod.snd).getD .value

theorem member_value (key : Except Fault String) : Part.value.member key = .value := by
  cases key <;> rfl

theorem item_member (part : Part) (index : Nat) (member : String × Part)
    (found : part.members[index]? = some member) : part.item index = member.2 := by
  cases part with
  | list item => cases found
  | document | generatedClass | field | location | customization | declaration | enumType
  | enumConstant | type | attributes | value =>
      exact congrArg (fun found => (Option.map Prod.snd found).getD .value) found

end Part

end Parts

namespace Phrase

abbrev Member := Letters × Phrase

def hasName (name : String) (member : Member) : Bool :=
  match member.1.value with
  | .ok other => other == name
  | .error _ => false

/-- A harmless change of one object of a phrase that is read as this part. -/
inductive Edit : Part → Phrase → Phrase → Prop where
  /-- Members may change places, but attributes of one name keep their order. -/
  | reorder (part : Part) {before after : List Member} (moved : before.Perm after)
      (kept : part = .attributes →
        ∀ name, before.filter (hasName name) = after.filter (hasName name)) :
      Edit part (.object before) (.object after)
  /-- The value of an unknown member is any phrase. -/
  | insert (part : Part) (isStructure : part.isStructure = true) (front back : List Member)
      (key : Letters) (value : Phrase) (name : String) (named : key.value = .ok name)
      (unknown : name ∉ part.names) :
      Edit part (.object (front ++ back)) (.object (front ++ (key, value) :: back))
  | item (part : Part) (front back : List Phrase) {before after : Phrase}
      (edit : Edit (part.item front.length) before after) :
      Edit part (.array (front ++ before :: back)) (.array (front ++ after :: back))
  | member (part : Part) (front back : List Member) (key : Letters) {before after : Phrase}
      (edit : Edit (part.member key.value) before after) :
      Edit part (.object (front ++ (key, before) :: back))
        (.object (front ++ (key, after) :: back))

/-- A member of this name is put into a structure of the phrase that has one already. The value is
any phrase. If the new member comes first, it is the one whose value is read, so that the phrase
in the middle has this value in place of the old one. -/
inductive Repeat (name : String) : Part → Phrase → Phrase → Phrase → Prop where
  | behind (part : Part) (isStructure : part.isStructure = true) (front back : List Member)
      (known : name ∈ part.names) (first : Member) (inside : first ∈ front)
      (found : first.1.value = .ok name) (key : Letters) (value : Phrase)
      (named : key.value = .ok name) :
      Repeat name part (.object (front ++ back)) (.object (front ++ back))
        (.object (front ++ (key, value) :: back))
  | ahead (part : Part) (isStructure : part.isStructure = true)
      (front between back : List Member) (known : name ∈ part.names) (last : Letters)
      (found : last.value = .ok name) (old : Phrase) (key : Letters) (value : Phrase)
      (named : key.value = .ok name) :
      Repeat name part (.object (front ++ between ++ (last, old) :: back))
        (.object (front ++ between ++ (last, value) :: back))
        (.object (front ++ (key, value) :: (between ++ (last, old) :: back)))
  | item (part : Part) (front back : List Phrase) {before replaced after : Phrase}
      (inner : Repeat name (part.item front.length) before replaced after) :
      Repeat name part (.array (front ++ before :: back)) (.array (front ++ replaced :: back))
        (.array (front ++ after :: back))
  | member (part : Part) (front back : List Member) (key : Letters)
      {before replaced after : Phrase}
      (inner : Repeat name (part.member key.value) before replaced after) :
      Repeat name part (.object (front ++ (key, before) :: back))
        (.object (front ++ (key, replaced) :: back)) (.object (front ++ (key, after) :: back))

section Lists

theorem itemTrees_eq (items : List Phrase) : itemTrees items = items.map tree := by
  induction items with
  | nil => rfl
  | cons item rest ih => rw [itemTrees, ih, List.map_cons]

def Member.tree (member : Member) : Key × Tree := (.text member.1.value, Phrase.tree member.2)

theorem memberTrees_eq (members : List Member) : memberTrees members = members.map Member.tree := by
  induction members with
  | nil => rfl
  | cons member rest ih =>
      rw [memberTrees, ih, List.map_cons]
      rfl

theorem tree_array (items : List Phrase) :
    (Phrase.array items).tree = .array (items.map tree) none := by
  rw [tree, itemTrees_eq]

theorem tree_object (members : List Member) :
    (Phrase.object members).tree = .object (members.map Member.tree) none := by
  rw [tree, memberTrees_eq]

theorem tree_eq_array (phrase : Phrase) (trees : List Tree) (ending : Option Fault)
    (same : phrase.tree = .array trees ending) :
    ∃ items, phrase = .array items ∧ trees = items.map tree := by
  cases phrase with
  | null | bool | number | string => cases same
  | object members => rw [tree_object] at same; cases same
  | array items =>
      rw [tree_array, Tree.array.injEq] at same
      exact ⟨items, rfl, same.1.symm⟩

theorem tree_eq_object (phrase : Phrase) (trees : List (Key × Tree)) (ending : Option Fault)
    (same : phrase.tree = .object trees ending) :
    ∃ members, phrase = .object members ∧ trees = members.map Member.tree := by
  cases phrase with
  | null | bool | number | string => cases same
  | array items => rw [tree_array] at same; cases same
  | object members =>
      rw [tree_object, Tree.object.injEq] at same
      exact ⟨members, rfl, same.1.symm⟩

end Lists

section Kept

def isCompound : Phrase → Bool
  | .array _ | .object _ => true
  | _ => false

theorem Edit.compound {part : Part} {before after : Phrase} (edit : Edit part before after) :
    before.isCompound = true ∧ after.isCompound = true := by
  cases edit <;> exact ⟨rfl, rfl⟩

theorem Edit.of_array {part : Part} {items : List Phrase} {after : Phrase}
    (edit : Edit part (.array items) after) :
    ∃ front back old new, items = front ++ old :: back ∧ after = .array (front ++ new :: back) ∧
      Edit (part.item front.length) old new := by
  cases edit with
  | item _ front back edit => exact ⟨front, back, _, _, rfl, rfl, edit⟩

theorem Edit.of_object {part : Part} {members : List Member} {after : Phrase}
    (edit : Edit part (.object members) after) : ∃ members', after = .object members' := by
  cases edit <;> exact ⟨_, rfl⟩

variable {name : String} {part : Part} {before replaced after : Phrase}

theorem Repeat.compound (twice : Repeat name part before replaced after) :
    before.isCompound = true ∧ replaced.isCompound = true ∧ after.isCompound = true := by
  cases twice <;> exact ⟨rfl, rfl, rfl⟩

theorem Repeat.of_array {items : List Phrase}
    (twice : Repeat name part (.array items) replaced after) :
    ∃ front back old new changed, items = front ++ old :: back ∧
      replaced = .array (front ++ new :: back) ∧ after = .array (front ++ changed :: back) ∧
      Repeat name (part.item front.length) old new changed := by
  cases twice with
  | item _ front back inner => exact ⟨front, back, _, _, _, rfl, rfl, rfl, inner⟩

theorem Repeat.of_object {members : List Member}
    (twice : Repeat name part (.object members) replaced after) :
    ∃ members' members'', replaced = .object members' ∧ after = .object members'' := by
  cases twice <;> exact ⟨_, _, rfl, rfl⟩

theorem Repeat.not_value (twice : Repeat name part before replaced after) : part ≠ .value := by
  induction twice with
  | behind _ isStructure | ahead _ isStructure =>
      rintro rfl
      cases isStructure
  | item _ _ _ _ ih =>
      rintro rfl
      exact ih rfl
  | member _ _ _ key _ ih =>
      rintro rfl
      exact ih (Part.member_value key.value)

end Kept

end Phrase

end SchemaDefaults
