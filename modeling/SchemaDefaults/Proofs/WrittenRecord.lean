import SchemaDefaults.Json.Record
import SchemaDefaults.Model.Json
import SchemaDefaults.Proofs.TreeTokens
import SchemaDefaults.Proofs.WrittenTokens
/-!
Trees of written values. The tokens of a value build its tree, in which nothing is broken, and a
reader that keeps the tree has the value back if it may go deep enough.
Records that have been written. A record is written with its members in the order of the slots,
and leaves out some of those that have a default. Reading it fills every slot with what the
member says or else with the default. The same holds of the members of a tagged value, which are
read from kept values and not from trees.
-/

namespace SchemaDefaults

namespace Json

mutual

/-- The tree of a text that says just this value. -/
def tree : Json → Tree
  | .null => .null
  | .bool value => .bool value
  | .number value => .number (.ok value)
  | .string value => .string (.ok value)
  | .array items => .array (itemTrees items) none
  | .object members => .object (memberTrees members) none

def itemTrees : List Json → List Tree
  | [] => []
  | item :: rest => tree item :: itemTrees rest

def memberTrees : List (String × Json) → List (Key × Tree)
  | [] => []
  | (key, value) :: rest => (.text (.ok key), tree value) :: memberTrees rest

end

end Json

namespace Tree

open Json

mutual

theorem tokens_written : (value : Json) → value.tree.tokens = value.tokens
  | .null | .bool _ | .number _ | .string _ | .array [] | .object [] => rfl
  | .array (item :: rest) => by
      simp [Json.tree, itemTrees, tokens, itemTokens, Json.tokens, tokens_written item,
        laterItemTokens_written rest]
  | .object ((key, value) :: rest) => by
      simp [Json.tree, memberTrees, tokens, memberTokens, Key.tokens, Json.tokens,
        tokens_written value, laterMemberTokens_written rest]

theorem laterItemTokens_written : (items : List Json) →
    laterItemTokens (itemTrees items) = Json.itemTokens items
  | [] => rfl
  | item :: rest => by
      simp [itemTrees, laterItemTokens, Json.itemTokens, tokens_written item,
        laterItemTokens_written rest]

theorem laterMemberTokens_written : (members : List (String × Json)) →
    laterMemberTokens (memberTrees members) = Json.memberTokens members
  | [] => rfl
  | (key, value) :: rest => by
      simp [memberTrees, laterMemberTokens, Key.tokens, Json.memberTokens, tokens_written value,
        laterMemberTokens_written rest]

end

mutual

theorem whole_written : (value : Json) → Whole value.tree
  | .null | .bool _ | .number _ | .string _ => rfl
  | .array items => (whole_array_iff _ _).mpr ⟨wholeItems_written items, rfl⟩
  | .object members => (whole_object_iff _ _).mpr ⟨wholeMembers_written members, rfl⟩

theorem wholeItems_written : (items : List Json) → ∀ item ∈ itemTrees items, Whole item
  | [] => List.forall_mem_nil _
  | item :: rest => List.forall_mem_cons.mpr ⟨whole_written item, wholeItems_written rest⟩

theorem wholeMembers_written : (members : List (String × Json)) →
    ∀ member ∈ memberTrees members, member.1.passed = .ok () ∧ Whole member.2
  | [] => List.forall_mem_nil _
  | (_, value) :: rest =>
    List.forall_mem_cons.mpr ⟨⟨rfl, whole_written value⟩, wholeMembers_written rest⟩

end

theorem ofText_written (pretty : Bool) (value : Json) (natural : value.Natural)
    (blanks : List Char) (blank : ∀ c ∈ blanks, Token.isBlank c = true) :
    ofText ((value.text pretty).toList ++ blanks) = (value.tree, false) := by
  rw [ofText, Token.scan_text pretty value natural blanks blank, ← tokens_written]
  exact ofTokens_tokens value.tree (whole_written value)

end Tree

namespace Slot

variable (levels : Nat)

/-- Members that, read as trees, give these values to the slots. -/
inductive Written : (slots : List (Slot Tree)) → Members → Values slots → Prop where
  | nil : Written [] [] ()
  | present (slot : Slot Tree) {slots : List (Slot Tree)} {members : Members}
      {value : slot.Value} {others : Values slots} {json : Json} (natural : json.Natural)
      (read : slot.read levels json.tree = .ok value) (rest : Written slots members others) :
      Written (slot :: slots) ((slot.name, json) :: members) (value, others)
  | absent (slot : Slot Tree) {slots : List (Slot Tree)} {members : Members}
      {value : slot.Value} {others : Values slots} (default : slot.absent = some value)
      (rest : Written slots members others) :
      Written (slot :: slots) members (value, others)

open Json (memberTrees)
open Reader (fillMembers)

theorem fill_first (slot : Slot Tree) (slots : List (Slot Tree)) (others : Filling slots)
    (source : Tree) (value : slot.Value) (read : slot.read levels source = .ok value) :
    fill Tree.pass levels (slot :: slots) (none, others) slot.name source =
      .ok (some value, others) := by
  simp only [fill, ↓reduceIte, read]
  rfl

theorem fillMembers_cons (slots : List (Slot Tree)) (before next : Filling slots)
    (name : String) (json : Json) (rest : Members)
    (filled : fill Tree.pass levels slots before name json.tree = .ok next) :
    fillMembers slots levels before (memberTrees ((name, json) :: rest)) =
      fillMembers slots levels next (memberTrees rest) := by
  simp only [memberTrees, fillMembers, Key.kept, bind, Except.bind, filled]

/-- Members of other slots pass by a slot. -/
theorem fillMembers_others (slot : Slot Tree) (slots : List (Slot Tree))
    (value : Option slot.Value) (before after : Filling slots) (members : Members)
    (named : ∀ member ∈ members, slot.name ≠ member.1)
    (filled : fillMembers slots levels before (memberTrees members) = .ok after) :
    fillMembers (slot :: slots) levels (value, before) (memberTrees members) =
      .ok (value, after) := by
  induction members generalizing before with
  | nil =>
      simp only [memberTrees, fillMembers, Except.ok.injEq] at filled ⊢
      rw [filled]
  | cons member rest ih =>
      have differs := named member List.mem_cons_self
      have later : ∀ other ∈ rest, slot.name ≠ other.1 := fun other inside =>
        named other (List.mem_cons_of_mem member inside)
      cases first : fill Tree.pass levels slots before member.1 member.2.tree with
      | error fault =>
          simp [memberTrees, fillMembers, Key.kept, bind, Except.bind, first] at filled
      | ok next =>
          have passed : fill Tree.pass levels (slot :: slots) (value, before) member.1
              member.2.tree = .ok (value, next) := by
            simp only [fill, differs, ↓reduceIte, first]
            rfl
          rw [fillMembers_cons levels slots before next member.1 member.2 rest first] at filled
          rw [fillMembers_cons levels _ _ _ member.1 member.2 rest passed]
          exact ih next later filled

namespace Written

variable {levels} {slots : List (Slot Tree)} {members : Members} {values : Values slots}

theorem natural (written : Written levels slots members values) :
    Json.NaturalMembers members := by
  induction written with
  | nil => trivial
  | present slot natural read rest ih => exact ⟨natural, ih⟩
  | absent slot default rest ih => exact ih

theorem named (written : Written levels slots members values) (member : String × Json)
    (inside : member ∈ members) : member.1 ∈ slots.map name := by
  induction written with
  | nil => simp at inside
  | present slot natural read rest ih =>
      rcases List.mem_cons.mp inside with rfl | later
      · exact List.mem_cons_self
      · exact List.mem_cons_of_mem _ (ih later)
  | absent slot default rest ih => exact List.mem_cons_of_mem _ (ih inside)

theorem elsewhere (written : Written levels slots members values) (slot : Slot Tree)
    (fresh : slot.name ∉ slots.map name) : ∀ member ∈ members, slot.name ≠ member.1 := by
  intro member inside same
  exact fresh (same ▸ written.named member inside)

/-- If no two slots share a name, each member goes to its own. -/
theorem filled (written : Written levels slots members values)
    (distinct : (slots.map name).Nodup) :
    ∃ filling, fillMembers slots levels (unfilled slots) (memberTrees members) = .ok filling ∧
      finish slots filling = .ok values := by
  induction written with
  | nil => exact ⟨(), rfl, rfl⟩
  | @present slot slots members value others json natural read rest ih =>
      obtain ⟨fresh, distinctRest⟩ := List.nodup_cons.mp distinct
      obtain ⟨filling, taken, finished⟩ := ih distinctRest
      have first := fill_first levels slot slots (unfilled slots) json.tree value read
      refine ⟨(some value, filling), ?_, ?_⟩
      · rw [unfilled, fillMembers_cons levels _ _ _ slot.name json members first]
        exact fillMembers_others levels slot slots _ _ filling members
          (rest.elsewhere slot fresh) taken
      · simp only [finish, finished]
        rfl
  | @absent slot slots members value others default rest ih =>
      obtain ⟨fresh, distinctRest⟩ := List.nodup_cons.mp distinct
      obtain ⟨filling, taken, finished⟩ := ih distinctRest
      refine ⟨(none, filling), ?_, ?_⟩
      · exact fillMembers_others levels slot slots none _ filling members
          (rest.elsewhere slot fresh) taken
      · simp only [finish, default, finished]
        rfl

end Written

end Slot

namespace Reader

variable {α : Type}

/-- The reader takes back what is encoded, where so many levels of nesting are left. Nothing is
encoded as a null, which an optional reader would take for an absent value. -/
structure Inverts (read : Reader α) (encode : α → Json) (depth : Nat) : Prop where
  natural : ∀ value, (encode value).Natural
  present : ∀ value, encode value ≠ .null
  takes : ∀ levels value, depth ≤ levels → read levels (encode value).tree = .ok value

theorem string_inverts : Inverts string .string 0 :=
  ⟨fun _ => trivial, nofun, fun _ _ _ => rfl⟩

theorem bool_inverts : Inverts bool .bool 0 :=
  ⟨fun _ => trivial, nofun, fun _ _ _ => rfl⟩

theorem word32_inverts : Inverts word32 (fun word => .number (.natural word.toNat)) 0 := by
  refine ⟨?_, nofun, ?_⟩
  · intro word
    have bound := word.toNat_lt
    exact Nat.le_of_lt (Nat.lt_of_lt_of_le bound (by decide))
  · intro levels word _
    have bound : word.toNat < UInt32.size := word.toNat_lt
    simp only [Json.tree, word32, bind, Except.bind, bound, ↓reduceIte, UInt32.ofNat_toNat]
    rfl

theorem Inverts.takes_some {read : Reader α} {encode : α → Json} {depth : Nat}
    (inverts : Inverts read encode depth) (levels : Nat) (value : α) (deep : depth ≤ levels) :
    optional read levels (encode value).tree = .ok (some value) := by
  have taken := inverts.takes levels value deep
  have present := inverts.present value
  unfold optional
  split
  · rename_i null
    cases encoded : encode value <;> simp_all [Json.tree]
  · rw [taken]
    rfl

theorem Inverts.list {read : Reader α} {encode : α → Json} {depth : Nat}
    (inverts : Inverts read encode depth) :
    Inverts (list read) (fun values => .array (values.map encode)) (depth + 1) := by
  refine ⟨?_, nofun, ?_⟩
  · intro values
    induction values with
    | nil => trivial
    | cons value rest ih => exact ⟨inverts.natural value, ih⟩
  · intro levels values deep
    obtain ⟨inner, rfl⟩ : ∃ inner, levels = inner + 1 := ⟨levels - 1, by omega⟩
    have taken : items read inner (Json.itemTrees (values.map encode)) = .ok values := by
      induction values with
      | nil => rfl
      | cons value rest ih =>
          simp only [List.map_cons, Json.itemTrees, items,
            inverts.takes inner value (by omega), ih]
          rfl
    simp only [Json.tree, Reader.list, Tree.enter, bind, Except.bind, taken]
    rfl

/-- An ordered map is written in the order of its keys, so no entry replaces another one. -/
theorem map_inverts : Inverts (map string) Attributes.toJson 1 := by
  refine ⟨?_, nofun, ?_⟩
  · intro attributes
    simp only [Attributes.toJson, Json.Natural]
    induction attributes.entries with
    | nil => trivial
    | cons entry rest ih => exact ⟨trivial, ih⟩
  · intro levels attributes deep
    obtain ⟨inner, rfl⟩ : ∃ inner, levels = inner + 1 := ⟨levels - 1, by omega⟩
    have taken (pairs : List (String × String)) : entries string inner
        (Json.memberTrees (pairs.map fun entry => (entry.1, .string entry.2))) = .ok pairs := by
      induction pairs with
      | nil => rfl
      | cons entry rest ih =>
          simp only [List.map_cons, Json.memberTrees, entries, ih]
          rfl
    simp only [Attributes.toJson, Json.tree, Reader.map, Tree.enter, bind, Except.bind, taken]
    exact congrArg Except.ok attributes.ofList_entries

theorem record_inverts {what : String} {slots : List (Slot Tree)}
    {make : Slot.Values slots → α} {encode : α → Json} {depth : Nat}
    (distinct : (slots.map Slot.name).Nodup)
    (written : ∀ levels value, depth ≤ levels → ∃ members values,
      encode value = .object members ∧ make values = value ∧
        Slot.Written levels slots members values) :
    Inverts (record what slots make) encode (depth + 1) := by
  refine ⟨?_, ?_, ?_⟩
  · intro value
    obtain ⟨members, values, encoded, _, all⟩ := written depth value (Nat.le_refl depth)
    rw [encoded]
    exact all.natural
  · intro value
    obtain ⟨members, values, encoded, _⟩ := written depth value (Nat.le_refl depth)
    rw [encoded]
    nofun
  · intro levels value deep
    obtain ⟨inner, rfl⟩ : ∃ inner, levels = inner + 1 := ⟨levels - 1, by omega⟩
    obtain ⟨members, values, encoded, made, all⟩ := written inner value (by omega)
    obtain ⟨filling, taken, finished⟩ := all.filled distinct
    simp only [encoded, Json.tree, record, Tree.enter, bind, Except.bind, taken,
      Tree.checkEnding, finished]
    rw [← made]
    rfl

end Reader

namespace Slot.Written

variable {α : Type} {read : Reader α} {encode : α → Json} {depth levels : Nat}
  {slots : List (Slot Tree)} {members : Members} {others : Values slots}

theorem required (inverts : read.Inverts encode depth) (deep : depth ≤ levels) (name : String)
    (value : α) (rest : Written levels slots members others) :
    Written levels (Reader.required name read :: slots) ((name, encode value) :: members)
      (value, others) :=
  .present (Reader.required name read) (inverts.natural value)
    (inverts.takes levels value deep) rest

theorem defaulted (inverts : read.Inverts encode depth) (deep : depth ≤ levels) (name : String)
    (value absent : α) (rest : Written levels slots members others) :
    Written levels (Reader.defaulted name read absent :: slots)
      ((name, encode value) :: members) (value, others) :=
  .present (Reader.defaulted name read absent) (inverts.natural value)
    (inverts.takes levels value deep) rest

theorem spared (inverts : read.Inverts encode depth) (deep : depth ≤ levels) (name : String)
    (value absent : α) (skip : Bool) (silent : skip = true → value = absent)
    (rest : Written levels slots members others) :
    Written levels (Reader.defaulted name read absent :: slots)
      (memberUnless skip name (encode value) ++ members) (value, others) := by
  cases skip with
  | false => exact defaulted inverts deep name value absent rest
  | true =>
      rw [silent rfl]
      exact .absent (Reader.defaulted name read absent) rfl rest

theorem optional (inverts : read.Inverts encode depth) (deep : depth ≤ levels) (name : String)
    (value : Option α) (rest : Written levels slots members others) :
    Written levels (Reader.defaulted name (Reader.optional read) none :: slots)
      (optionalMember name encode value ++ members) (value, others) := by
  cases value with
  | none => exact .absent (Reader.defaulted name (Reader.optional read) none) rfl rest
  | some value =>
      exact .present (Reader.defaulted name (Reader.optional read) none)
        (inverts.natural value) (inverts.takes_some levels value deep) rest

end Slot.Written

namespace Tagged

/-- Text or a truth value: all that the members of a tagged value are. -/
def Scalar : Json → Prop
  | .string _ | .bool _ => True
  | _ => False

theorem keep_scalar (levels : Nat) (value : Json) (scalar : Scalar value) :
    value.tree.keep levels = .ok value := by
  cases value with
  | string text => rfl
  | bool truth => rfl
  | null | number _ | array _ | object _ => exact scalar.elim

theorem split_written (tag : String) (known : List String) (levels : Nat) (name : String)
    (others : Members) (plain : ∀ member ∈ others, member.1 ≠ tag ∧ Scalar member.2) :
    split tag known levels (some name) (Json.memberTrees others) = .ok (some name, others) := by
  induction others with
  | nil => rfl
  | cons member rest ih =>
      obtain ⟨differs, scalar⟩ := plain member List.mem_cons_self
      have later := ih fun other inside => plain other (List.mem_cons_of_mem member inside)
      simp only [Json.memberTrees, split, Key.kept, bind, Except.bind, differs, ↓reduceIte,
        keep_scalar levels member.2 scalar, later]
      rfl

theorem content_written (what tag : String) (known : List String) (levels : Nat)
    (name : String) (others : Members) (listed : name ∈ known)
    (plain : ∀ member ∈ others, member.1 ≠ tag ∧ Scalar member.2) :
    content what tag known (levels + 1) (Json.object ((tag, .string name) :: others)).tree =
      .ok (name, .members others) := by
  have named : variant known levels (.string (.ok name)) = .ok name := by
    simp only [variant, bind, Except.bind, listed, ↓reduceIte]
    rfl
  have rest := split_written tag known levels name others plain
  simp only [Json.tree, Json.memberTrees, content, Tree.enter, bind, Except.bind, split, Key.kept,
    ↓reduceIte, named, rest, Tree.checkEnding]
  rfl

theorem naturalMembers_scalar (tag : String) (members : Members)
    (plain : ∀ member ∈ members, member.1 ≠ tag ∧ Scalar member.2) :
    Json.NaturalMembers members := by
  induction members with
  | nil => trivial
  | cons member rest ih =>
      have scalar := (plain member List.mem_cons_self).2
      refine ⟨?_, ih fun other inside => plain other (List.mem_cons_of_mem member inside)⟩
      cases value : member.2 <;> simp_all [Scalar, Json.Natural]

/-- A tagged value is written with its tag first, and with scalar members behind it. -/
theorem tagged_inverts {α : Type} {what tag : String} {known : List String}
    {decode : String → Content → Except Fault α} {encode : α → Json}
    (written : ∀ value, ∃ name others,
      encode value = .object ((tag, .string name) :: others) ∧ name ∈ known ∧
        (∀ member ∈ others, member.1 ≠ tag ∧ Scalar member.2) ∧
        decode name (.members others) = .ok value) :
    Reader.Inverts
      (fun levels tree => do
        let (name, content) ← content what tag known levels tree
        decode name content)
      encode 1 := by
  refine ⟨?_, ?_, ?_⟩
  · intro value
    obtain ⟨name, others, encoded, _, plain, _⟩ := written value
    rw [encoded]
    exact ⟨trivial, naturalMembers_scalar tag others plain⟩
  · intro value
    obtain ⟨name, others, encoded, _⟩ := written value
    rw [encoded]
    nofun
  · intro levels value deep
    obtain ⟨inner, rfl⟩ : ∃ inner, levels = inner + 1 := ⟨levels - 1, by omega⟩
    obtain ⟨name, others, encoded, listed, plain, decoded⟩ := written value
    simp only [encoded, content_written what tag known inner name others listed plain, bind,
      Except.bind, decoded]

end Tagged

end SchemaDefaults
