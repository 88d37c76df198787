import SchemaDefaults.Json.Tree
import SchemaDefaults.SortedMap
/-!
Records: values with named members. The members of an object may come in any order, each at
most once, and unknown ones are passed over; an array gives the members in the order of the
slots. Both forms fill the same slots, and a slot left empty takes its default or is missing.

A tagged value is an object in which one member names the variant, or an array that begins with
the name. All other parts are kept until the whole value is there, so the tag may stand anywhere,
and are then read as the members of the variant. A choice without tag is a name alone, or an
object with the name as its only key.
-/

namespace SchemaDefaults

/-- A member of a record, read from a source of type `σ` with so many levels of nesting left. -/
structure Slot (σ : Type) where
  name : String
  Value : Type
  read : Nat → σ → Except Fault Value
  absent : Option Value

namespace Slot

variable {σ : Type}

def Values : List (Slot σ) → Type
  | [] => Unit
  | slot :: rest => slot.Value × Values rest

def Filling : List (Slot σ) → Type
  | [] => Unit
  | slot :: rest => Option slot.Value × Filling rest

def unfilled : (slots : List (Slot σ)) → Filling slots
  | [] => ()
  | _ :: rest => (none, unfilled rest)

/-- Takes in one member; `pass` goes over the value of an unknown one. -/
def fill (pass : σ → Except Fault Unit) (levels : Nat) : (slots : List (Slot σ)) →
    Filling slots → String → σ → Except Fault (Filling slots)
  | [], filling, _, source => do
    pass source
    return filling
  | slot :: rest, (value, others), name, source =>
    if slot.name = name then
      match value with
      | some _ => throw (.mismatch (.duplicate name))
      | none => do
        let value ← slot.read levels source
        return (some value, others)
    else do
      let others ← fill pass levels rest others name source
      return (value, others)

def finish : (slots : List (Slot σ)) → Filling slots → Except Fault (Values slots)
  | [], _ => .ok ()
  | slot :: rest, (value, others) =>
    match value <|> slot.absent with
    | none => throw (.mismatch (.missing slot.name))
    | some value => do
      let others ← finish rest others
      return (value, others)

/-- Reads the slots from a list of items; the items that are left over come back. An array that
is too short is found out at the first slot without default. -/
def ofItems (levels : Nat) (checkEnd : Except Fault Unit) (tooShort : Nat → Fault) :
    (index : Nat) → (slots : List (Slot σ)) → List σ → Except Fault (Values slots × List σ)
  | _, [], items => .ok ((), items)
  | index, slot :: rest, item :: items => do
    let value ← slot.read levels item
    let (others, extra) ← ofItems levels checkEnd tooShort (index + 1) rest items
    return ((value, others), extra)
  | index, slot :: rest, [] => do
    -- A text that breaks off behind the last item is at fault before the length is.
    checkEnd
    match slot.absent with
    | none => throw (tooShort index)
    | some value => do
      let (others, extra) ← ofItems levels checkEnd tooShort (index + 1) rest []
      return ((value, others), extra)

end Slot

/-- Reads a value from a tree; the number counts the levels of nesting that are left. -/
abbrev Reader (α : Type) := Nat → Tree → Except Fault α

namespace Reader

def string : Reader String
  | _, .string kept => kept
  | _, tree => tree.refuse "a string"

def bool : Reader Bool
  | _, .bool value => .ok value
  | _, tree => tree.refuse "a boolean"

def word32 : Reader UInt32
  | _, .number kept => do
    match ← kept with
    | .natural value =>
      if value < UInt32.size then return UInt32.ofNat value
      else throw (.mismatch (.wrongValue (.number (.natural value)) "u32"))
    | .negative magnitude =>
      throw (.mismatch (.wrongValue (.number (.negative magnitude)) "u32"))
    | other => throw (.mismatch (.wrongType (.number other) "u32"))
  | _, tree => tree.refuse "u32"

def optional {α : Type} (read : Reader α) : Reader (Option α)
  | _, .null => .ok none
  | levels, tree => (read levels tree).map some

def items {α : Type} (read : Reader α) (levels : Nat) : List Tree → Except Fault (List α)
  | [] => .ok []
  | item :: rest => do
    let value ← read levels item
    let values ← items read levels rest
    return value :: values

def list {α : Type} (read : Reader α) : Reader (List α)
  | levels, .array items ending => do
    let levels ← Tree.enter levels
    let values ← Reader.items read levels items
    Tree.checkEnding ending
    return values
  | _, tree => tree.refuse "a sequence"

def entries {α : Type} (read : Reader α) (levels : Nat) :
    List (Key × Tree) → Except Fault (List (String × α))
  | [] => .ok []
  | (key, item) :: rest => do
    let name ← key.kept
    let value ← read levels item
    let values ← entries read levels rest
    return (name, value) :: values

/-- An object with arbitrary keys; the last member of a name counts. -/
def map {α : Type} (read : Reader α) : Reader (SortedMap String α)
  | levels, .object members ending => do
    let levels ← Tree.enter levels
    let values ← entries read levels members
    Tree.checkEnding ending
    return SortedMap.ofList values
  | _, tree => tree.refuse "a map"

def fillMembers (slots : List (Slot Tree)) (levels : Nat) :
    Slot.Filling slots → List (Key × Tree) → Except Fault (Slot.Filling slots)
  | filling, [] => .ok filling
  | filling, (key, value) :: rest => do
    let name ← key.kept
    let filling ← Slot.fill Tree.pass levels slots filling name value
    fillMembers slots levels filling rest

def record {α : Type} (what : String) (slots : List (Slot Tree))
    (make : Slot.Values slots → α) : Reader α
  | levels, .object members ending => do
    let levels ← Tree.enter levels
    let filling ← fillMembers slots levels (Slot.unfilled slots) members
    Tree.checkEnding ending
    let values ← Slot.finish slots filling
    return make values
  | levels, .array items ending => do
    let levels ← Tree.enter levels
    let expected := what ++ " with " ++ elementCount slots.length
    let (values, extra) ← Slot.ofItems levels (Tree.checkEnding ending)
      (fun index => .mismatch (.wrongLength index expected)) 0 slots items
    if extra.isEmpty then
      Tree.checkEnding ending
      return make values
    else throw .malformed
  | _, tree => tree.refuse what

def required {α : Type} (name : String) (read : Reader α) : Slot Tree := ⟨name, α, read, none⟩

def defaulted {α : Type} (name : String) (read : Reader α) (absent : α) : Slot Tree :=
  ⟨name, α, read, some absent⟩

end Reader

inductive Content where
  | members (members : List (String × Json))
  | items (items : List Json)

namespace Tagged

open Reader (fillMembers)

def variantName : String := "variant identifier"

def variant (known : List String) : Reader String
  | _, .string kept => do
    let name ← kept
    if name ∈ known then return name else throw (.mismatch (.unknownVariant name known))
  | _, tree => tree.refuse variantName

def split (tag : String) (known : List String) (levels : Nat) :
    Option String → List (Key × Tree) →
    Except Fault (Option String × List (String × Json))
  | name?, [] => .ok (name?, [])
  | name?, (key, value) :: rest => do
    let key ← key.kept
    if key = tag then
      match name? with
      | some _ => throw (.mismatch (.duplicate tag))
      | none => do
        let name ← variant known levels value
        split tag known levels (some name) rest
    else do
      -- The variant may not be known yet, so the value is kept as it stands.
      let value ← value.keep levels
      let (name?, others) ← split tag known levels name? rest
      return (name?, (key, value) :: others)

def content (what tag : String) (known : List String) : Reader (String × Content)
  | levels, .object members ending => do
    let levels ← Tree.enter levels
    let (name?, others) ← split tag known levels none members
    Tree.checkEnding ending
    match name? with
    | some name => return (name, .members others)
    | none => throw (.mismatch (.missing tag))
  | levels, .array [] ending => do
    discard (Tree.enter levels)
    Tree.checkEnding ending
    throw (.mismatch (.missing tag))
  | levels, .array (first :: rest) ending => do
    let levels ← Tree.enter levels
    let name ← variant known levels first
    let items ← Tree.keepItems levels rest
    Tree.checkEnding ending
    return (name, .items items)
  | _, tree => tree.refuse what

section Kept

def found : Json → Found
  | .null => .null
  | .bool value => .bool value
  | .number value => .number value
  | .string value => .string value
  | .array _ => .sequence
  | .object _ => .map

def refuse {α : Type} (value : Json) (expected : String) : Except Fault α :=
  throw (.mismatch (.wrongType (found value) expected))

def string : Json → Except Fault String
  | .string value => .ok value
  | value => refuse value "a string"

def bool : Json → Except Fault Bool
  | .bool value => .ok value
  | value => refuse value "a boolean"

def optional {α : Type} (read : Json → Except Fault α) : Json → Except Fault (Option α)
  | .null => .ok none
  | value => (read value).map some

def known (names : List String) : Json → Except Fault String
  | .string name =>
    if name ∈ names then .ok name else throw (.mismatch (.unknownVariant name names))
  | value => refuse value variantName

/-- One of several names; as the only key of an object it has an empty value. -/
def choice (names : List String) : Json → Except Fault String
  | .string name => known names (.string name)
  | .object [(name, value)] => do
    let name ← known names (.string name)
    match value with
    | .null | .object [] => return name
    | other => refuse other "unit"
  | .object _ => throw (.mismatch (.wrongValue .map "map with a single key"))
  | value => refuse value "string or map"

def fillKept (slots : List (Slot Json)) : Slot.Filling slots → List (String × Json) →
    Except Fault (Slot.Filling slots)
  | filling, [] => .ok filling
  | filling, (name, value) :: rest => do
    let filling ← Slot.fill (fun _ => .ok ()) 0 slots filling name value
    fillKept slots filling rest

def tooLong (count expected : Nat) : Fault :=
  .mismatch (.wrongLength count (elementCount expected ++ " in sequence"))

def members {α : Type} (what : String) (slots : List (Slot Json))
    (make : Slot.Values slots → α) : Content → Except Fault α
  | .members members => do
    let filling ← fillKept slots (Slot.unfilled slots) members
    let values ← Slot.finish slots filling
    return make values
  | .items items => do
    let expected := what ++ " with " ++ elementCount slots.length
    let (values, extra) ← Slot.ofItems 0 (.ok ())
      (fun index => .mismatch (.wrongLength index expected)) 0 slots items
    if extra.isEmpty then return make values else throw (tooLong items.length slots.length)

/-- A variant without members passes over the members of an object. -/
def nothing {α : Type} (value : α) : Content → Except Fault α
  | .members _ => .ok value
  | .items [] => .ok value
  | .items items => throw (tooLong items.length 0)

def required {α : Type} (name : String) (read : Json → Except Fault α) : Slot Json :=
  ⟨name, α, fun _ => read, none⟩

def defaulted {α : Type} (name : String) (read : Json → Except Fault α) (absent : α) :
    Slot Json :=
  ⟨name, α, fun _ => read, some absent⟩

end Kept

end Tagged

end SchemaDefaults
