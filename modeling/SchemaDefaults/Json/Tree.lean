import SchemaDefaults.Json.Token
/-!
The tree of a JSON text, up to its first fault. Where the text stops being JSON, the tree has a
broken node, a broken key or an array or object that does not close; nothing stands behind it,
so whoever walks the tree in reading order meets the faults in the order of the text.
-/

namespace SchemaDefaults

/-- What stands where an object's key belongs. Something other than a string is no key; it is
kept for the one reader that takes it for a value. -/
inductive Key where
  | text (kept : Except Fault String)
  | broken (fault : Break)
  | stray (found : Except Fault Found)

namespace Key

def kept : Key → Except Fault String
  | .text kept => kept
  | .broken fault => .error fault.kept
  | .stray _ => .error .malformed

def passed : Key → Except Fault Unit
  | .text _ => .ok ()
  | .broken fault => .error fault.passed
  | .stray _ => .error .malformed

end Key

/-- `ending` is the fault found where a comma or the closing bracket belongs, and a `stump` is a
number or word that breaks off. -/
inductive Tree where
  | null
  | bool (value : Bool)
  | number (kept : Except Fault JsonNumber)
  | string (kept : Except Fault String)
  | array (items : List Tree) (ending : Option Fault)
  | object (members : List (Key × Tree)) (ending : Option Fault)
  | stump (fault : Break)
  | broken (fault : Break)
deriving Inhabited

namespace Tree

def unreadable (fault : Fault) : Tree := .broken (.both fault)

section Building

/-- An array or object around the place of the next token, with what it has so far in reverse. -/
inductive Frame where
  | array (items : List Tree)
  | object (members : List (Key × Tree)) (key : Key)

inductive Expect where
  | value
  | firstItem
  | afterItem (items : List Tree)
  | firstKey
  | key (members : List (Key × Tree))
  | colon (members : List (Key × Tree)) (key : Key)
  | afterMember (members : List (Key × Tree))
  | finished (whole : Tree)
  | stopped (whole : Tree)

structure Place where
  expect : Expect
  stack : List Frame

def complete (value : Tree) : List Frame → Place
  | [] => ⟨.finished value, []⟩
  | .array items :: up => ⟨.afterItem (value :: items), up⟩
  | .object members key :: up => ⟨.afterMember ((key, value) :: members), up⟩

def wrap (value : Tree) : List Frame → Tree
  | [] => value
  | .array items :: up => wrap (.array (value :: items).reverse none) up
  | .object members key :: up => wrap (.object ((key, value) :: members).reverse none) up

def stopWith (value : Tree) (stack : List Frame) : Place := ⟨.stopped (wrap value stack), []⟩

def startValue (token : Token) (stack : List Frame) : Place :=
  match token with
  | .openBracket => ⟨.firstItem, stack⟩
  | .openBrace => ⟨.firstKey, stack⟩
  | .null => complete .null stack
  | .bool value => complete (.bool value) stack
  | .number kept => complete (.number kept) stack
  | .string kept => complete (.string kept) stack
  | .brokenString fault => stopWith (.broken fault) stack
  | .broken fault => stopWith (.stump fault) stack
  | .closeBrace | .closeBracket | .comma | .colon => stopWith (unreadable .malformed) stack

def strayKey : Token → Key
  | .null => .stray (.ok .null)
  | .bool value => .stray (.ok (.bool value))
  | .number kept => .stray (kept.map .number)
  | .openBracket => .stray (.ok .sequence)
  | .openBrace => .stray (.ok .map)
  | .broken fault => .stray (.error fault.kept)
  | .brokenString fault => .broken fault
  | _ => .broken (.both .malformed)

def startKey (token : Token) (members : List (Key × Tree)) (stack : List Frame) : Place :=
  match token with
  | .string kept => ⟨.colon members (.text kept), stack⟩
  -- Nothing stands in the place of the value behind a key that is no string.
  | other =>
    stopWith (.object ((strayKey other, unreadable .malformed) :: members).reverse none) stack

def advance (place : Place) (token : Token) : Place :=
  match place.expect, token with
  | .value, token => startValue token place.stack
  | .firstItem, .closeBracket => complete (.array [] none) place.stack
  | .firstItem, token => startValue token (.array [] :: place.stack)
  | .afterItem items, .comma => ⟨.value, .array items :: place.stack⟩
  | .afterItem items, .closeBracket => complete (.array items.reverse none) place.stack
  | .afterItem items, _ => stopWith (.array items.reverse (some .malformed)) place.stack
  | .firstKey, .closeBrace => complete (.object [] none) place.stack
  | .firstKey, token => startKey token [] place.stack
  | .key members, token => startKey token members place.stack
  | .colon members key, .colon => ⟨.value, .object members key :: place.stack⟩
  | .colon members key, _ => stopWith (unreadable .malformed) (.object members key :: place.stack)
  | .afterMember members, .comma => ⟨.key members, place.stack⟩
  | .afterMember members, .closeBrace => complete (.object members.reverse none) place.stack
  | .afterMember members, _ => stopWith (.object members.reverse (some .malformed)) place.stack
  | .finished whole, _ => ⟨.stopped whole, []⟩
  | .stopped whole, _ => ⟨.stopped whole, []⟩

def closeAt (place : Place) : Tree :=
  match place.expect with
  | .value => wrap (unreadable .cutShort) place.stack
  | .firstItem => wrap (.array [] (some .cutShort)) place.stack
  | .afterItem items => wrap (.array items.reverse (some .cutShort)) place.stack
  | .firstKey => wrap (.object [] (some .cutShort)) place.stack
  | .key members =>
    let broken := (Key.broken (.both .cutShort), unreadable .cutShort)
    wrap (.object (broken :: members).reverse none) place.stack
  | .colon members key => wrap (unreadable .cutShort) (.object members key :: place.stack)
  | .afterMember members => wrap (.object members.reverse (some .cutShort)) place.stack
  | .finished whole => whole
  | .stopped whole => whole

/-- The tree, and whether the text goes on behind the value. -/
def build (place : Place) : List Token → Tree × Bool
  | [] => (closeAt place, false)
  | token :: rest =>
    match place.expect with
    | .finished whole => (whole, true)
    | .stopped whole => (whole, false)
    | _ => build (advance place token) rest

def ofTokens (tokens : List Token) : Tree × Bool := build ⟨.value, []⟩ tokens

def ofText (text : List Char) : Tree × Bool := ofTokens (Token.scan text)

end Building

section Walking

def checkEnding (ending : Option Fault) : Except Fault Unit :=
  match ending with
  | none => .ok ()
  | some fault => .error fault

mutual

def pass : Tree → Except Fault Unit
  | .array items ending => do
    passItems items
    checkEnding ending
  | .object members ending => do
    passMembers members
    checkEnding ending
  | .stump fault | .broken fault => .error fault.passed
  | .null | .bool _ | .number _ | .string _ => .ok ()

def passItems : List Tree → Except Fault Unit
  | [] => .ok ()
  | item :: rest => do
    pass item
    passItems rest

def passMembers : List (Key × Tree) → Except Fault Unit
  | [] => .ok ()
  | (key, value) :: rest => do
    key.passed
    pass value
    passMembers rest

end

/-- Enters an array or object; too deep a nesting counts as malformed. -/
def enter : Nat → Except Fault Nat
  | 0 => .error .malformed
  | levels + 1 => .ok levels

/-- The levels of nesting that a text may have where its values are kept. -/
def depthLimit : Nat := 127

mutual

def keep (levels : Nat) : Tree → Except Fault Json
  | .null => .ok .null
  | .bool value => .ok (.bool value)
  | .number kept => kept.map .number
  | .string kept => kept.map .string
  | .array items ending => do
    let levels ← enter levels
    let items ← keepItems levels items
    checkEnding ending
    return .array items
  | .object members ending => do
    let levels ← enter levels
    let members ← keepMembers levels members
    checkEnding ending
    return .object members
  | .stump fault | .broken fault => .error fault.kept

def keepItems (levels : Nat) : List Tree → Except Fault (List Json)
  | [] => .ok []
  | item :: rest => do
    let value ← keep levels item
    let values ← keepItems levels rest
    return value :: values

def keepMembers (levels : Nat) : List (Key × Tree) → Except Fault (List (String × Json))
  | [] => .ok []
  | (key, item) :: rest => do
    let name ← key.kept
    let value ← keep levels item
    let values ← keepMembers levels rest
    return (name, value) :: values

end

def found : Tree → Except Fault Found
  | .null => .ok .null
  | .bool value => .ok (.bool value)
  | .number kept => kept.map .number
  | .string kept => kept.map .string
  | .array _ _ => .ok .sequence
  | .object _ _ => .ok .map
  | .stump fault | .broken fault => .error fault.kept

/-- The fault of a value that does not fit; a fault of the text itself comes first. -/
def refuse {α : Type} (tree : Tree) (expected : String) : Except Fault α := do
  let found ← tree.found
  throw (.mismatch (.wrongType found expected))

end Walking

end Tree

end SchemaDefaults
