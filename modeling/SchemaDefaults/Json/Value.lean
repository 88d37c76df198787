import SchemaDefaults.Number.Float
import SchemaDefaults.Text
/-!
JSON values and their two written forms: on one line without blanks, and over lines with an
indentation of two spaces. Members are written in the order of the list.

A text that is read can have a fault: it is malformed, or it ends inside a value, or a value does
not fit what is expected in its place. Only a fault of the last kind has a message of its own.
-/

namespace SchemaDefaults

/-- Whole numbers that fit in 64 bits are kept exactly; every other number, minus zero among
them, is a binary64 magnitude with a sign. -/
inductive JsonNumber where
  | natural (value : Nat)
  | negative (magnitude : Nat)
  | float (minus : Bool) (magnitude : Nat)
deriving DecidableEq, Repr

def JsonNumber.text : JsonNumber → List Char
  | .natural value => Nat.toDigits 10 value
  | .negative magnitude => '-' :: Nat.toDigits 10 magnitude
  | .float minus magnitude => Number.binary64.text Number.messageStyle minus magnitude

inductive Json where
  | null
  | bool (value : Bool)
  | number (value : JsonNumber)
  | string (value : String)
  | array (items : List Json)
  | object (members : List (String × Json))
deriving Inhabited

namespace Json

section Strings

def shortEscape? (c : Char) : Option Char :=
  if c = '"' then some '"'
  else if c = '\\' then some '\\'
  else if c = '\x08' then some 'b'
  else if c = '\x0c' then some 'f'
  else if c = '\n' then some 'n'
  else if c = '\r' then some 'r'
  else if c = '\t' then some 't'
  else none

def hexDigit (value : Nat) : Char := Nat.digitChar value

def escape (c : Char) : List Char :=
  match shortEscape? c with
  | some e => ['\\', e]
  | none =>
    if c.toNat < 0x20 then
      ['\\', 'u', '0', '0', hexDigit (c.toNat / 16), hexDigit (c.toNat % 16)]
    else [c]

def writeString (text : String) : List Char := '"' :: (text.toList.flatMap escape ++ ['"'])

end Strings

inductive Layout where
  | compact
  | indented (level : Nat)
deriving DecidableEq, Repr

namespace Layout

def deeper : Layout → Layout
  | compact => compact
  | indented level => indented (level + 1)

def lineBreak : Layout → List Char
  | compact => []
  | indented level => '\n' :: List.replicate (2 * level) ' '

def colon : Layout → List Char
  | compact => [':']
  | indented _ => [':', ' ']

end Layout

def writeBool (value : Bool) : List Char :=
  if value then ['t', 'r', 'u', 'e'] else ['f', 'a', 'l', 's', 'e']

mutual

def write (layout : Layout) : Json → List Char
  | .null => ['n', 'u', 'l', 'l']
  | .bool value => writeBool value
  | .number value => value.text
  | .string value => writeString value
  | .array [] => ['[', ']']
  | .array (item :: rest) =>
    '[' :: (layout.deeper.lineBreak ++ (write layout.deeper item ++
      (writeItems layout.deeper rest ++ (layout.lineBreak ++ [']']))))
  | .object [] => ['{', '}']
  | .object ((key, value) :: rest) =>
    '{' :: (layout.deeper.lineBreak ++ (writeString key ++ (layout.colon ++
      (write layout.deeper value ++
        (writeMembers layout.deeper rest ++ (layout.lineBreak ++ ['}']))))))

def writeItems (layout : Layout) : List Json → List Char
  | [] => []
  | item :: rest =>
    ',' :: (layout.lineBreak ++ (write layout item ++ writeItems layout rest))

def writeMembers (layout : Layout) : List (String × Json) → List Char
  | [] => []
  | (key, value) :: rest =>
    ',' :: (layout.lineBreak ++ (writeString key ++ (layout.colon ++
      (write layout value ++ writeMembers layout rest))))

end

def layout (pretty : Bool) : Layout := if pretty then .indented 0 else .compact

def text (pretty : Bool) (value : Json) : String := String.ofList (write (layout pretty) value)

end Json

inductive Found where
  | null
  | bool (value : Bool)
  | number (value : JsonNumber)
  | string (value : String)
  | sequence
  | map
  | unitVariant
deriving DecidableEq, Repr

inductive Mismatch where
  | wrongType (found : Found) (expected : String)
  | wrongValue (found : Found) (expected : String)
  | missing (member : String)
  | duplicate (member : String)
  | unknownVariant (name : String) (known : List String)
  | wrongLength (length : Nat) (expected : String)
deriving DecidableEq, Repr

inductive Fault where
  | malformed
  | cutShort
  | mismatch (mismatch : Mismatch)
deriving DecidableEq, Repr

def codeSpan (text : String) : String := "`" ++ text ++ "`"

def Found.text : Found → String
  | .null => "null"
  | .bool value => "boolean " ++ codeSpan (if value then "true" else "false")
  | .number (.float minus magnitude) =>
    "floating point " ++ codeSpan (String.ofList (JsonNumber.float minus magnitude).text)
  | .number value => "integer " ++ codeSpan (String.ofList value.text)
  | .string value => "string " ++ Text.quoted value
  | .sequence => "sequence"
  | .map => "map"
  | .unitVariant => "unit variant"

def expectedNames : List String → String
  | [] => "there are no variants"
  | [only] => "expected " ++ codeSpan only
  | [first, second] => "expected " ++ codeSpan first ++ " or " ++ codeSpan second
  | names => "expected one of " ++ ", ".intercalate (names.map codeSpan)

def elementCount (count : Nat) : String :=
  if count = 1 then "1 element" else toString count ++ " elements"

def Mismatch.message : Mismatch → String
  | .wrongType found expected => "invalid type: " ++ found.text ++ ", expected " ++ expected
  | .wrongValue found expected => "invalid value: " ++ found.text ++ ", expected " ++ expected
  | .missing member => "missing field " ++ codeSpan member
  | .duplicate member => "duplicate field " ++ codeSpan member
  | .unknownVariant name known =>
    "unknown variant " ++ codeSpan name ++ ", " ++ expectedNames known
  | .wrongLength length expected =>
    "invalid length " ++ toString length ++ ", expected " ++ expected

end SchemaDefaults
