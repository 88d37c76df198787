import SchemaDefaults.Model
import SchemaDefaults.Number.Decimal
import SchemaDefaults.Number.Float
import SchemaDefaults.Text
/-!
Conversion of schema lexical values into field literals. Surrounding white space is ignored for
every type except strings, whose value is the text itself. Numbers come out in canonical form.
Bounded integers go through a machine word, unbounded ones stay text. Floats are rounded once,
from the decimal text straight into the format of their kind; those of the smaller format are
then held in the larger one until they are written.
-/

namespace SchemaDefaults

structure InvalidLiteral where
  text : String
  type : FieldType
deriving DecidableEq, Repr

def InvalidLiteral.message (e : InvalidLiteral) : String :=
  "default value `" ++ e.text ++ "` is not a valid " ++ e.type.text ++ " literal"

namespace Conversion

open Number

def boolean? (text : List Char) : Option Literal :=
  if text = ['t', 'r', 'u', 'e'] ∨ text = ['1'] then some (.bool true)
  else if text = ['f', 'a', 'l', 's', 'e'] ∨ text = ['0'] then some (.bool false)
  else none

def inBounds (kind : IntegerKind) (value : Int) : Bool :=
  match kind.bounds with
  | some (least, greatest) => least ≤ value && value ≤ greatest
  | none => true

-- The form is checked before the word is read.
def boundedDigits? (kind : IntegerKind) (text : List Char) : Option (List Char) :=
  (Integer.read? text).bind fun _ =>
    (Word.read? text).bind fun word => if inBounds kind word then some (Word.text word) else none

def unboundedDigits? (text : List Char) : Option (List Char) :=
  (Integer.read? text).map Integer.canonical

def integer? (kind : IntegerKind) (text : List Char) : Option Literal :=
  let digits? := match kind with
    | .big => unboundedDigits? text
    | bounded => boundedDigits? bounded text
  digits?.map fun digits => .integer kind (String.ofList digits)

def decimal? (text : List Char) : Option Literal :=
  (Decimal.read? text).map fun d => .decimal (String.ofList d.canonical)

def special? (text : List Char) : Option String :=
  if text = ['I', 'N', 'F'] ∨ text = ['+', 'I', 'N', 'F'] then some "INF"
  else if text = ['-', 'I', 'N', 'F'] then some "-INF"
  else if text = ['N', 'a', 'N'] then some "NaN"
  else none

def floatName (infinite : Nat) (text : FloatValue → List Char) (value : FloatValue) : String :=
  if value = .signed false infinite then "INF"
  else if value = .signed true infinite then "-INF"
  else String.ofList (text value)

def floatText? (kind : FloatKind) (text : List Char) : Option String :=
  match kind with
  | .float =>
    (binary32.read? text).map fun value =>
      floatName binary64.infinite
        (fun wide => (wide.moved binary64 binary32).text binary32 literalStyle)
        (value.moved binary32 binary64)
  | .double =>
    (binary64.read? text).map fun value =>
      floatName binary64.infinite (·.text binary64 literalStyle) value

-- The form is checked before the value is read: the reader knows more names than a schema.
def float? (kind : FloatKind) (text : List Char) : Option Literal :=
  match special? text with
  | some name => some (.float kind name)
  | none =>
    (Scientific.read? text).bind fun _ => (floatText? kind text).map fun name => .float kind name

def enumConstant? (e : EnumType) (text : String) : Option Literal :=
  (e.constants.find? (·.value = text)).map fun c => .enumConstant e.name c.constant

def literal? (lexical : String) (type : FieldType) : Option Literal :=
  let text := Text.trim lexical.toList
  match type with
  | .boolean => boolean? text
  | .integer kind => integer? kind text
  | .float kind => float? kind text
  | .decimal => decimal? text
  | .string => some (.string lexical)
  | .enum e => enumConstant? e (String.ofList text)

end Conversion

def convert (lexical : String) (type : FieldType) : Except InvalidLiteral Literal :=
  match Conversion.literal? lexical type with
  | some literal => .ok literal
  | none => .error ⟨lexical, type⟩

theorem convert_ok_iff (lexical : String) (type : FieldType) (literal : Literal) :
    convert lexical type = .ok literal ↔ Conversion.literal? lexical type = some literal := by
  unfold convert
  cases Conversion.literal? lexical type <;> simp

theorem convert_error_iff (lexical : String) (type : FieldType) (e : InvalidLiteral) :
    convert lexical type = .error e ↔
      Conversion.literal? lexical type = none ∧ e = ⟨lexical, type⟩ := by
  unfold convert
  cases Conversion.literal? lexical type <;> simp [eq_comm]

end SchemaDefaults
