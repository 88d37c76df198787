import SchemaDefaults.SortedMap
import SchemaDefaults.Text
/-!
The generated-class model: classes with their fields in declaration order, and with each field
the schema property that it was generated from, the declared type and the literal that
initializes it. Numbers are kept as canonical text, so that unbounded integers and decimals
survive unchanged. Customizations are schema annotations attached to a field out of band; one is
identified by the names of its class and field and by its position in the field's list.
-/

namespace SchemaDefaults

structure Location where
  systemId : Option String
  line : UInt32
  column : UInt32
deriving DecidableEq, Repr

def Location.text (l : Location) : String :=
  let position := toString l.line.toNat ++ ":" ++ toString l.column.toNat
  match l.systemId with
  | some id => id ++ ":" ++ position
  | none => position

inductive IntegerKind where
  | byte | short | int | long | big
deriving DecidableEq, Repr

inductive FloatKind where
  | float | double
deriving DecidableEq, Repr

structure EnumConstant where
  value : String
  constant : String
deriving DecidableEq, Repr

structure EnumType where
  name : String
  constants : List EnumConstant
deriving DecidableEq, Repr

inductive FieldType where
  | boolean
  | integer (kind : IntegerKind)
  | float (kind : FloatKind)
  | decimal
  | string
  | enum (type : EnumType)
deriving DecidableEq, Repr

def IntegerKind.bits? : IntegerKind → Option Nat
  | .byte => some 8
  | .short => some 16
  | .int => some 32
  | .long => some 64
  | .big => none

def IntegerKind.bounds (kind : IntegerKind) : Option (Int × Int) :=
  kind.bits?.map fun bits =>
    let half : Int := Nat.pow 2 (bits - 1)
    (-half, half - 1)

def IntegerKind.name : IntegerKind → String
  | .byte => "byte"
  | .short => "short"
  | .int => "int"
  | .long => "long"
  | .big => "big"

def FloatKind.name : FloatKind → String
  | .float => "float"
  | .double => "double"

/-- The word for a type without parts; the unbounded integer type is just `integer`. -/
def FieldType.word? : FieldType → Option String
  | .boolean => some "boolean"
  | .integer .big => some "integer"
  | .integer kind => some kind.name
  | .float kind => some kind.name
  | .decimal => some "decimal"
  | .string => some "string"
  | .enum _ => none

def FieldType.text (t : FieldType) : String :=
  match t with
  | .enum e => "enum " ++ e.name
  | other => other.word?.getD ""

inductive Literal where
  | bool (value : Bool)
  | integer (kind : IntegerKind) (digits : String)
  | float (kind : FloatKind) (text : String)
  | decimal (text : String)
  | string (value : String)
  | enumConstant (enumName constant : String)
deriving DecidableEq, Repr

def FloatKind.constantPath (kind : FloatKind) (constant : String) : String :=
  match kind with
  | .float => "f32::" ++ constant
  | .double => "f64::" ++ constant

def FloatKind.literalText (kind : FloatKind) (text : String) : String :=
  if text = "INF" then kind.constantPath "INFINITY"
  else if text = "-INF" then kind.constantPath "NEG_INFINITY"
  else if text = "NaN" then kind.constantPath "NAN"
  else text

def Literal.text : Literal → String
  | .bool value => if value then "true" else "false"
  | .integer _ digits => digits
  | .float kind text => kind.literalText text
  | .decimal text => text
  | .string value => Text.quoted value
  | .enumConstant enumName constant => enumName ++ "::" ++ constant

abbrev Attributes := SortedMap String String

structure Customization where
  namespaceUri : String
  tag : String
  attributes : Attributes
  location : Option Location
  acknowledged : Bool
deriving DecidableEq, Repr

def Customization.isNamed (c : Customization) (namespaceUri tag : String) : Bool :=
  c.namespaceUri = namespaceUri && c.tag = tag

structure CustomizationId where
  className : String
  fieldName : String
  ordinal : Nat
deriving DecidableEq, Repr

namespace CustomizationId

def text (id : CustomizationId) : String :=
  id.className ++ "." ++ id.fieldName ++ "#" ++ toString id.ordinal

instance : Ord CustomizationId where
  compare := compareLex (compareOn className)
    (compareLex (compareOn fieldName) (compareOn ordinal))

instance : Std.TransOrd CustomizationId :=
  inferInstanceAs (Std.TransCmp (compareLex (compareOn className)
    (compareLex (compareOn fieldName) (compareOn ordinal))))

theorem compare_eq (a b : CustomizationId) :
    compare a b = (compare a.className b.className).then
      ((compare a.fieldName b.fieldName).then (compare a.ordinal b.ordinal)) :=
  rfl

instance : Std.LawfulEqOrd CustomizationId where
  eq_of_compare {a b} same := by
    rw [compare_eq, Ordering.then_eq_eq, Ordering.then_eq_eq] at same
    obtain ⟨className, fieldName, ordinal⟩ := same
    cases a
    cases b
    cases Std.LawfulEqCmp.eq_of_compare className
    cases Std.LawfulEqCmp.eq_of_compare fieldName
    cases Std.LawfulEqCmp.eq_of_compare ordinal
    rfl

end CustomizationId

abbrev IdSet := SortedMap CustomizationId Unit

def IdSet.ofList (ids : List CustomizationId) : IdSet :=
  SortedMap.ofList (ids.map (·, ()))

/-- The kind of schema particle behind a field; an attribute may declare a default text. -/
inductive Property where
  | attribute (default : Option String)
  | element
  | other
deriving DecidableEq, Repr

structure Declaration where
  type : FieldType
  initializer : Option Literal
deriving DecidableEq, Repr

/-- A field without a declaration is a property for which no field was generated. -/
structure Field where
  name : String
  property : Property
  customizations : List Customization
  location : Option Location
  declaration : Option Declaration
deriving DecidableEq, Repr

structure GeneratedClass where
  name : String
  location : Option Location
  fields : List Field
deriving DecidableEq, Repr

structure Document where
  classes : List GeneratedClass
deriving DecidableEq, Repr

def Field.type? (f : Field) : Option FieldType := f.declaration.map (·.type)

def Field.initializer? (f : Field) : Option Literal := f.declaration.bind (·.initializer)

def Field.inject (f : Field) (literal : Literal) : Field :=
  { f with declaration := f.declaration.map ({ · with initializer := some literal }) }

def GeneratedClass.field? (c : GeneratedClass) (name : String) : Option Field :=
  c.fields.find? (·.name = name)

def Document.empty : Document := ⟨[]⟩

end SchemaDefaults
