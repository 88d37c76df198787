import SchemaDefaults.Json.Record
import SchemaDefaults.Json.Value
import SchemaDefaults.Model
/-!
The JSON form of a model. In writing, members that say nothing are left out: an absent location,
default, declaration or initializer, an empty list of customizations or attributes, and the flag
of a customization that nobody has acknowledged. In reading, every structure is a record with the
slots in the order of its members; a property and a literal are tagged values, and a field type
is a name or an object with the name as its only key.
-/

namespace SchemaDefaults

abbrev Members := List (String × Json)

def memberUnless (skip : Bool) (name : String) (value : Json) : Members :=
  if skip then [] else [(name, value)]

def optionalMember {α : Type} (name : String) (encode : α → Json) : Option α → Members
  | none => []
  | some value => [(name, encode value)]

def Location.toJson (l : Location) : Json :=
  .object (optionalMember "system_id" .string l.systemId ++
    [("line", .number (.natural l.line.toNat)), ("column", .number (.natural l.column.toNat))])

def Property.toJson : Property → Json
  | .attribute default =>
    .object (("kind", .string "attribute") :: optionalMember "default" .string default)
  | .element => .object [("kind", .string "element")]
  | .other => .object [("kind", .string "other")]

def Attributes.toJson (attributes : Attributes) : Json :=
  .object (attributes.entries.map fun entry => (entry.1, .string entry.2))

def Customization.toJson (c : Customization) : Json :=
  .object ([("namespace", .string c.namespaceUri), ("tag", .string c.tag)] ++
    memberUnless c.attributes.isEmpty "attributes" (Attributes.toJson c.attributes) ++
    optionalMember "location" Location.toJson c.location ++
    memberUnless (!c.acknowledged) "acknowledged" (.bool c.acknowledged))

def CustomizationId.toJson (id : CustomizationId) : Json :=
  .object [("class", .string id.className), ("field", .string id.fieldName),
    ("ordinal", .number (.natural id.ordinal))]

def EnumConstant.toJson (c : EnumConstant) : Json :=
  .object [("value", .string c.value), ("constant", .string c.constant)]

def EnumType.toJson (e : EnumType) : Json :=
  .object [("name", .string e.name), ("constants", .array (e.constants.map EnumConstant.toJson))]

def FieldType.toJson (t : FieldType) : Json :=
  match t with
  | .enum e => .object [("enum", e.toJson)]
  | other => .string (other.word?.getD "")

def Literal.toJson : Literal → Json
  | .bool value => .object [("expr", .string "bool"), ("value", .bool value)]
  | .integer kind digits =>
    .object [("expr", .string "int"), ("ty", .string kind.name), ("digits", .string digits)]
  | .float kind text =>
    .object [("expr", .string "float"), ("ty", .string kind.name), ("text", .string text)]
  | .decimal text => .object [("expr", .string "decimal"), ("text", .string text)]
  | .string value => .object [("expr", .string "str"), ("value", .string value)]
  | .enumConstant enumName constant =>
    .object [("expr", .string "enum_constant"), ("enum_name", .string enumName),
      ("constant", .string constant)]

def Declaration.toJson (d : Declaration) : Json :=
  .object (("ty", d.type.toJson) :: optionalMember "initializer" Literal.toJson d.initializer)

def Field.toJson (f : Field) : Json :=
  .object ([("name", .string f.name), ("property", f.property.toJson)] ++
    memberUnless f.customizations.isEmpty "customizations"
      (.array (f.customizations.map Customization.toJson)) ++
    optionalMember "location" Location.toJson f.location ++
    optionalMember "declaration" Declaration.toJson f.declaration)

def GeneratedClass.toJson (c : GeneratedClass) : Json :=
  .object (("name", .string c.name) ::
    (optionalMember "location" Location.toJson c.location ++
      [("fields", .array (c.fields.map Field.toJson))]))

def Document.toJson (d : Document) : Json :=
  .object [("classes", .array (d.classes.map GeneratedClass.toJson))]

def Document.text (pretty : Bool) (d : Document) : String := d.toJson.text pretty

namespace Decoding

open Reader (required defaulted)

def location : Reader Location :=
  Reader.record "struct SourceLocation"
    [defaulted "system_id" (Reader.optional Reader.string) none,
      required "line" Reader.word32, required "column" Reader.word32]
    fun (systemId, line, column, _) => ⟨systemId, line, column⟩

section Tagged

def propertyKinds : List String := ["attribute", "element", "other"]

def propertyOf (kind : String) (content : Content) : Except Fault Property :=
  if kind = "attribute" then
    Tagged.members "struct variant PropertyKind::Attribute"
      [Tagged.defaulted "default" (Tagged.optional Tagged.string) none]
      (fun (default, _) => .attribute default) content
  else if kind = "element" then Tagged.nothing .element content
  else Tagged.nothing .other content

def property : Reader Property := fun levels tree => do
  let (kind, content) ←
    Tagged.content "internally tagged enum PropertyKind" "kind" propertyKinds levels tree
  propertyOf kind content

def integerKind (value : Json) : Except Fault IntegerKind := do
  match ← Tagged.choice ["byte", "short", "int", "long", "big"] value with
  | "byte" => return .byte
  | "short" => return .short
  | "int" => return .int
  | "long" => return .long
  | _ => return .big

def floatKind (value : Json) : Except Fault FloatKind := do
  match ← Tagged.choice ["float", "double"] value with
  | "float" => return .float
  | _ => return .double

def literalKinds : List String := ["bool", "int", "float", "decimal", "str", "enum_constant"]

def literalOf (kind : String) (content : Content) : Except Fault Literal :=
  let required {α : Type} := @Tagged.required α
  if kind = "bool" then
    Tagged.members "struct variant Expr::Bool" [required "value" Tagged.bool]
      (fun (value, _) => .bool value) content
  else if kind = "int" then
    Tagged.members "struct variant Expr::Int"
      [required "ty" integerKind, required "digits" Tagged.string]
      (fun (kind, digits, _) => .integer kind digits) content
  else if kind = "float" then
    Tagged.members "struct variant Expr::Float"
      [required "ty" floatKind, required "text" Tagged.string]
      (fun (kind, text, _) => .float kind text) content
  else if kind = "decimal" then
    Tagged.members "struct variant Expr::Decimal" [required "text" Tagged.string]
      (fun (text, _) => .decimal text) content
  else if kind = "str" then
    Tagged.members "struct variant Expr::Str" [required "value" Tagged.string]
      (fun (value, _) => .string value) content
  else
    Tagged.members "struct variant Expr::EnumConstant"
      [required "enum_name" Tagged.string, required "constant" Tagged.string]
      (fun (enumName, constant, _) => .enumConstant enumName constant) content

def literal : Reader Literal := fun levels tree => do
  let (kind, content) ←
    Tagged.content "internally tagged enum Expr" "expr" literalKinds levels tree
  literalOf kind content

end Tagged

section Types

def enumConstant : Reader EnumConstant :=
  Reader.record "struct EnumConstant"
    [required "value" Reader.string, required "constant" Reader.string]
    fun (value, constant, _) => ⟨value, constant⟩

def enumType : Reader EnumType :=
  Reader.record "struct EnumType"
    [required "name" Reader.string, required "constants" (Reader.list enumConstant)]
    fun (name, constants, _) => ⟨name, constants⟩

def plainTypes : List (String × FieldType) :=
  [("boolean", .boolean), ("byte", .integer .byte), ("short", .integer .short),
    ("int", .integer .int), ("long", .integer .long), ("integer", .integer .big),
    ("float", .float .float), ("double", .float .double), ("decimal", .decimal),
    ("string", .string)]

def typeNames : List String := plainTypes.map Prod.fst ++ ["enum"]

/-- The type of a name; `none` is the enumeration, which has parts of its own. -/
def plainType? (name : String) : Option FieldType :=
  (plainTypes.find? (·.1 = name)).map Prod.snd

def typeName (name : String) : Except Fault String :=
  if name ∈ typeNames then .ok name else throw (.mismatch (.unknownVariant name typeNames))

/-- The only key of a type. Here, and nowhere else, another value in place of the key is taken
for a value of the wrong type. -/
def typeKey : Key → Except Fault String
  | .text kept => do typeName (← kept)
  | .broken fault => .error fault.kept
  | .stray found => do throw (.mismatch (.wrongType (← found) Tagged.variantName))

def nullValue : Reader Unit
  | _, .null => .ok ()
  | _, tree => tree.refuse "unit"

def fieldType : Reader FieldType
  | _, .string kept => do
    match plainType? (← typeName (← kept)) with
    | some type => return type
    | none => throw (.mismatch (.wrongType .unitVariant "newtype variant"))
  | levels, .object [] ending => do
    discard (Tree.enter levels)
    Tree.checkEnding ending
    throw .malformed
  | levels, .object ((key, value) :: rest) ending => do
    let levels ← Tree.enter levels
    let name ← typeKey key
    let type ← match plainType? name with
      | some type => do
        nullValue levels value
        pure type
      | none => (enumType levels value).map .enum
    if rest.isEmpty then
      Tree.checkEnding ending
      return type
    else throw .malformed
  | _, .broken fault => .error fault.kept
  | _, _ => throw .malformed

end Types

section Models

def customization : Reader Customization :=
  Reader.record "struct Customization"
    [required "namespace" Reader.string, required "tag" Reader.string,
      defaulted "attributes" (Reader.map Reader.string) SortedMap.empty,
      defaulted "location" (Reader.optional location) none,
      defaulted "acknowledged" Reader.bool false]
    fun (namespaceUri, tag, attributes, location, acknowledged, _) =>
      ⟨namespaceUri, tag, attributes, location, acknowledged⟩

def declaration : Reader Declaration :=
  Reader.record "struct FieldDeclaration"
    [required "ty" fieldType, defaulted "initializer" (Reader.optional literal) none]
    fun (type, initializer, _) => ⟨type, initializer⟩

def field : Reader Field :=
  Reader.record "struct FieldModel"
    [required "name" Reader.string, defaulted "property" property .other,
      defaulted "customizations" (Reader.list customization) [],
      defaulted "location" (Reader.optional location) none,
      defaulted "declaration" (Reader.optional declaration) none]
    fun (name, property, customizations, location, declaration, _) =>
      ⟨name, property, customizations, location, declaration⟩

def generatedClass : Reader GeneratedClass :=
  Reader.record "struct ClassModel"
    [required "name" Reader.string, defaulted "location" (Reader.optional location) none,
      defaulted "fields" (Reader.list field) []]
    fun (name, location, fields, _) => ⟨name, location, fields⟩

def document : Reader Document :=
  Reader.record "struct ModelDocument" [required "classes" (Reader.list generatedClass)]
    fun (classes, _) => ⟨classes⟩

end Models

end Decoding

def Reader.ofText {α : Type} (read : Reader α) (text : String) : Except Fault α := do
  let (tree, goesOn) := Tree.ofText text.toList
  let value ← read Tree.depthLimit tree
  if goesOn then throw .malformed else return value

def Document.ofText (text : String) : Except Fault Document :=
  Decoding.document.ofText text

end SchemaDefaults
