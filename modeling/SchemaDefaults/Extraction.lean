import SchemaDefaults.Conversion
import SchemaDefaults.Json.Value
import SchemaDefaults.Marker
import SchemaDefaults.Model.Json
/-!
Extraction of a field's initializer from its first marker, by one of two policies. Each policy
tests its conditions in a fixed order, and the first one that fails is the diagnostic, placed at
the field, or at the marker where the field has no place of its own.
-/

namespace SchemaDefaults

/-- A warning leaves processing as it is; a fatal diagnostic leaves its field alone and makes
the run a failure. -/
inductive DiagnosticKind where
  | warning
  | fatal
deriving DecidableEq, Repr

structure Diagnostic where
  kind : DiagnosticKind
  message : String
  location : Option Location
deriving DecidableEq, Repr

def DiagnosticKind.word : DiagnosticKind → String
  | .warning => "warning"
  | .fatal => "error"

namespace Diagnostic

def isFatal (d : Diagnostic) : Bool := d.kind = .fatal

def text (d : Diagnostic) : String :=
  let body := d.kind.word ++ ": " ++ d.message
  match d.location with
  | some location => location.text ++ ": " ++ body
  | none => body

def toJson (d : Diagnostic) : Json :=
  .object ([("severity", .string (if d.isFatal then "fatal" else "warning")),
    ("message", .string d.message)] ++ optionalMember "location" Location.toJson d.location)

end Diagnostic

/-- Where the value of an initializer comes from: the default of the schema attribute, which the
marker only points at, or the value attribute of the marker itself. -/
inductive Policy where
  | schemaDefault
  | annotationLiteral
deriving DecidableEq, Repr

namespace Policy

def name : Policy → String
  | schemaDefault => "schema-default"
  | annotationLiteral => "annotation-literal"

def names : List String := [schemaDefault.name, annotationLiteral.name]

def ofName? (text : String) : Option Policy :=
  if text = schemaDefault.name then some schemaDefault
  else if text = annotationLiteral.name then some annotationLiteral
  else none

end Policy

namespace Extraction

def valueAttribute : String := "value"

def notAnAttribute : String :=
  "extension marker should only appear on attribute declarations"

def noDefaultValue : String :=
  "extension marker should only appear on attribute declarations with a default value"

def missingField : String := "was expecting to find a field but didn't"

def missingValue : String := "initializer customization is missing a value attribute"

def extraCustomization : String := "ignoring extra initializer customization"

def fromText (lexical : String) (type : FieldType) : Except String Literal :=
  match convert lexical type with
  | .ok literal => .ok literal
  | .error invalid => .error invalid.message

def fromSchema (f : Field) : Except String Literal :=
  match f.property, f.type? with
  | .attribute (some default), some type => fromText default type
  | .attribute (some _), none => .error missingField
  | .attribute none, _ => .error noDefaultValue
  | .element, _ | .other, _ => .error notAnAttribute

def fromMarker (f : Field) (marker : Customization) : Except String Literal :=
  match f.type?, marker.attributes.get? valueAttribute with
  | some type, some value => fromText value type
  | some _, none => .error missingValue
  | none, _ => .error missingField

def place (f : Field) (marker : Customization) : Option Location :=
  f.location <|> marker.location

def extract (policy : Policy) (f : Field) (marker : Customization) :
    Except Diagnostic Literal :=
  let extracted := match policy with
    | .schemaDefault => fromSchema f
    | .annotationLiteral => fromMarker f marker
  match extracted with
  | .ok literal => .ok literal
  | .error message => .error ⟨.fatal, message, place f marker⟩

end Extraction

end SchemaDefaults
