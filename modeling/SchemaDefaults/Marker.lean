import SchemaDefaults.Model
/-!
The marker: the one customization that asks for an initializer. A field's markers are numbered
by their place among all its customizations. The host keeps the books: which customizations have
been consumed, and which of those in the pass's namespace nobody has consumed, such as one with a
misspelled tag.
-/

namespace SchemaDefaults

namespace Marker

def namespaceUri : String := "urn:attr-init:customization"

def tag : String := "attrinit"

def optionName : String := "Xattrinit"

def namespaces : List String := [namespaceUri]

def isTag (uri localName : String) : Bool := uri = namespaceUri && localName = tag

end Marker

structure Match where
  ordinal : Nat
  customization : Customization
deriving DecidableEq, Repr

namespace Field

def matchesFrom : Nat → List Customization → List Match
  | _, [] => []
  | ordinal, c :: rest =>
    if c.isNamed Marker.namespaceUri Marker.tag then
      ⟨ordinal, c⟩ :: matchesFrom (ordinal + 1) rest
    else matchesFrom (ordinal + 1) rest

def markers (f : Field) : List Match := matchesFrom 0 f.customizations

end Field

section Survey

structure PlannedField where
  className : String
  fieldName : String
  customizations : Nat
deriving DecidableEq, Repr

def GeneratedClass.planned (c : GeneratedClass) : List PlannedField :=
  c.fields.filterMap fun f =>
    let count := f.markers.length
    if 0 < count then some ⟨c.name, f.name, count⟩ else none

def survey (classes : List GeneratedClass) : List PlannedField :=
  classes.flatMap GeneratedClass.planned

end Survey

namespace Acknowledgement

def markFrom (ids : IdSet) (className fieldName : String) :
    Nat → List Customization → List Customization × Nat
  | _, [] => ([], 0)
  | ordinal, c :: rest =>
    let (later, count) := markFrom ids className fieldName (ordinal + 1) rest
    if ids.contains ⟨className, fieldName, ordinal⟩ && !c.acknowledged then
      ({ c with acknowledged := true } :: later, count + 1)
    else (c :: later, count)

def markField (ids : IdSet) (className : String) (f : Field) : Field × Nat :=
  let (customizations, count) := markFrom ids className f.name 0 f.customizations
  ({ f with customizations }, count)

def markFields (ids : IdSet) (className : String) : List Field → List Field × Nat
  | [] => ([], 0)
  | f :: rest =>
    let (field, count) := markField ids className f
    let (later, more) := markFields ids className rest
    (field :: later, count + more)

/-- Marks the named customizations as consumed and counts those newly marked. -/
def acknowledge (ids : IdSet) : List GeneratedClass → List GeneratedClass × Nat
  | [] => ([], 0)
  | c :: rest =>
    let (fields, count) := markFields ids c.name c.fields
    let (later, more) := acknowledge ids rest
    ({ c with fields } :: later, count + more)

def leftFrom (className fieldName : String) :
    Nat → List Customization → List (CustomizationId × Customization)
  | _, [] => []
  | ordinal, c :: rest =>
    let later := leftFrom className fieldName (ordinal + 1) rest
    if c.acknowledged || !Marker.namespaces.contains c.namespaceUri then later
    else (⟨className, fieldName, ordinal⟩, c) :: later

def unrecognized (classes : List GeneratedClass) : List (CustomizationId × Customization) :=
  classes.flatMap fun c => c.fields.flatMap fun f => leftFrom c.name f.name 0 f.customizations

end Acknowledgement

end SchemaDefaults
