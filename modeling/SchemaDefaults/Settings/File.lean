import SchemaDefaults.Extraction
import SchemaDefaults.Failure
import SchemaDefaults.Files
import SchemaDefaults.Toml.Document
/-!
The settings file. It has four sections, every section and every member may be left out, and
what it does not know is passed over. A rule for a single setting names the setting in its failure.

References to environment variables are replaced in the text before it is read. A reference is a
dollar sign and a name between braces; the name is not empty and runs to the next closing brace. A
text is read once, from left to right: the value of a reference takes its place and is not read
again, and a reference to a variable that is not set stays as it is.
-/

namespace SchemaDefaults

abbrev Environment := String → Option String

namespace Environment

def empty : Environment := fun _ => none

def ofList (bindings : List (String × String)) : Environment := fun name =>
  bindings.lookup name

/-- How far the start of a reference has been read. The letters of a name are kept in reverse. -/
inductive Reading where
  | outside
  | dollar
  | name (letters : List Char)
deriving DecidableEq, Repr

namespace Reading

def opening : List Char := ['$', '\x7b']

def pending : Reading → List Char
  | outside => []
  | dollar => ['$']
  | name letters => opening ++ letters.reverse

end Reading

/-- What takes the place of a reference, or of an opening and a closing brace without a name. -/
def replacement (environment : Environment) (letters : List Char) : List Char :=
  let unchanged := Reading.opening ++ letters.reverse ++ ['\x7d']
  if letters.isEmpty then unchanged
  else match environment (String.ofList letters.reverse) with
    | some value => value.toList
    | none => unchanged

def step (environment : Environment) (reading : Reading) (c : Char) : List Char × Reading :=
  match reading with
  | .outside => if c = '$' then ([], .dollar) else ([c], .outside)
  | .dollar =>
    if c = '\x7b' then ([], .name [])
    else if c = '$' then (['$'], .dollar)
    else (['$', c], .outside)
  | .name letters =>
    if c = '\x7d' then (environment.replacement letters, .outside)
    else ([], .name (c :: letters))

def substituteFrom (environment : Environment) (reading : Reading) : List Char → List Char
  | [] => reading.pending
  | c :: rest =>
    let (written, next) := environment.step reading c
    written ++ substituteFrom environment next rest

def substitute (environment : Environment) (text : String) : String :=
  String.ofList (environment.substituteFrom .outside text.toList)

def completed? (reading : Reading) (c : Char) : Option String :=
  match reading with
  | .name (letter :: letters) =>
    if c = '\x7d' then some (String.ofList (letter :: letters).reverse) else none
  | _ => none

def referencesFrom (reading : Reading) : List Char → List String
  | [] => []
  | c :: rest =>
    (completed? reading c).toList ++ referencesFrom (empty.step reading c).2 rest

def references (text : String) : List String := referencesFrom .outside text.toList

end Environment

namespace Rule

def path (field value : String) : Except Failure Unit :=
  if value = "" then .error (.invalidValue field value "Path cannot be empty")
  else if '\x00' ∈ value.toList then
    .error (.invalidValue field value "Path contains null bytes")
  else .ok ()

def unsupported (extension : String) (allowed : List String) : String :=
  "Unsupported file extension: " ++ extension ++ ". Allowed extensions: " ++
    String.intercalate ", " allowed

def extension (field value : String) (allowed : List String) : Except Failure Unit :=
  match Path.extension? value with
  | some found =>
    if found ∈ allowed then .ok ()
    else .error (.invalidValue field value (unsupported found allowed))
  | none => .error (.invalidValue field value "File has no extension or invalid filename")

def required {α : Type} (field : String) : Option α → Except Failure α
  | some value => .ok value
  | none => .error (.missing field)

def oneOf (field value : String) (allowed : List String) : Except Failure Unit :=
  if value ∈ allowed then .ok ()
  else .error (.invalidValue field value
    ("Expected one of: " ++ String.intercalate ", " allowed))

end Rule

/-- What a settings file says; `none` where it says nothing. The name of the policy is kept as
it is written. -/
structure SettingsFile where
  enabled : Option Bool
  policyName : Option String
  model : Option String
  output : Option String
  pretty : Option Bool
  verbose : Option Bool
  jsonLogs : Option Bool
deriving DecidableEq, Repr

namespace SettingsFile

open Toml

def empty : SettingsFile := ⟨none, none, none, none, none, none, none⟩

section Sections

abbrev Lookup := String → Option Value

def othersReadable (known : List String) (table : Table) : Bool :=
  (table.members.filter fun member => member.1 ∉ known).all (·.2.readable)

/-- The members of a section: those of a table, or the items of an array, which stand for the
members in order and may not be too few. A date has no members. -/
def membersOf? (known : List String) : Value → Option Lookup
  | .table table => if othersReadable known table then some table.get? else none
  | .array items =>
    if known.length ≤ items.length then some fun name => (known.zip items).lookup name else none
  | .moment => some fun _ => none
  | _ => none

def section? (root : Table) (name : String) (known : List String) : Option Lookup :=
  match root.get? name with
  | none => some fun _ => none
  | some value => membersOf? known value

def switch? : Option Value → Option (Option Bool)
  | none => some none
  | some (.bool value) => some (some value)
  | some _ => none

def word? : Option Value → Option (Option String)
  | none => some none
  | some (.text value) => some (some value)
  | some _ => none

def ofTable? (root : Table) : Option SettingsFile := do
  let pass ← section? root "pass" ["enabled", "policy"]
  let input ← section? root "input" ["model"]
  let output ← section? root "output" ["path", "pretty"]
  let logging ← section? root "logging" ["verbose", "json"]
  if !othersReadable ["pass", "input", "output", "logging"] root then none
  return {
    enabled := ← switch? (pass "enabled")
    policyName := ← word? (pass "policy")
    model := ← word? (input "model")
    output := ← word? (output "path")
    pretty := ← switch? (output "pretty")
    verbose := ← switch? (logging "verbose")
    jsonLogs := ← switch? (logging "json") }

end Sections

def malformed : Failure := .settings "toml_parsing" "TOML parsing error: malformed settings"

def ofText (environment : Environment) (text : String) : Except Failure SettingsFile :=
  match Table.ofText? (environment.substitute text) >>= ofTable? with
  | some file => .ok file
  | none => .error malformed

def policy (file : SettingsFile) : Except Failure (Option Policy) :=
  match file.policyName with
  | none => .ok none
  | some name => do
    Rule.oneOf "pass.policy" name Policy.names
    return Policy.ofName? name

def optionalPath (field : String) : Option String → Except Failure Unit
  | none => .ok ()
  | some value => Rule.path field value

def validate (file : SettingsFile) : Except Failure Unit := do
  discard file.policy
  optionalPath "input.model" file.model
  optionalPath "output.path" file.output

end SettingsFile

end SchemaDefaults
