import SchemaDefaults.Extraction
import SchemaDefaults.Pass
import SchemaDefaults.Settings.File
import SchemaDefaults.Text
/-!
The settings that a run goes by: those of the settings file with the flags of the command line
laid over them. The command line has switches, settings with a value, and one path. A setting may
have its value attached or in the argument behind it. It is settled only when a later argument is
recognized or the line ends, so the fault of an argument that nobody knows comes before that of a
setting left without its value.
-/

namespace SchemaDefaults

structure Flags where
  input : Option String
  output : Option String
  config : Option String
  policy : Option Policy
  enable : Bool
  pretty : Bool
  verbose : Bool
  jsonLogs : Bool
  dryRun : Bool
deriving DecidableEq, Repr

namespace Flags

def silent : Flags := ⟨none, none, none, none, false, false, false, false, false⟩

inductive Refusal where
  | unknownArgument
  | invalidValue
  | tooManyValues
  | repeated
  | help (long : Bool)
deriving DecidableEq, Repr

section Vocabulary

inductive Switch where
  | enable | pretty | verbose | jsonLogs | dryRun
deriving DecidableEq, Repr

inductive Setting where
  | output | config | policy
deriving DecidableEq, Repr

inductive Flag where
  | switch (switch : Switch)
  | setting (setting : Setting)
  | help
deriving DecidableEq, Repr

def longFlag? (name : String) : Option Flag :=
  [("output", Flag.setting .output), ("config", .setting .config),
    ("Xattrinit", .switch .enable), ("policy", .setting .policy), ("pretty", .switch .pretty),
    ("verbose", .switch .verbose), ("json-logs", .switch .jsonLogs),
    ("dry-run", .switch .dryRun), ("help", .help)].lookup name

def shortFlag? (letter : Char) : Option Flag :=
  [('o', Flag.setting .output), ('c', .setting .config), ('v', .switch .verbose),
    ('h', .help)].lookup letter

def isOn (flags : Flags) : Switch → Bool
  | .enable => flags.enable
  | .pretty => flags.pretty
  | .verbose => flags.verbose
  | .jsonLogs => flags.jsonLogs
  | .dryRun => flags.dryRun

def turnOn (flags : Flags) : Switch → Flags
  | .enable => { flags with enable := true }
  | .pretty => { flags with pretty := true }
  | .verbose => { flags with verbose := true }
  | .jsonLogs => { flags with jsonLogs := true }
  | .dryRun => { flags with dryRun := true }

def isSet (flags : Flags) : Setting → Bool
  | .output => flags.output.isSome
  | .config => flags.config.isSome
  | .policy => flags.policy.isSome

def assign? (flags : Flags) (setting : Setting) (value : String) : Option Flags :=
  match setting with
  | .output => some { flags with output := some value }
  | .config => some { flags with config := some value }
  | .policy => (Policy.ofName? value).map fun policy => { flags with policy := some policy }

end Vocabulary

section Lines

structure Pending where
  setting : Setting
  value : Option String
deriving DecidableEq, Repr

/-- `pathsOnly` holds behind an argument of two dashes alone. -/
structure Reading where
  flags : Flags
  pending : Option Pending
  pathsOnly : Bool
deriving DecidableEq, Repr

namespace Reading

def start : Reading := ⟨silent, none, false⟩

def assign (r : Reading) (setting : Setting) (value : String) : Except Refusal Reading :=
  if r.flags.isSet setting then .error .repeated
  else match r.flags.assign? setting value with
    | some flags => .ok { r with flags }
    | none => .error .invalidValue

def settle (r : Reading) : Except Refusal Reading :=
  match r.pending with
  | none => .ok r
  | some ⟨_, none⟩ => .error .invalidValue
  | some ⟨setting, some value⟩ => { r with pending := none }.assign setting value

def switchOn (r : Reading) (switch : Switch) : Except Refusal Reading := do
  let r ← r.settle
  if r.flags.isOn switch then .error .repeated
  else return { r with flags := r.flags.turnOn switch }

def attach (r : Reading) (setting : Setting) (value : String) : Except Refusal Reading := do
  (← r.settle).assign setting value

def await (r : Reading) (setting : Setting) : Except Refusal Reading := do
  return { ← r.settle with pending := some ⟨setting, none⟩ }

def askHelp (r : Reading) (long : Bool) : Except Refusal Reading := do
  -- A setting that waits in vain is the graver fault.
  discard r.settle
  .error (.help long)

def long (r : Reading) (text : List Char) : Except Refusal Reading :=
  let name := String.ofList (text.takeWhile (· != '='))
  match longFlag? name, text.dropWhile (· != '=') with
  | none, _ => .error .unknownArgument
  | some (.switch switch), [] => r.switchOn switch
  | some .help, [] => r.askHelp true
  | some (.setting setting), [] => r.await setting
  | some (.setting setting), _ :: value => r.attach setting (String.ofList value)
  -- A switch and the request for help take no value.
  | some _, _ :: _ => .error .tooManyValues

/-- Letters behind one dash. The first one that takes a value takes the letters behind it, less
an equals sign, or else the next argument. -/
def letters (r : Reading) : List Char → Except Refusal Reading
  | [] => .ok r
  | letter :: rest =>
    match shortFlag? letter with
    | none => .error .unknownArgument
    | some (.switch switch) => do letters (← r.switchOn switch) rest
    | some .help => r.askHelp false
    | some (.setting setting) =>
      match rest with
      | [] => r.await setting
      | '=' :: value => r.attach setting (String.ofList value)
      | value => r.attach setting (String.ofList value)

def path (r : Reading) (text : String) : Except Refusal Reading :=
  match r.flags.input with
  | some _ => .error .unknownArgument
  | none => do
    let r ← r.settle
    return { r with flags := { r.flags with input := some text } }

def plain (r : Reading) (text : String) : Except Refusal Reading :=
  match r.pending with
  -- The value is only checked when the setting is settled, behind a later argument or the end.
  | some ⟨setting, none⟩ => .ok { r with pending := some ⟨setting, some text⟩ }
  | _ => r.path text

def argument (r : Reading) (text : String) : Except Refusal Reading :=
  if r.pathsOnly then r.path text
  else match text.toList with
    | ['-', '-'] => .ok { r with pathsOnly := true }
    | '-' :: '-' :: rest => r.long rest
    | '-' :: letter :: rest => r.letters (letter :: rest)
    | _ => r.plain text

end Reading

def ofArguments (arguments : List String) : Except Refusal Flags := do
  let r ← arguments.foldlM Reading.argument Reading.start
  return (← r.settle).flags

end Lines

end Flags

structure Settings where
  input : Option String
  output : Option String
  pretty : Bool
  verbose : Bool
  jsonLogs : Bool
  dryRun : Bool
  options : PassOptions
deriving DecidableEq, Repr

namespace Settings

/-- What the file leaves out is off, and the policy is then the default of the schema. -/
def ofFile (file : SettingsFile) : Except Failure Settings := do
  let policy ← file.policy
  return {
    input := file.model
    output := file.output
    pretty := file.pretty.getD false
    verbose := file.verbose.getD false
    jsonLogs := file.jsonLogs.getD false
    dryRun := false
    options := ⟨file.enabled.getD false, policy.getD .schemaDefault⟩ }

/-- Values replace those of the file, and a switch can only turn a setting on. -/
def withFlags (settings : Settings) (flags : Flags) : Settings :=
  { input := flags.input <|> settings.input
    output := flags.output <|> settings.output
    pretty := settings.pretty || flags.pretty
    verbose := settings.verbose || flags.verbose
    jsonLogs := settings.jsonLogs || flags.jsonLogs
    dryRun := settings.dryRun || flags.dryRun
    options :=
      ⟨settings.options.enabled || flags.enable,
        flags.policy.getD settings.options.policy⟩ }

def extensions : List String := ["json"]

def validate (settings : Settings) : Except Failure Unit := do
  let input ← Rule.required "input" settings.input
  Rule.path "input" input
  Rule.extension "input" input extensions
  SettingsFile.optionalPath "output" settings.output

section Texts

def optionText : Option String → String
  | none => "None"
  | some value => "Some(" ++ Text.quoted value ++ ")"

def policyText : Policy → String
  | .schemaDefault => "SchemaDefault"
  | .annotationLiteral => "AnnotationLiteral"

def recordText (name : String) (members : List (String × String)) : String :=
  name ++ " \x7b " ++
    String.intercalate ", " (members.map fun member => member.1 ++ ": " ++ member.2) ++ " \x7d"

def text (settings : Settings) : String :=
  recordText "RunSettings"
    [("input", optionText settings.input), ("output", optionText settings.output),
      ("pretty", toString settings.pretty), ("verbose", toString settings.verbose),
      ("json_logs", toString settings.jsonLogs), ("dry_run", toString settings.dryRun),
      ("options", recordText "PassOptions"
        [("enabled", toString settings.options.enabled),
          ("policy", policyText settings.options.policy)])]

end Texts

end Settings

end SchemaDefaults
