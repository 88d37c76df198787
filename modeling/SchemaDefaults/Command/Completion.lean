import SchemaDefaults.Failure
import SchemaDefaults.Journal
import SchemaDefaults.Settings.Effective
/-!
What a command leaves to whoever has called it: an exit code, the text on its output, and the
lines on its error stream, where the journal goes too. The output may be the help that the
command gives about itself, in short with one line for each argument or at length.
-/

namespace SchemaDefaults

namespace Usage

def about : String :=
  "Inject schema attribute defaults as field initializers into a generated-class model"

def summary : String := "Usage: attr-init [OPTIONS] [INPUT]"

structure Entry where
  heading : String
  purpose : String
  values : List (String × String)

def input : Entry := ⟨"[INPUT]", "Path to the class model (JSON)", []⟩

def policies : List (String × String) :=
  [(Policy.schemaDefault.name,
      "Use the default declared on the schema attribute; the customization is only a marker"),
    (Policy.annotationLiteral.name, "Use the customization's own `value` attribute")]

def options (long : Bool) : List Entry :=
  [⟨"-o, --output <OUTPUT>", "Where to write the updated model; stdout when omitted", []⟩,
    ⟨"-c, --config <CONFIG>", "Optional TOML settings file", []⟩,
    ⟨"    --Xattrinit", "Enable the initializer pass", []⟩,
    ⟨"    --policy <POLICY>", "Where initializer values come from", policies⟩,
    ⟨"    --pretty", "Pretty-print the output model", []⟩,
    ⟨"-v, --verbose", "Enable verbose output", []⟩,
    ⟨"    --json-logs", "Emit logs as JSON lines", []⟩,
    ⟨"    --dry-run", "List the fields that would be processed without changing anything", []⟩,
    ⟨"-h, --help", if long then "Print help (see a summary with '-h')"
      else "Print help (see more with '--help')", []⟩]

def padded (width : Nat) (text : String) : String :=
  text ++ String.ofList (List.replicate (width - text.length) ' ')

def widest (texts : List String) : Nat := (texts.map String.length).foldl max 0

def shortLine (width : Nat) (e : Entry) : String :=
  let values :=
    if e.values.isEmpty then ""
    else " [possible values: " ++ String.intercalate ", " (e.values.map Prod.fst) ++ "]"
  "  " ++ padded width e.heading ++ "  " ++ e.purpose ++ values

def shortLines (entries : List Entry) : List String :=
  entries.map (shortLine (widest (entries.map Entry.heading)))

def margin : String := "          "

def valueLines (values : List (String × String)) : List String :=
  if values.isEmpty then []
  else
    let width := widest (values.map Prod.fst) + 1
    "" :: (margin ++ "Possible values:") :: values.map fun value =>
      margin ++ "- " ++ padded width (value.1 ++ ":") ++ " " ++ value.2

def longLines (e : Entry) : List String :=
  ["  " ++ e.heading, margin ++ e.purpose] ++ valueLines e.values

def entryLines (long : Bool) (entries : List Entry) : List String :=
  if long then List.intercalate [""] (entries.map longLines) else shortLines entries

def help (long : Bool) : String :=
  let lines := [about, "", summary, "", "Arguments:"] ++ entryLines long [input] ++
    ["", "Options:"] ++ entryLines long (options long)
  String.join (lines.map (· ++ "\n"))

def faultText : Flags.Refusal → String
  | .unknownArgument => "unexpected argument found"
  | .invalidValue => "a value is missing or not one of the possible values"
  | .tooManyValues => "unexpected value for a switch"
  | .repeated => "an argument cannot be used multiple times"
  | .help _ => "help requested"

def fault (refusal : Flags.Refusal) : List String :=
  ["error: " ++ faultText refusal, "", summary, "", "For more information, try '--help'."]

end Usage

structure Completion where
  exitCode : Nat
  output : String
  errors : List String
deriving DecidableEq, Repr

/-- What is said on the error stream: an event, if the filter shows it, or a text as it is. -/
inductive Notice where
  | event (event : Event)
  | text (text : String)
deriving DecidableEq, Repr

namespace Notice

def lines (style : LineStyle) (filter : Filter) : Notice → List String
  | .event e => if filter.shows e then (e.line style).splitOn "\n" else []
  | .text t => t.splitOn "\n"

end Notice

def Severity.exitCode : Severity → Nat
  | .low => 0
  | .medium => 2
  | .high => 1
  | .critical => 3

namespace Failure

def commandError (message : String) : Notice := .event (.plain .error .command message)

def settingsNotices (failure : Failure) : List Notice :=
  [commandError ("❌ Configuration validation failed: " ++ failure.message),
    commandError ("💡 Suggestion: " ++ failure.suggestion),
    .text ("❌ " ++ failure.userMessage)]

def runNotices (failure : Failure) : List Notice :=
  [commandError ("❌ Initializer generation failed: " ++ failure.message ++ " (Category: " ++
      failure.category.name ++ ", Severity: " ++ failure.severity.name ++ ")"),
    commandError ("💡 Recovery suggestion: " ++ failure.suggestion),
    .text ("❌ " ++ failure.userMessage)]

def causes (failure : Failure) : List String :=
  match failure with
  | .file fault => [failure.message, fault.text]
  | .model fault => [failure.message, fault.message]
  | _ => [failure.message]

end Failure

namespace Completion

def ofRefusal (refusal : Flags.Refusal) : Completion :=
  match refusal with
  | .help long => ⟨0, Usage.help long, []⟩
  | fault => ⟨2, "", Usage.fault fault⟩

def indented (lead : String) (text : String) : List String :=
  let blanks := String.ofList (List.replicate lead.length ' ')
  match text.splitOn "\n" with
  | [] => []
  | first :: rest => (lead ++ first) :: rest.map (blanks ++ ·)

def causeLines (causes : List String) : List String :=
  match causes with
  | [cause] => indented "    " cause
  -- Causes are numbered where there are several.
  | causes => causes.zipIdx.flatMap fun (cause, number) =>
      indented ("    " ++ toString number ++ ": ") cause

def aborted (context : String) (failure : Failure) : Completion :=
  let lines := ("Error: " ++ context).splitOn "\n" ++ ["", "Caused by:"] ++
    causeLines failure.causes
  ⟨1, "", lines⟩

end Completion

end SchemaDefaults
