import SchemaDefaults.Command.Completion
import SchemaDefaults.Files
import SchemaDefaults.Journal
import SchemaDefaults.Marker
import SchemaDefaults.Model.Json
import SchemaDefaults.Pass
import SchemaDefaults.Settings.Effective
import SchemaDefaults.Settings.File
/-!
The command: it reads its settings, loads a model, runs the pass over it, acknowledges what the
run has consumed, warns of the customizations that nothing has consumed, and writes the model to
a file or to its output. The warnings come also when the run has rejected fields; only a run that
breaks off skips them. Nothing is written, and no file is touched, before everything that can
fail on the way has been done. Files and environment are those of a host, as actions of a monad;
a file tree is such a host.
-/

namespace SchemaDefaults

/-- `environment` tells at least the variables that it is asked for. -/
structure Host (m : Type → Type) where
  readText : String → m (Except FileFault String)
  writeText : String → String → m (Option FileFault)
  environment : List String → m Environment

def FileTree.host (environment : Environment) : Host (StateM FileTree) where
  readText path := do return (← get).readText path
  writeText path content := do
    let change := (← get).writeText path content
    set change.tree
    return change.fault
  environment _ := return environment

/-- The text of a document in a file: it ends its last line. -/
def Document.fileText (pretty : Bool) (document : Document) : String :=
  document.text pretty ++ "\n"

def Document.wroteEvent (document : Document) (path : String) : Event :=
  .plain .debug .document
    ("Wrote " ++ toString document.classes.length ++ " classes to " ++ path)

namespace Host

variable {m : Type → Type} [Monad m] (host : Host m)

def loadDocument (path : String) : m (Except Failure Document) := do
  match ← host.readText path with
  | .error fault => return .error (.file fault)
  | .ok text =>
    match Document.ofText text with
    | .error fault => return .error (.model fault)
    | .ok document => return .ok document

def saveDocument (pretty : Bool) (document : Document) (path : String) :
    m (Except Failure Event) := do
  match ← host.writeText path (document.fileText pretty) with
  | some fault => return .error (.file fault)
  | none => return .ok (document.wroteEvent path)

def loadSettings (path : String) : m (Except Failure SettingsFile) := do
  match ← host.readText path with
  | .error fault => return .error (.file fault)
  | .ok text =>
    return SettingsFile.ofText (← host.environment (Environment.references text)) text

end Host

/-- `document` is the one in memory afterwards, also where the result is a failure. -/
structure Processed where
  document : Document
  events : List Event
  result : Except Failure Report

namespace Processed

def acknowledgedEvent (count : Nat) : Event :=
  .plain .debug .command ("Acknowledged " ++ toString count ++ " customizations")

def unrecognizedText (id : CustomizationId) (c : Customization) : String :=
  "unrecognized customization <" ++ c.tag ++ "> in namespace " ++ c.namespaceUri ++ " on " ++
    id.text

def unrecognizedWarning (id : CustomizationId) (c : Customization) : Diagnostic :=
  ⟨.warning, unrecognizedText id c, c.location⟩

def unrecognizedEvents (classes : List GeneratedClass) : List Event :=
  (Acknowledgement.unrecognized classes).flatMap fun (id, c) =>
    (Sink.console.warning (unrecognizedWarning id c) ()).events

end Processed

def Document.process (options : PassOptions) (document : Document) : Processed :=
  let run := Pass.run Sink.console options document.classes ()
  match run.result with
  | .error failure => ⟨⟨run.classes⟩, run.journal, .error failure⟩
  | .ok report =>
    let (classes, count) := Acknowledgement.acknowledge report.acknowledged run.classes
    let events :=
      run.journal ++ Processed.acknowledgedEvent count :: Processed.unrecognizedEvents classes
    ⟨⟨classes⟩, events, report.result⟩

section Surveys

def PlannedField.text (p : PlannedField) : String :=
  let extra :=
    if 1 < p.customizations then
      " (" ++ toString p.customizations ++ " customizations, only the first is used)"
    else ""
  "  " ++ p.className ++ "." ++ p.fieldName ++ extra ++ "\n"

def Document.surveyText (document : Document) : String :=
  let planned := survey document.classes
  "🔍 Dry run: " ++ toString planned.length ++
    " field(s) carry an initializer customization\n" ++
    String.join (planned.map PlannedField.text)

end Surveys

structure Account where
  events : List Event
  output : String
  failure : Option Failure
deriving DecidableEq, Repr

namespace Account

def failed (failure : Failure) : Account := ⟨[], "", some failure⟩

def after (events : List Event) (account : Account) : Account :=
  { account with events := events ++ account.events }

def notices (account : Account) : List Notice :=
  account.events.map .event ++
    match account.failure with
    | none => []
    | some failure => failure.runNotices

def exitCode (account : Account) : Nat :=
  match account.failure with
  | none => 0
  | some failure => failure.severity.exitCode

end Account

namespace Command

section Events

def settingsEvent (settings : Settings) : Event :=
  .plain .debug .command ("Effective settings: " ++ settings.text)

def loadedEvent (document : Document) (path : String) : Event :=
  .plain .info .command
    ("📁 Loaded " ++ toString document.classes.length ++ " classes from " ++ path)

def savedEvent (report : Report) (path : String) : Event :=
  .plain .info .command
    ("✅ " ++ toString report.injected.length ++ " initializers injected; model saved to " ++
      path)

end Events

variable {m : Type → Type} [Monad m] (host : Host m)

def deliver (settings : Settings) (document : Document) (report : Report) : m Account := do
  match settings.output with
  | none => return ⟨[], document.fileText settings.pretty, none⟩
  | some path =>
    match ← host.saveDocument settings.pretty document path with
    | .error failure => return .failed failure
    | .ok wrote => return ⟨[wrote, savedEvent report path], "", none⟩

def transform (settings : Settings) (document : Document) : m Account := do
  let processed := document.process settings.options
  match processed.result with
  | .error failure => return (Account.failed failure).after processed.events
  | .ok report =>
    return (← deliver host settings processed.document report).after processed.events

def execute (settings : Settings) : m Account := do
  match settings.input with
  | none => return .failed (.missing "input")
  | some path =>
    match ← host.loadDocument path with
    | .error failure => return .failed failure
    | .ok document =>
      let account ←
        if settings.dryRun then pure ⟨[], document.surveyText, none⟩
        else transform host settings document
      return account.after [loadedEvent document path]

def filterVariable : String := "RUST_LOG"

def filter (environment : Environment) (settings : Settings) : Filter :=
  ((environment filterVariable).bind Filter.ofText?).getD (Filter.standard settings.verbose)

def style (settings : Settings) : LineStyle := if settings.jsonLogs then .json else .compact

def completion (environment : Environment) (settings : Settings) (exitCode : Nat)
    (output : String) (notices : List Notice) : Completion :=
  ⟨exitCode, output, (Notice.event (settingsEvent settings) :: notices).flatMap
    (Notice.lines (style settings) (filter environment settings))⟩

def runWith (settings : Settings) : m Completion := do
  let environment ← host.environment [filterVariable]
  match settings.validate with
  | .error failure => return completion environment settings 1 "" failure.settingsNotices
  | .ok _ =>
    -- From here on every failure has a journal to go to.
    let account ← execute host settings
    return completion environment settings account.exitCode account.output account.notices

def settingsFile (flags : Flags) : m (Except Failure SettingsFile) := do
  match flags.config with
  | none => return .ok .empty
  | some path => host.loadSettings path

def settingsOf (flags : Flags) (file : SettingsFile) : Except Failure Settings := do
  file.validate
  return (← Settings.ofFile file).withFlags flags

def unreadable (flags : Flags) : String :=
  "Failed to load config file '" ++ flags.config.getD "" ++ "'"

def run (arguments : List String) : m Completion := do
  match Flags.ofArguments arguments with
  | .error refusal => return .ofRefusal refusal
  | .ok flags =>
    match ← settingsFile host flags with
    | .error failure => return .aborted (unreadable flags) failure
    | .ok file =>
      match settingsOf flags file with
      | .error failure => return .aborted "Invalid settings file" failure
      | .ok settings => runWith host settings

end Command

end SchemaDefaults
