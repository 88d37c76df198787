import SchemaDefaults.Command
import SchemaDefaults.Proofs.FileWriting
import SchemaDefaults.Proofs.Processing
/-!
The command on a tree of files. It ends in one of few ways: it gives help, it does not get as far
as a model, it surveys the model, it rejects it, or it prints or saves it. Only the last of these
has anything to do with the tree.
-/

namespace SchemaDefaults

section Settings

/-- What flags and file ask for together: a value of the flags goes before that of the file, and
a switch is on if either has it on. A policy that the file names wrongly counts as none. -/
def Settings.combined (flags : Flags) (file : SettingsFile) : Settings :=
  { input := flags.input <|> file.model
    output := flags.output <|> file.output
    pretty := file.pretty.getD false || flags.pretty
    verbose := file.verbose.getD false || flags.verbose
    jsonLogs := file.jsonLogs.getD false || flags.jsonLogs
    dryRun := flags.dryRun
    options := ⟨file.enabled.getD false || flags.enable,
      flags.policy.getD ((file.policyName.bind Policy.ofName?).getD .schemaDefault)⟩ }

theorem SettingsFile.ofText_ok_iff (environment : Environment) (text : String)
    (file : SettingsFile) :
    ofText environment text = .ok file ↔
      Toml.Table.ofText? (environment.substitute text) >>= ofTable? = some file := by
  unfold ofText
  cases Toml.Table.ofText? (environment.substitute text) >>= ofTable? <;> simp

theorem SettingsFile.policy_ok (file : SettingsFile) (policy : Option Policy)
    (named : file.policy = .ok policy) : policy = file.policyName.bind Policy.ofName? := by
  unfold SettingsFile.policy at named
  cases written : file.policyName with
  | none =>
      rw [written] at named
      cases named
      rfl
  | some name =>
      rw [written] at named
      obtain ⟨_, _, found⟩ := (bind_ok_iff _ _ _).mp named
      cases found
      rfl

theorem SettingsFile.validate_policy (file : SettingsFile) (valid : file.validate = .ok ()) :
    file.policy = .ok (file.policyName.bind Policy.ofName?) := by
  cases named : file.policy with
  | error failure => simp [validate, named, discard, Functor.discard, Functor.mapConst,
      Except.map, bind, Except.bind] at valid
  | ok policy => rw [file.policy_ok policy named]

theorem Command.settingsOf_ok_iff (flags : Flags) (file : SettingsFile) (settings : Settings) :
    settingsOf flags file = .ok settings ↔
      file.validate = .ok () ∧ settings = Settings.combined flags file := by
  have combined (valid : file.validate = .ok ()) :
      settingsOf flags file = .ok (Settings.combined flags file) := by
    have named := file.validate_policy valid
    simp only [settingsOf, valid, Settings.ofFile, named, bind, Except.bind]
    rfl
  constructor
  · intro made
    obtain ⟨⟨⟩, valid, _⟩ := (bind_ok_iff _ _ _).mp made
    rw [combined valid] at made
    cases made
    exact ⟨valid, rfl⟩
  · rintro ⟨valid, rfl⟩
    exact combined valid

end Settings

namespace Command

variable (environment : Environment) (tree : FileTree)

section Readiness

def SettingsRead (flags : Flags) (file : SettingsFile) : Prop :=
  match flags.config with
  | none => file = .empty
  | some path => ∃ text, tree.readText path = .ok text ∧
      SettingsFile.ofText environment text = .ok file

/-- The model that the settings name as their input. -/
def ModelRead (settings : Settings) (document : Document) : Prop :=
  ∃ path text, settings.input = some path ∧ tree.readText path = .ok text ∧
    Document.ofText text = .ok document

def Configured (arguments : List String) (settings : Settings) : Prop :=
  ∃ flags file, Flags.ofArguments arguments = .ok flags ∧
    SettingsRead environment tree flags file ∧ file.validate = .ok () ∧
    settings = Settings.combined flags file

/-- All that can be wrong before the pass is right. -/
structure Ready (arguments : List String) (settings : Settings) (document : Document) :
    Prop where
  configured : Configured environment tree arguments settings
  valid : settings.validate = .ok ()
  model : ModelRead tree settings document

variable {environment tree} {flags : Flags} {arguments : List String}

theorem SettingsRead.unique {first second : SettingsFile}
    (left : SettingsRead environment tree flags first)
    (right : SettingsRead environment tree flags second) : first = second := by
  unfold SettingsRead at left right
  cases named : flags.config with
  | none =>
      rw [named] at left right
      exact left.trans right.symm
  | some path =>
      rw [named] at left right
      obtain ⟨text, read, said⟩ := left
      obtain ⟨other, again, saidAgain⟩ := right
      cases read.symm.trans again
      cases said.symm.trans saidAgain
      rfl

theorem Configured.unique {first second : Settings}
    (left : Configured environment tree arguments first)
    (right : Configured environment tree arguments second) : first = second := by
  obtain ⟨flags, file, accepted, read, _, rfl⟩ := left
  obtain ⟨others, other, acceptedAgain, readAgain, _, rfl⟩ := right
  cases accepted.symm.trans acceptedAgain
  rw [read.unique readAgain]

theorem ModelRead.unique {settings : Settings} {first second : Document}
    (left : ModelRead tree settings first) (right : ModelRead tree settings second) :
    first = second := by
  obtain ⟨path, text, named, read, decoded⟩ := left
  obtain ⟨other, again, namedAgain, readAgain, decodedAgain⟩ := right
  cases named.symm.trans namedAgain
  cases read.symm.trans readAgain
  cases decoded.symm.trans decodedAgain
  rfl

theorem Configured.unasked {settings : Settings}
    (configured : Configured environment tree arguments settings) (long : Bool) :
    Flags.ofArguments arguments ≠ .error (.help long) := by
  obtain ⟨flags, _, accepted, _⟩ := configured
  rw [accepted]
  nofun

end Readiness

section Parts

theorem readText_host (path : String) :
    (FileTree.host environment).readText path tree = (tree.readText path, tree) :=
  rfl

theorem writeText_host (path content : String) :
    (FileTree.host environment).writeText path content tree =
      ((tree.writeText path content).fault, (tree.writeText path content).tree) :=
  rfl

theorem settingsFile_read (flags : Flags) :
    ∃ result, (settingsFile (FileTree.host environment) flags).run tree = (result, tree) ∧
      ∀ file, result = .ok file ↔ SettingsRead environment tree flags file := by
  unfold settingsFile SettingsRead
  cases flags.config with
  | none => exact ⟨.ok .empty, rfl, by simp [eq_comm]⟩
  | some path =>
      simp only [Host.loadSettings, StateT.run, bind, StateT.bind, readText_host]
      cases tree.readText path with
      | error fault => exact ⟨.error (.file fault), rfl, by simp⟩
      | ok text => exact ⟨SettingsFile.ofText environment text, rfl, by simp⟩

theorem loadDocument_read (path : String) :
    ∃ result, ((FileTree.host environment).loadDocument path).run tree = (result, tree) ∧
      ∀ document, result = .ok document ↔
        ∃ text, tree.readText path = .ok text ∧ Document.ofText text = .ok document := by
  simp only [Host.loadDocument, StateT.run, bind, StateT.bind, readText_host]
  cases tree.readText path with
  | error fault => exact ⟨.error (.file fault), rfl, by simp⟩
  | ok text =>
      cases read : Document.ofText text with
      | error fault => exact ⟨.error (.model fault), by simp only [read]; rfl, by simp [read]⟩
      | ok document => exact ⟨.ok document, by simp only [read]; rfl, by simp [read]⟩

theorem deliver_printed (settings : Settings) (document : Document) (report : Report)
    (silent : settings.output = none) :
    (deliver (FileTree.host environment) settings document report).run tree =
      (⟨[], document.fileText settings.pretty, none⟩, tree) := by
  unfold deliver
  rw [silent]
  rfl

theorem deliver_saved (settings : Settings) (document : Document) (report : Report)
    (path : String) (named : settings.output = some path) :
    let change := tree.writeText path (document.fileText settings.pretty)
    ∃ account, (deliver (FileTree.host environment) settings document report).run tree =
        (account, change.tree) ∧
      account.output = "" ∧ (account.failure = none ↔ change.fault = none) := by
  unfold deliver
  rw [named]
  simp only [Host.saveDocument, StateT.run, bind, StateT.bind, writeText_host]
  cases (tree.writeText path (document.fileText settings.pretty)).fault with
  | some fault => exact ⟨.failed (.file fault), rfl, rfl, by simp [Account.failed]⟩
  | none =>
      exact ⟨⟨[document.wroteEvent path, savedEvent report path], "", none⟩, rfl, rfl, by simp⟩

/-- A document that a run has rejected goes nowhere; another one is delivered. -/
theorem transform_processed (settings : Settings) (document : Document) :
    let processed := document.process settings.options
    (∀ failure, processed.result = .error failure →
      (transform (FileTree.host environment) settings document).run tree =
        ((Account.failed failure).after processed.events, tree)) ∧
    ∀ report, processed.result = .ok report →
      (transform (FileTree.host environment) settings document).run tree =
        ((deliver (FileTree.host environment) settings processed.document report).run tree).map
          (·.after processed.events) id := by
  constructor
  · intro failure failed
    unfold transform
    simp only [failed]
    rfl
  · intro report succeeded
    unfold transform
    simp only [succeeded]
    rfl

theorem execute_unread (settings : Settings)
    (unread : ∀ document, ¬ ModelRead tree settings document) :
    ∃ failure, (execute (FileTree.host environment) settings).run tree =
      (Account.failed failure, tree) := by
  unfold execute
  cases named : settings.input with
  | none => exact ⟨.missing "input", rfl⟩
  | some path =>
      obtain ⟨result, loaded, decided⟩ := loadDocument_read environment tree path
      simp only [StateT.run] at loaded
      simp only [StateT.run, bind, StateT.bind, loaded]
      cases result with
      | error failure => exact ⟨failure, rfl⟩
      | ok document =>
          -- A document that loads is the model that the settings name.
          obtain ⟨text, read, decoded⟩ := (decided document).mp rfl
          exact absurd ⟨path, text, named, read, decoded⟩ (unread document)

theorem execute_read (settings : Settings) (document : Document)
    (read : ModelRead tree settings document) :
    ∃ path, (execute (FileTree.host environment) settings).run tree =
      (if settings.dryRun then (⟨[], document.surveyText, none⟩, tree)
        else (transform (FileTree.host environment) settings document).run tree).map
          (·.after [loadedEvent document path]) id := by
  obtain ⟨path, text, named, found, decoded⟩ := read
  obtain ⟨result, loaded, decided⟩ := loadDocument_read environment tree path
  cases (decided document).mpr ⟨text, found, decoded⟩
  simp only [StateT.run] at loaded
  refine ⟨path, ?_⟩
  unfold execute
  rw [named]
  simp only [StateT.run, bind, StateT.bind, loaded]
  cases settings.dryRun <;> rfl

end Parts

section Runs

/-- The text of the model that a run by these settings makes of a document. -/
def modelText (settings : Settings) (document : Document) : String :=
  (document.process settings.options).document.fileText settings.pretty

/-- No field is rejected by the pass, or the pass is off. -/
def Accepted (options : PassOptions) (document : Document) : Prop :=
  options.enabled = true →
    ∀ c ∈ document.classes, ∀ f ∈ c.fields, f.rejection? options.policy = none

/-- The ways in which a command can end, with its exit code, its output and the tree that it
leaves behind. -/
inductive Ends (environment : Environment) (tree : FileTree) (arguments : List String) :
    Nat → String → FileTree → Prop where
  | helped (long : Bool) (asked : Flags.ofArguments arguments = .error (.help long)) :
      Ends environment tree arguments 0 (Usage.help long) tree
  | unready (code : Nat) (bad : code ≠ 0)
      (unasked : ∀ long, Flags.ofArguments arguments ≠ .error (.help long))
      (unready : ∀ settings document, ¬ Ready environment tree arguments settings document) :
      Ends environment tree arguments code "" tree
  | surveyed (settings : Settings) (document : Document)
      (ready : Ready environment tree arguments settings document)
      (dry : settings.dryRun = true) :
      Ends environment tree arguments 0 document.surveyText tree
  | rejected (settings : Settings) (document : Document) (code : Nat) (bad : code ≠ 0)
      (ready : Ready environment tree arguments settings document)
      (live : settings.dryRun = false) (rejected : ¬ Accepted settings.options document) :
      Ends environment tree arguments code "" tree
  | printed (settings : Settings) (document : Document)
      (ready : Ready environment tree arguments settings document)
      (live : settings.dryRun = false) (accepted : Accepted settings.options document)
      (silent : settings.output = none) :
      Ends environment tree arguments 0 (modelText settings document) tree
  | saved (settings : Settings) (document : Document) (path : String) (code : Nat)
      (ready : Ready environment tree arguments settings document)
      (live : settings.dryRun = false) (accepted : Accepted settings.options document)
      (named : settings.output = some path)
      (written : code = 0 ↔ (tree.writeText path (modelText settings document)).fault = none) :
      Ends environment tree arguments code ""
        (tree.writeText path (modelText settings document)).tree

theorem exitCode_failed (failure : Failure) : failure.severity.exitCode ≠ 0 := by
  cases failure <;> simp [Failure.severity, Severity.exitCode]

theorem exitCode_zero_iff (account : Account) :
    account.exitCode = 0 ↔ account.failure = none := by
  unfold Account.exitCode
  cases account.failure with
  | none => simp
  | some failure => simp [exitCode_failed failure]

variable {arguments : List String}

theorem execute_ends (settings : Settings) (document : Document)
    (ready : Ready environment tree arguments settings document) :
    let executed := (execute (FileTree.host environment) settings).run tree
    Ends environment tree arguments executed.1.exitCode executed.1.output executed.2 := by
  obtain ⟨loaded, executed⟩ := execute_read environment tree settings document ready.model
  obtain ⟨rejected, processed⟩ := transform_processed environment tree settings document
  have accepted := Document.process_succeeds_iff settings.options document
  rw [executed]
  cases dry : settings.dryRun with
  | true => exact .surveyed settings document ready dry
  | false =>
      simp only [Bool.false_eq_true, ↓reduceIte]
      cases answered : (document.process settings.options).result with
      | error failure =>
          rw [rejected failure answered]
          refine .rejected settings document _ (exitCode_failed failure) ready dry ?_
          intro clean
          obtain ⟨report, succeeded⟩ := accepted.mpr clean
          rw [answered] at succeeded
          cases succeeded
      | ok report =>
          have clean := accepted.mp ⟨report, answered⟩
          rw [processed report answered]
          cases named : settings.output with
          | none =>
              rw [deliver_printed environment tree settings _ report named]
              exact .printed settings document ready dry clean named
          | some path =>
              obtain ⟨account, delivered, silent, written⟩ :=
                deliver_saved environment tree settings _ report path named
              rw [delivered]
              have ended := Ends.saved settings document path account.exitCode ready dry clean
                named ((exitCode_zero_iff account).trans written)
              rw [← silent] at ended
              exact ended

theorem runWith_invalid (settings : Settings) (failure : Failure)
    (invalid : settings.validate = .error failure) :
    (runWith (FileTree.host environment) settings).run tree =
      (completion environment settings 1 "" failure.settingsNotices, tree) := by
  unfold runWith
  simp only [invalid]
  rfl

theorem runWith_valid (settings : Settings) (valid : settings.validate = .ok ()) :
    (runWith (FileTree.host environment) settings).run tree =
      ((execute (FileTree.host environment) settings).run tree).map
        (fun account => completion environment settings account.exitCode account.output
          account.notices) id := by
  unfold runWith
  simp only [valid]
  rfl

/-- A command whose settings can be put together is a run by these settings. -/
theorem run_configured (settings : Settings)
    (configured : Configured environment tree arguments settings) :
    (run (FileTree.host environment) arguments).run tree =
      (runWith (FileTree.host environment) settings).run tree := by
  obtain ⟨flags, file, accepted, said, valid, made⟩ := configured
  obtain ⟨result, read, decided⟩ := settingsFile_read environment tree flags
  cases (decided file).mpr said
  have combined := (settingsOf_ok_iff flags file settings).mpr ⟨valid, made⟩
  simp only [StateT.run] at read
  unfold run
  simp only [accepted, StateT.run, bind, StateT.bind, read, combined]

theorem runWith_ends (settings : Settings)
    (configured : Configured environment tree arguments settings) :
    let done := (runWith (FileTree.host environment) settings).run tree
    Ends environment tree arguments done.1.exitCode done.1.output done.2 := by
  cases valid : settings.validate with
  | error failure =>
      rw [runWith_invalid environment tree settings failure valid]
      refine .unready 1 (by decide) configured.unasked ?_
      intro others document ready
      cases configured.unique ready.configured
      rw [ready.valid] at valid
      cases valid
  | ok _ =>
      rw [runWith_valid environment tree settings valid]
      by_cases read : ∃ document, ModelRead tree settings document
      · obtain ⟨document, model⟩ := read
        exact execute_ends environment tree settings document ⟨configured, valid, model⟩
      · obtain ⟨failure, executed⟩ := execute_unread environment tree settings
          (fun document model => read ⟨document, model⟩)
        rw [executed]
        refine .unready _ (exitCode_failed failure) configured.unasked ?_
        intro others document ready
        cases configured.unique ready.configured
        exact read ⟨document, ready.model⟩

theorem refused_ends (refusal : Flags.Refusal)
    (parsed : Flags.ofArguments arguments = .error refusal) :
    let done := Completion.ofRefusal refusal
    Ends environment tree arguments done.exitCode done.output tree := by
  have unready (settings : Settings) (document : Document) :
      ¬ Ready environment tree arguments settings document := by
    rintro ⟨⟨flags, _, accepted, _⟩, _, _⟩
    rw [parsed] at accepted
    cases accepted
  cases refusal with
  | help long => exact .helped long parsed
  | unknownArgument | invalidValue | tooManyValues | repeated =>
      refine .unready 2 (by decide) ?_ unready
      intro long
      rw [parsed]
      nofun

theorem accepted_ends (flags : Flags) (parsed : Flags.ofArguments arguments = .ok flags) :
    let done := (run (FileTree.host environment) arguments).run tree
    Ends environment tree arguments done.1.exitCode done.1.output done.2 := by
  have unasked (long : Bool) : Flags.ofArguments arguments ≠ .error (.help long) := by
    rw [parsed]
    nofun
  obtain ⟨result, read, decided⟩ := settingsFile_read environment tree flags
  simp only [StateT.run] at read
  unfold run
  simp only [parsed, StateT.run, bind, StateT.bind, read]
  cases result with
  | error failure =>
      refine .unready 1 (by decide) unasked ?_
      rintro settings document ⟨⟨others, file, accepted, said, _⟩, _, _⟩
      cases parsed.symm.trans accepted
      cases (decided file).mpr said
  | ok file =>
      have said := (decided file).mp rfl
      cases combined : settingsOf flags file with
      | error failure =>
          -- Only a file that is not valid fails here, so there are no settings to be ready by.
          simp only [combined]
          refine .unready 1 (by decide) unasked ?_
          rintro settings document ⟨⟨others, other, accepted, again, valid, made⟩, _, _⟩
          cases parsed.symm.trans accepted
          cases said.unique again
          rw [(settingsOf_ok_iff flags file settings).mpr ⟨valid, made⟩] at combined
          cases combined
      | ok settings =>
          simp only [combined]
          obtain ⟨valid, made⟩ := (settingsOf_ok_iff flags file settings).mp combined
          exact runWith_ends environment tree settings
            ⟨flags, file, parsed, said, valid, made⟩

theorem run_ends (arguments : List String) :
    let done := (run (FileTree.host environment) arguments).run tree
    Ends environment tree arguments done.1.exitCode done.1.output done.2 := by
  cases parsed : Flags.ofArguments arguments with
  | ok flags => exact accepted_ends environment tree flags parsed
  | error refusal =>
      have done : (run (FileTree.host environment) arguments).run tree =
          (Completion.ofRefusal refusal, tree) := by
        unfold run
        simp only [parsed]
        rfl
      rw [done]
      exact refused_ends environment tree refusal parsed

end Runs

end Command

end SchemaDefaults
