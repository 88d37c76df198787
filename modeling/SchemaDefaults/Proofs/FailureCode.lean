import SchemaDefaults.Proofs.CommandRun
/-!
Exit codes of failures. A command fails while it puts its settings together or in the run that
they are for. A run that fails tells the severity of its failure by its exit code. Before there
is a run the exit code is one, and no failure that can come up there is of the severity that
this code stands for.
-/

namespace SchemaDefaults

section Severities

namespace Rule

theorem path_medium (field value : String) (failure : Failure)
    (broken : path field value = .error failure) : failure.severity = .medium := by
  unfold path at broken
  split at broken
  · cases broken
    rfl
  · split at broken <;> cases broken
    rfl

theorem extension_medium (field value : String) (allowed : List String) (failure : Failure)
    (broken : extension field value allowed = .error failure) : failure.severity = .medium := by
  unfold extension at broken
  split at broken
  · split at broken <;> cases broken
    rfl
  · cases broken
    rfl

theorem required_medium {α : Type} (field : String) (value : Option α) (failure : Failure)
    (broken : required field value = .error failure) : failure.severity = .medium := by
  cases value <;> cases broken
  rfl

theorem oneOf_medium (field value : String) (allowed : List String) (failure : Failure)
    (broken : oneOf field value allowed = .error failure) : failure.severity = .medium := by
  unfold oneOf at broken
  split at broken <;> cases broken
  rfl

end Rule

namespace SettingsFile

theorem optionalPath_medium (field : String) (value : Option String) (failure : Failure)
    (broken : optionalPath field value = .error failure) : failure.severity = .medium := by
  cases value with
  | none => cases broken
  | some value => exact Rule.path_medium field value failure broken

theorem ofText_medium (environment : Environment) (text : String) (failure : Failure)
    (malformed : ofText environment text = .error failure) : failure.severity = .medium := by
  unfold ofText at malformed
  split at malformed <;> cases malformed
  rfl

theorem policy_medium (file : SettingsFile) (failure : Failure)
    (unknown : file.policy = .error failure) : failure.severity = .medium := by
  unfold policy at unknown
  split at unknown
  · cases unknown
  · rcases (bind_error_iff _ _ _).mp unknown with named | ⟨_, _, found⟩
    · exact Rule.oneOf_medium _ _ _ failure named
    · cases found

theorem validate_medium (file : SettingsFile) (failure : Failure)
    (invalid : file.validate = .error failure) : failure.severity = .medium := by
  rcases (bind_error_iff _ _ _).mp invalid with named | ⟨_, _, paths⟩
  · cases known : file.policy with
    | ok policy =>
        rw [known] at named
        cases named
    | error other =>
        rw [known] at named
        cases named
        exact file.policy_medium failure known
  · rcases (bind_error_iff _ _ _).mp paths with model | ⟨_, _, output⟩
    · exact optionalPath_medium _ _ failure model
    · exact optionalPath_medium _ _ failure output

end SettingsFile

theorem Settings.validate_medium (settings : Settings) (failure : Failure)
    (invalid : settings.validate = .error failure) : failure.severity = .medium := by
  rcases (bind_error_iff _ _ _).mp invalid with missing | ⟨input, _, rest⟩
  · exact Rule.required_medium _ _ failure missing
  · rcases (bind_error_iff _ _ _).mp rest with bad | ⟨_, _, rest⟩
    · exact Rule.path_medium _ _ failure bad
    · rcases (bind_error_iff _ _ _).mp rest with foreign | ⟨_, _, output⟩
      · exact Rule.extension_medium _ _ _ failure foreign
      · exact SettingsFile.optionalPath_medium _ _ failure output

theorem Settings.input_given (settings : Settings) (valid : settings.validate = .ok ()) :
    ∃ path, settings.input = some path := by
  obtain ⟨path, given, _⟩ := (bind_ok_iff _ _ _).mp valid
  cases named : settings.input with
  | none =>
      rw [named] at given
      cases given
  | some path => exact ⟨path, rfl⟩

end Severities

namespace Command

section Stages

inductive Stage where
  | loadingFile
  | validatingFile
  | validatingSettings
  | loadingModel
  | runningPass
  | writingModel
deriving DecidableEq, Repr

namespace Stage

def inRun : Stage → Bool
  | loadingFile | validatingFile | validatingSettings => false
  | loadingModel | runningPass | writingModel => true

def exitCode (stage : Stage) (failure : Failure) : Nat :=
  if stage.inRun then failure.severity.exitCode else 1

end Stage

/-- An exit code that tells the severity of a failure. -/
structure Graded (failure : Failure) (code : Nat) : Prop where
  high : failure.severity = .high → code = 1
  medium : failure.severity = .medium → code = 2
  critical : failure.severity = .critical → code = 3

inductive Fails (environment : Environment) (tree : FileTree) (arguments : List String) :
    Stage → Failure → Prop where
  | unreadFile (flags : Flags) (path : String) (fault : FileFault)
      (accepted : Flags.ofArguments arguments = .ok flags) (named : flags.config = some path)
      (unread : tree.readText path = .error fault) :
      Fails environment tree arguments .loadingFile (.file fault)
  | malformedFile (flags : Flags) (path text : String) (failure : Failure)
      (accepted : Flags.ofArguments arguments = .ok flags) (named : flags.config = some path)
      (read : tree.readText path = .ok text)
      (malformed : SettingsFile.ofText environment text = .error failure) :
      Fails environment tree arguments .loadingFile failure
  | invalidFile (flags : Flags) (file : SettingsFile) (failure : Failure)
      (accepted : Flags.ofArguments arguments = .ok flags)
      (said : SettingsRead environment tree flags file)
      (invalid : file.validate = .error failure) :
      Fails environment tree arguments .validatingFile failure
  | invalidSettings (settings : Settings) (failure : Failure)
      (configured : Configured environment tree arguments settings)
      (invalid : settings.validate = .error failure) :
      Fails environment tree arguments .validatingSettings failure
  | unreadModel (settings : Settings) (path : String) (fault : FileFault)
      (configured : Configured environment tree arguments settings)
      (valid : settings.validate = .ok ()) (named : settings.input = some path)
      (unread : tree.readText path = .error fault) :
      Fails environment tree arguments .loadingModel (.file fault)
  | malformedModel (settings : Settings) (path text : String) (fault : Fault)
      (configured : Configured environment tree arguments settings)
      (valid : settings.validate = .ok ()) (named : settings.input = some path)
      (read : tree.readText path = .ok text)
      (malformed : Document.ofText text = .error fault) :
      Fails environment tree arguments .loadingModel (.model fault)
  | rejected (settings : Settings) (document : Document) (failure : Failure)
      (ready : Ready environment tree arguments settings document)
      (live : settings.dryRun = false)
      (answered : (document.process settings.options).result = .error failure) :
      Fails environment tree arguments .runningPass failure
  | unwritten (settings : Settings) (document : Document) (report : Report) (path : String)
      (fault : FileFault) (ready : Ready environment tree arguments settings document)
      (live : settings.dryRun = false)
      (answered : (document.process settings.options).result = .ok report)
      (named : settings.output = some path)
      (failed : (tree.writeText path (modelText settings document)).fault = some fault) :
      Fails environment tree arguments .writingModel (.file fault)

variable {environment : Environment} {tree : FileTree} {arguments : List String}

/-- What fails before the run is never of the severity that the exit code one stands for. -/
theorem Fails.early_severity {stage : Stage} {failure : Failure}
    (failed : Fails environment tree arguments stage failure) (early : stage.inRun = false) :
    failure.severity = .medium ∨ failure.severity = .critical := by
  cases failed with
  | unreadFile _ _ _ _ _ _ => exact .inr rfl
  | malformedFile _ _ text failure _ _ _ malformed =>
      exact .inl (SettingsFile.ofText_medium environment text failure malformed)
  | invalidFile _ file failure _ _ invalid => exact .inl (file.validate_medium failure invalid)
  | invalidSettings settings failure _ invalid =>
      exact .inl (settings.validate_medium failure invalid)
  | unreadModel | malformedModel | rejected | unwritten => cases early

theorem exitCode_graded (failure : Failure) : Graded failure failure.severity.exitCode :=
  ⟨fun high => by rw [high]; rfl, fun medium => by rw [medium]; rfl,
    fun critical => by rw [critical]; rfl⟩

end Stages

section Runs

variable (environment : Environment) (tree : FileTree)

theorem settingsFile_unread (flags : Flags) (path : String) (fault : FileFault)
    (named : flags.config = some path) (unread : tree.readText path = .error fault) :
    (settingsFile (FileTree.host environment) flags).run tree = (.error (.file fault), tree) := by
  unfold settingsFile
  simp only [named, Host.loadSettings, StateT.run, bind, StateT.bind, readText_host, unread]
  rfl

theorem settingsFile_text (flags : Flags) (path text : String)
    (named : flags.config = some path) (read : tree.readText path = .ok text) :
    (settingsFile (FileTree.host environment) flags).run tree =
      (SettingsFile.ofText environment text, tree) := by
  unfold settingsFile
  simp only [named, Host.loadSettings, StateT.run, bind, StateT.bind, readText_host, read]
  rfl

theorem deliver_failure (settings : Settings) (document : Document) (report : Report) :
    ((deliver (FileTree.host environment) settings document report).run tree).1.failure =
      settings.output.bind fun path =>
        (tree.writeText path (document.fileText settings.pretty)).fault.map Failure.file := by
  unfold deliver
  cases settings.output with
  | none => rfl
  | some path =>
      simp only [Host.saveDocument, StateT.run, bind, StateT.bind, writeText_host]
      cases failed : (tree.writeText path (document.fileText settings.pretty)).fault <;>
        simp only [Option.bind_some, failed] <;> rfl

variable {environment tree} {arguments : List String}

/-- A command by valid settings leaves the exit code to its run. -/
theorem run_exitCode (settings : Settings)
    (configured : Configured environment tree arguments settings)
    (valid : settings.validate = .ok ()) :
    ((run (FileTree.host environment) arguments).run tree).1.exitCode =
      ((execute (FileTree.host environment) settings).run tree).1.exitCode := by
  rw [run_configured environment tree settings configured,
    runWith_valid environment tree settings valid]
  rfl

theorem run_graded (settings : Settings) (failure : Failure)
    (configured : Configured environment tree arguments settings)
    (valid : settings.validate = .ok ())
    (failed : ((execute (FileTree.host environment) settings).run tree).1.failure =
      some failure) :
    ((run (FileTree.host environment) arguments).run tree).1.exitCode =
      failure.severity.exitCode := by
  rw [run_exitCode settings configured valid, Account.exitCode, failed]

theorem run_unread (flags : Flags) (failure : Failure)
    (accepted : Flags.ofArguments arguments = .ok flags)
    (failed : (settingsFile (FileTree.host environment) flags).run tree =
      (.error failure, tree)) :
    ((run (FileTree.host environment) arguments).run tree).1.exitCode = 1 := by
  simp only [StateT.run] at failed
  unfold run
  simp only [accepted, StateT.run, bind, StateT.bind, failed]
  rfl

theorem run_invalidFile (flags : Flags) (file : SettingsFile) (failure : Failure)
    (accepted : Flags.ofArguments arguments = .ok flags)
    (said : SettingsRead environment tree flags file)
    (invalid : file.validate = .error failure) :
    ((run (FileTree.host environment) arguments).run tree).1.exitCode = 1 := by
  obtain ⟨result, read, decided⟩ := settingsFile_read environment tree flags
  cases (decided file).mpr said
  have combined : settingsOf flags file = .error failure := by
    rw [settingsOf, invalid]
    rfl
  simp only [StateT.run] at read
  unfold run
  simp only [accepted, StateT.run, bind, StateT.bind, read, combined]
  rfl

theorem execute_unreadModel (settings : Settings) (path : String) (fault : FileFault)
    (named : settings.input = some path) (unread : tree.readText path = .error fault) :
    ((execute (FileTree.host environment) settings).run tree).1.failure =
      some (.file fault) := by
  unfold execute
  simp only [named, Host.loadDocument, StateT.run, bind, StateT.bind, readText_host, unread]
  rfl

theorem execute_malformedModel (settings : Settings) (path text : String) (fault : Fault)
    (named : settings.input = some path) (read : tree.readText path = .ok text)
    (malformed : Document.ofText text = .error fault) :
    ((execute (FileTree.host environment) settings).run tree).1.failure =
      some (.model fault) := by
  unfold execute
  simp only [named, Host.loadDocument, StateT.run, bind, StateT.bind, readText_host, read,
    malformed]
  rfl

/-- Over a model that loads, a run fails as the pass does, or else as the write does. -/
theorem execute_failure (settings : Settings) (document : Document)
    (model : ModelRead tree settings document) (live : settings.dryRun = false) :
    ((execute (FileTree.host environment) settings).run tree).1.failure =
      match (document.process settings.options).result with
      | .error failure => some failure
      | .ok _ => settings.output.bind fun path =>
          (tree.writeText path (modelText settings document)).fault.map Failure.file := by
  obtain ⟨loaded, executed⟩ := execute_read environment tree settings document model
  obtain ⟨rejected, processed⟩ := transform_processed environment tree settings document
  rw [executed, live]
  cases answered : (document.process settings.options).result with
  | error failure =>
      simp only [Bool.false_eq_true, ↓reduceIte, rejected failure answered]
      rfl
  | ok report =>
      simp only [Bool.false_eq_true, ↓reduceIte, processed report answered]
      exact deliver_failure environment tree settings _ report

end Runs

section Codes

variable {environment : Environment} {tree : FileTree} {arguments : List String}

theorem Fails.exitCode {stage : Stage} {failure : Failure}
    (failed : Fails environment tree arguments stage failure) :
    ((run (FileTree.host environment) arguments).run tree).1.exitCode =
      stage.exitCode failure := by
  cases failed with
  | unreadFile flags path fault accepted named unread =>
      exact run_unread flags _ accepted
        (settingsFile_unread environment tree flags path fault named unread)
  | malformedFile flags path text failure accepted named read malformed =>
      have said := settingsFile_text environment tree flags path text named read
      rw [malformed] at said
      exact run_unread flags failure accepted said
  | invalidFile flags file failure accepted said invalid =>
      exact run_invalidFile flags file failure accepted said invalid
  | invalidSettings settings failure configured invalid =>
      rw [run_configured environment tree settings configured,
        runWith_invalid environment tree settings failure invalid]
      rfl
  | unreadModel settings path fault configured valid named unread =>
      exact run_graded settings _ configured valid
        (execute_unreadModel settings path fault named unread)
  | malformedModel settings path text fault configured valid named read malformed =>
      exact run_graded settings _ configured valid
        (execute_malformedModel settings path text fault named read malformed)
  | rejected settings document failure ready live answered =>
      apply run_graded settings failure ready.configured ready.valid
      rw [execute_failure settings document ready.model live, answered]
  | unwritten settings document report path fault ready live answered named failed =>
      apply run_graded settings (.file fault) ready.configured ready.valid
      rw [execute_failure settings document ready.model live, answered]
      simp only [named, Option.bind_some, failed, Option.map_some]

theorem Fails.of_ready (settings : Settings) (document : Document)
    (ready : Ready environment tree arguments settings document) (failure : Failure)
    (failed : ((execute (FileTree.host environment) settings).run tree).1.failure =
      some failure) :
    ∃ stage, Fails environment tree arguments stage failure := by
  cases live : settings.dryRun with
  | true =>
      obtain ⟨loaded, executed⟩ := execute_read environment tree settings document ready.model
      rw [executed, live] at failed
      cases failed
  | false =>
      rw [execute_failure settings document ready.model live] at failed
      cases answered : (document.process settings.options).result with
      | error other =>
          simp only [answered, Option.some.injEq] at failed
          subst failed
          exact ⟨_, .rejected settings document other ready live answered⟩
      | ok report =>
          simp only [answered, Option.bind_eq_some_iff, Option.map_eq_some_iff] at failed
          obtain ⟨path, named, fault, written, rfl⟩ := failed
          exact ⟨_, .unwritten settings document report path fault ready live answered named
            written⟩

theorem Fails.of_run (settings : Settings)
    (configured : Configured environment tree arguments settings)
    (valid : settings.validate = .ok ()) (failure : Failure)
    (failed : ((execute (FileTree.host environment) settings).run tree).1.failure =
      some failure) :
    ∃ stage, Fails environment tree arguments stage failure := by
  obtain ⟨path, named⟩ := settings.input_given valid
  cases found : tree.readText path with
  | error fault =>
      rw [execute_unreadModel settings path fault named found] at failed
      cases failed
      exact ⟨_, .unreadModel settings path fault configured valid named found⟩
  | ok text =>
      cases decoded : Document.ofText text with
      | error fault =>
          rw [execute_malformedModel settings path text fault named found decoded] at failed
          cases failed
          exact ⟨_, .malformedModel settings path text fault configured valid named found decoded⟩
      | ok document =>
          have model : ModelRead tree settings document := ⟨path, text, named, found, decoded⟩
          exact of_ready settings document ⟨configured, valid, model⟩ failure failed

theorem settings_read_or_failed (environment : Environment) (tree : FileTree) (flags : Flags)
    (accepted : Flags.ofArguments arguments = .ok flags) :
    (∃ file, SettingsRead environment tree flags file) ∨
      ∃ failure, Fails environment tree arguments .loadingFile failure := by
  unfold SettingsRead
  cases named : flags.config with
  | none => exact .inl ⟨.empty, rfl⟩
  | some path =>
      cases read : tree.readText path with
      | error fault => exact .inr ⟨_, .unreadFile flags path fault accepted named read⟩
      | ok text =>
          cases said : SettingsFile.ofText environment text with
          | error failure =>
              exact .inr ⟨_, .malformedFile flags path text failure accepted named read said⟩
          | ok file => exact .inl ⟨file, text, read, said⟩

/-- With exit code zero nothing has failed, and with any other one something has. -/
theorem failed_iff (flags : Flags) (accepted : Flags.ofArguments arguments = .ok flags) :
    ((run (FileTree.host environment) arguments).run tree).1.exitCode ≠ 0 ↔
      ∃ stage failure, Fails environment tree arguments stage failure := by
  constructor
  · intro bad
    rcases settings_read_or_failed environment tree flags accepted with
      ⟨file, said⟩ | ⟨failure, failed⟩
    · cases checked : file.validate with
      | error failure => exact ⟨_, _, .invalidFile flags file failure accepted said checked⟩
      | ok _ =>
          have configured : Configured environment tree arguments (Settings.combined flags file) :=
            ⟨flags, file, accepted, said, checked, rfl⟩
          cases valid : (Settings.combined flags file).validate with
          | error failure => exact ⟨_, _, .invalidSettings _ failure configured valid⟩
          | ok _ =>
              rw [run_exitCode _ configured valid, Ne, exitCode_zero_iff, ← Ne,
                Option.ne_none_iff_exists'] at bad
              obtain ⟨failure, failed⟩ := bad
              obtain ⟨stage, found⟩ := Fails.of_run _ configured valid failure failed
              exact ⟨stage, failure, found⟩
    · exact ⟨_, failure, failed⟩
  · rintro ⟨stage, failure, failed⟩
    rw [failed.exitCode, Stage.exitCode]
    split
    · exact exitCode_failed failure
    · decide

/-- A command whose line is accepted ends with exit code zero unless something has failed. The
exit code of a failure tells its severity exactly if settings had been put together and found
valid before. Every failure up to there is of medium or critical severity, and has the exit code
one all the same. -/
theorem exit_code_by_stage (environment : Environment) (tree : FileTree)
    (arguments : List String) (flags : Flags)
    (accepted : Flags.ofArguments arguments = .ok flags) :
    let code := ((run (FileTree.host environment) arguments).run tree).1.exitCode
    (code ≠ 0 ↔ ∃ stage failure, Fails environment tree arguments stage failure) ∧
      ∀ stage failure, Fails environment tree arguments stage failure →
        code = (if stage.inRun then failure.severity.exitCode else 1) ∧
          (Graded failure code ↔ stage.inRun = true) ∧
          (stage.inRun = false → failure.severity = .medium ∨ failure.severity = .critical) := by
  refine ⟨failed_iff flags accepted, ?_⟩
  intro stage failure failed
  have code := failed.exitCode
  refine ⟨code, ?_, failed.early_severity⟩
  rw [code, Stage.exitCode]
  cases early : stage.inRun with
  | true => exact ⟨fun _ => rfl, fun _ => exitCode_graded failure⟩
  | false =>
      refine ⟨fun graded => ?_, nofun⟩
      simp only [Bool.false_eq_true, ↓reduceIte] at graded
      rcases failed.early_severity early with severity | severity
      · exact absurd (graded.medium severity) (by decide)
      · exact absurd (graded.critical severity) (by decide)

section Sample

theorem unnamed_fails :
    Fails Environment.empty ⟨[], []⟩ [] .validatingSettings (.missing "input") :=
  .invalidSettings _ _ ⟨.silent, .empty, rfl, rfl, rfl, rfl⟩ rfl

theorem absent_fails :
    Fails Environment.empty ⟨[], []⟩ ["model.json"] .loadingModel (.file .notFound) :=
  .unreadModel _ "model.json" .notFound ⟨_, .empty, rfl, rfl, rfl, rfl⟩ rfl rfl rfl

/-- The first line fails before there is a run, and the second one in it. -/
theorem sample_exit_codes :
    Fails Environment.empty ⟨[], []⟩ [] .validatingSettings (.missing "input") ∧
      ((run (FileTree.host Environment.empty) []).run ⟨[], []⟩).1.exitCode = 1 ∧
      Fails Environment.empty ⟨[], []⟩ ["model.json"] .loadingModel (.file .notFound) ∧
      ((run (FileTree.host Environment.empty) ["model.json"]).run ⟨[], []⟩).1.exitCode = 3 := by
  obtain ⟨_, early⟩ := exit_code_by_stage Environment.empty ⟨[], []⟩ [] .silent rfl
  obtain ⟨_, late⟩ := exit_code_by_stage Environment.empty ⟨[], []⟩ ["model.json"]
    { Flags.silent with input := some "model.json" } rfl
  exact ⟨unnamed_fails, (early _ _ unnamed_fails).1, absent_fails, (late _ _ absent_fails).1⟩

/-- A line without a model misses a setting, which is of medium severity. Its exit code is that
of high severity. -/
theorem unnamed_not_graded :
    Flags.ofArguments [] = .ok .silent ∧
      Fails Environment.empty ⟨[], []⟩ [] .validatingSettings (.missing "input") ∧
      (Failure.missing "input").severity = .medium ∧
      ¬ Graded (.missing "input")
        ((run (FileTree.host Environment.empty) []).run ⟨[], []⟩).1.exitCode := by
  refine ⟨rfl, unnamed_fails, rfl, ?_⟩
  intro graded
  rw [unnamed_fails.exitCode] at graded
  exact absurd (graded.medium rfl) (by decide)

end Sample

end Codes

end Command

end SchemaDefaults
