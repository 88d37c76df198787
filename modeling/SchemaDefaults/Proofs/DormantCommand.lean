import SchemaDefaults.Proofs.FailureCode
import SchemaDefaults.Proofs.Rerun
/-!
A command that leaves the pass off. It brings the text of the model into the form in which
models are written, and does nothing else to it. The policy plays no part, and fields that an
enabled run would reject are written as they are. Only the write can fail, and only its failure
is an error in the journal.
-/

namespace SchemaDefaults

section Journal

theorem Processed.unrecognizedEvents_warn (classes : List GeneratedClass) (e : Event)
    (said : e ∈ unrecognizedEvents classes) : e.level = .warn := by
  obtain ⟨unread, _, shown⟩ := List.mem_flatMap.mp said
  cases List.mem_singleton.mp shown
  rfl

theorem Document.process_dormant_calm (policy : Policy) (d : Document) (e : Event)
    (said : e ∈ (d.process ⟨false, policy⟩).events) : e.level ≠ .error := by
  simp only [process, Pass.run, Bool.false_eq_true, ↓reduceIte, List.cons_append,
    List.nil_append, List.mem_cons] at said
  rcases said with rfl | rfl | unread
  · exact Level.noConfusion
  · exact Level.noConfusion
  · rw [Processed.unrecognizedEvents_warn _ e unread]
    exact Level.noConfusion

/-- The events of a failure come from the command itself, not from its sink. -/
theorem Failure.runNotices_command (failure : Failure) (e : Event)
    (said : Notice.event e ∈ failure.runNotices) : e.origin = .command := by
  simp only [runNotices, commandError, List.mem_cons, Notice.event.injEq, reduceCtorEq,
    List.not_mem_nil, or_false] at said
  rcases said with rfl | rfl <;> rfl

/-- If no event of the run itself is an error, only the failure that ended it tells of one. -/
theorem Account.notices_error (account : Account) (calm : ∀ e ∈ account.events, e.level ≠ .error)
    (e : Event) (shown : Notice.event e ∈ account.notices) (grave : e.level = .error) :
    ∃ failure, account.failure = some failure ∧ Notice.event e ∈ failure.runNotices := by
  rcases List.mem_append.mp shown with told | ended
  · obtain ⟨same, member, eq⟩ := List.mem_map.mp told
    cases eq
    exact absurd grave (calm _ member)
  · cases failed : account.failure with
    | none =>
        rw [failed] at ended
        cases ended
    | some failure =>
        rw [failed] at ended
        exact ⟨failure, rfl, ended⟩

namespace Command

variable (environment : Environment) (tree : FileTree)

theorem deliver_calm (settings : Settings) (document : Document) (report : Report) (e : Event)
    (said : e ∈
      ((deliver (FileTree.host environment) settings document report).run tree).1.events) :
    e.level ≠ .error := by
  unfold deliver at said
  cases named : settings.output with
  | none =>
      rw [named] at said
      cases said
  | some path =>
      simp only [named, Host.saveDocument, StateT.run, bind, StateT.bind, writeText_host] at said
      cases written : (tree.writeText path (document.fileText settings.pretty)).fault with
      | some fault =>
          rw [written] at said
          cases said
      | none =>
          rw [written] at said
          rcases List.mem_cons.mp said with rfl | rest
          · exact Level.noConfusion
          · cases List.mem_singleton.mp rest
            exact Level.noConfusion

end Command

end Journal

namespace Command

variable {environment : Environment} {tree : FileTree}

/-- The failure of the write, if there is one. -/
def writeFailure (tree : FileTree) (settings : Settings) (text : String) : Option Failure :=
  settings.output.bind fun path => (tree.writeText path text).fault.map Failure.file

theorem modelText_dormant (settings : Settings) (document : Document)
    (off : settings.options.enabled = false) :
    modelText settings document = document.fileText settings.pretty := by
  have dormant : settings.options = ⟨false, settings.options.policy⟩ := by rw [← off]
  rw [modelText, dormant, (document.process_dormant settings.options.policy).2]

/-- With the pass off, a document is delivered as it was loaded. -/
theorem execute_dormant (settings : Settings) (document : Document)
    (model : ModelRead tree settings document) (live : settings.dryRun = false)
    (off : settings.options.enabled = false) :
    let account := ((execute (FileTree.host environment) settings).run tree).1
    account.failure = writeFailure tree settings (document.fileText settings.pretty) ∧
      ∀ e ∈ account.events, e.level ≠ .error := by
  have dormant : settings.options = ⟨false, settings.options.policy⟩ := by rw [← off]
  obtain ⟨answered, untouched⟩ := Document.process_dormant settings.options.policy document
  have calm := Document.process_dormant_calm settings.options.policy document
  obtain ⟨loaded, executed⟩ := execute_read environment tree settings document model
  obtain ⟨_, processed⟩ := transform_processed environment tree settings document
  rw [← dormant] at answered untouched calm
  simp only [executed, live, Bool.false_eq_true, ↓reduceIte,
    processed Pass.dormantReport answered, untouched]
  refine ⟨deliver_failure environment tree settings document _, ?_⟩
  intro e said
  rcases List.mem_append.mp said with first | later
  · cases List.mem_singleton.mp first
    exact Level.noConfusion
  · rcases List.mem_append.mp later with passed | delivered
    · exact calm e passed
    · exact deliver_calm environment tree settings document _ e delivered

/-- A command by valid settings that enable the pass neither by flag nor by file, and that is
not just to survey the model, has the loaded document itself for its text, and this text loads
as the document again. The exit code is zero unless the text is to be written and cannot be.
No fatal diagnostic is in the journal, and no error but that of the write. -/
theorem dormant_command_normalises (environment : Environment) (tree : FileTree)
    (arguments : List String) (flags : Flags) (file : SettingsFile) (document : Document)
    (accepted : Flags.ofArguments arguments = .ok flags)
    (said : SettingsRead environment tree flags file) (valid : file.validate = .ok ())
    (unasked : file.enabled ≠ some true) (disabled : flags.enable = false)
    (live : flags.dryRun = false)
    (sound : (Settings.combined flags file).validate = .ok ())
    (model : ModelRead tree (Settings.combined flags file) document) :
    let settings := Settings.combined flags file
    let text := document.fileText settings.pretty
    let done := (run (FileTree.host environment) arguments).run tree
    let account := ((execute (FileTree.host environment) settings).run tree).1
    Document.ofText text = .ok document ∧
      (done.1.exitCode = 0 ↔
        ∀ path, settings.output = some path → (tree.writeText path text).fault = none) ∧
      (done.1.exitCode = 0 → match settings.output with
        | none => done.1.output = text
        | some path => done.2.readText path = .ok text) ∧
      done.1 = completion environment settings account.exitCode account.output
        account.notices ∧
      (∀ d, ∀ e ∈ (Sink.console.fatal d ()).events, Notice.event e ∉ account.notices) ∧
      ∀ e, Notice.event e ∈ account.notices → e.level = .error →
        ∃ failure, writeFailure tree settings text = some failure ∧
          Notice.event e ∈ failure.runNotices := by
  intro settings text done account
  have configured : Configured environment tree arguments settings :=
    ⟨flags, file, accepted, said, valid, rfl⟩
  have ready : Ready environment tree arguments settings document := ⟨configured, sound, model⟩
  have off : settings.options.enabled = false := by
    simp only [settings, Settings.combined, disabled, Bool.or_false]
    cases written : file.enabled with
    | none => rfl
    | some on =>
        cases on with
        | false => rfl
        | true => exact absurd written unasked
  have clean : Accepted settings.options document := fun on => by rw [off] at on; cases on
  have normal : modelText settings document = text := modelText_dormant settings document off
  have ended := run_ends environment tree arguments
  have zero := ended.ready_zero_iff settings document ready
  have running : settings.dryRun = false := live
  simp only [Fulfilled, running, clean, normal, Bool.false_eq_true, false_or, true_and] at zero
  have placed := ended.placed settings document ready live
  rw [normal] at placed
  obtain ⟨failure, calm⟩ := execute_dormant settings document model live off
  have errors (e : Event) (shown : Notice.event e ∈ account.notices) (grave : e.level = .error) :
      ∃ failure, writeFailure tree settings text = some failure ∧
        Notice.event e ∈ failure.runNotices := by
    rw [← failure]
    exact account.notices_error calm e shown grave
  refine ⟨document.ofText_fileText settings.pretty, zero, placed, ?_, ?_, errors⟩
  · have run := run_configured environment tree settings configured
    rw [runWith_valid environment tree settings sound] at run
    exact congrArg Prod.fst run
  · intro d e fatal shown
    cases List.mem_singleton.mp fatal
    -- The sink tells of a fatal diagnostic as an error, but the only errors are the command's own.
    obtain ⟨failure, _, told⟩ := errors _ shown rfl
    cases failure.runNotices_command _ told

section Sample

def dormantSettings : String :=
  "[pass]\nenabled = false\npolicy = \"annotation-literal\"\n[output]\npretty = true\n"

def dormantFiles : FileTree :=
  FileTree.ofFiles ["work"]
    [("settings.toml", .text dormantSettings),
      ("model.json", .text (Document.fileText false ⟨[Pass.sampleClass]⟩))]

def dormantLine : List String := ["-c", "settings.toml", "model.json"]

theorem dormantSettings_read : SettingsFile.ofText Environment.empty dormantSettings =
    .ok { SettingsFile.empty with
      enabled := some false, policyName := some "annotation-literal", pretty := some true } :=
  (SettingsFile.ofText_ok_iff _ _ _).mpr (by decide +kernel)

/-- An enabled run would reject the element. -/
theorem sample_dormant_command :
    ((run (FileTree.host Environment.empty) dormantLine).run dormantFiles).1.exitCode = 0 ∧
      ((run (FileTree.host Environment.empty) dormantLine).run dormantFiles).1.output =
        Document.fileText true ⟨[Pass.sampleClass]⟩ ∧
      ¬ Accepted ⟨true, .annotationLiteral⟩ ⟨[Pass.sampleClass]⟩ := by
  obtain ⟨_, zero, placed, _⟩ := dormant_command_normalises Environment.empty dormantFiles
    dormantLine { Flags.silent with config := some "settings.toml", input := some "model.json" }
    _ ⟨[Pass.sampleClass]⟩ rfl ⟨dormantSettings, rfl, dormantSettings_read⟩ rfl nofun rfl rfl rfl
    ⟨"model.json", _, rfl, rfl, Document.ofText_fileText false _⟩
  have succeeded := zero.mpr nofun
  refine ⟨succeeded, placed succeeded, ?_⟩
  intro accepted
  have rejected := accepted rfl Pass.sampleClass List.mem_cons_self _
    (List.mem_cons_of_mem _ (List.mem_cons_of_mem _ List.mem_cons_self))
  cases rejected

end Sample

end Command

end SchemaDefaults
