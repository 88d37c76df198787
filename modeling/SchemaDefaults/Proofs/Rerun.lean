import SchemaDefaults.Proofs.DocumentText
import SchemaDefaults.Proofs.ExitCode
import SchemaDefaults.Proofs.RunResult
/-!
Running a command again. The model text that a command produces is the same on its output and in a
file, and it says all that the command has had in memory. So another command can take over from
the text: by the same options it produces the same text once more.
-/

namespace SchemaDefaults

namespace Command

section Production

/-- A command by valid settings that is not just to survey the model has reported success, and
has left the text in the file that it was to write, or else on its output. -/
structure Produces (environment : Environment) (tree : FileTree) (arguments : List String)
    (settings : Settings) (text : String) : Prop where
  configured : Configured environment tree arguments settings
  valid : settings.validate = .ok ()
  live : settings.dryRun = false
  succeeded : ((run (FileTree.host environment) arguments).run tree).1.exitCode = 0
  placed : match settings.output with
    | none => ((run (FileTree.host environment) arguments).run tree).1.output = text
    | some path =>
      ((run (FileTree.host environment) arguments).run tree).2.readText path = .ok text

variable {environment : Environment} {tree after : FileTree} {arguments : List String}
  {code : Nat} {output : String} {settings : Settings} {document : Document}

theorem produces_iff (configured : Configured environment tree arguments settings)
    (valid : settings.validate = .ok ()) (live : settings.dryRun = false) (text : String) :
    Produces environment tree arguments settings text ↔
      ∃ document, ModelRead tree settings document ∧ Accepted settings.options document ∧
        (∀ path, settings.output = some path → (tree.writeText path text).fault = none) ∧
        text = modelText settings document := by
  have ended := run_ends environment tree arguments
  constructor
  · intro produced
    have zero := produced.succeeded
    rcases ended.zero_iff.mp zero with ⟨long, asked⟩ | ⟨others, document, ready, fulfilled⟩
    · exact absurd asked (configured.unasked long)
    · cases configured.unique ready.configured
      have same : text = modelText settings document := by
        have left := produced.placed
        have right := ended.placed settings document ready live zero
        cases named : settings.output with
        | none =>
            simp only [named] at left right
            exact left.symm.trans right
        | some path =>
            simp only [named] at left right
            cases left.symm.trans right
            rfl
      subst same
      rcases fulfilled with dry | ⟨accepted, writable⟩
      · rw [live] at dry
        cases dry
      · exact ⟨document, ready.model, accepted, writable, rfl⟩
  · rintro ⟨document, model, accepted, writable, rfl⟩
    have ready : Ready environment tree arguments settings document := ⟨configured, valid, model⟩
    have zero := (ended.ready_zero_iff settings document ready).mpr (.inr ⟨accepted, writable⟩)
    exact ⟨configured, valid, live, zero, ended.placed settings document ready live zero⟩

/-- The document that a run has left in memory is accepted again, and gives the same text. -/
theorem modelText_held (document : Document) (accepted : Accepted settings.options document) :
    Accepted settings.options (document.process settings.options).document ∧
      modelText settings (document.process settings.options).document =
        modelText settings document := by
  obtain ⟨held, again⟩ := document.process_process settings.options
  have succeeds := Document.process_succeeds_iff settings.options
  refine ⟨(succeeds _).mp (again.mpr ((succeeds document).mpr accepted)), ?_⟩
  rw [modelText, held, modelText]

end Production

/-- The text that a command produces reads as the document that the command has held in memory
after the pass and the acknowledgement, whether it is printed or written to a file. Any other command by the same options and layout
produces the same text, over the same model as well as over the text itself, and wherever it is
to leave it. -/
theorem produced_text_stable (environment : Environment) (tree : FileTree)
    (arguments : List String) (settings : Settings) (text : String)
    (produced : Produces environment tree arguments settings text) :
    ∃ document, ModelRead tree settings document ∧
      (∃ report, let passed := Pass.run Sink.console settings.options document.classes ()
        passed.result = .ok report ∧ (document.process settings.options).document =
          ⟨(Acknowledgement.acknowledge report.acknowledged passed.classes).1⟩) ∧
      text = (document.process settings.options).document.fileText settings.pretty ∧
      Document.ofText text = .ok (document.process settings.options).document ∧
      ∀ (surroundings : Environment) (files : FileTree) (line : List String)
        (others : Settings), Configured surroundings files line others →
        others.validate = .ok () → others.dryRun = false →
        others.options = settings.options → others.pretty = settings.pretty →
        (ModelRead files others document ∨
          ∃ path, others.input = some path ∧ files.readText path = .ok text) →
        (∀ path, others.output = some path → (files.writeText path text).fault = none) →
        Produces surroundings files line others text := by
  obtain ⟨document, model, accepted, _, made⟩ :=
    (produces_iff produced.configured produced.valid produced.live text).mp produced
  have read : Document.ofText text = .ok (document.process settings.options).document := by
    rw [made]
    exact Document.ofText_fileText settings.pretty _
  obtain ⟨report, processed⟩ := (Document.process_succeeds_iff settings.options document).mpr accepted
  refine ⟨document, model, ⟨report, document.process_held settings.options report processed⟩, made,
    read, ?_⟩
  intro surroundings files line others configured valid live sameOptions samePretty given writable
  apply (produces_iff configured valid live text).mpr
  have sameText (source : Document) : modelText others source = modelText settings source := by
    rw [modelText, modelText, sameOptions, samePretty]
  -- The text reads as a processed document, and processing that one changes nothing.
  rcases given with again | ⟨path, named, stored⟩
  · refine ⟨document, again, ?_, writable, ?_⟩
    · rw [sameOptions]
      exact accepted
    · rw [sameText, made]
  · obtain ⟨acceptedAgain, textAgain⟩ := modelText_held document accepted
    refine ⟨_, ⟨path, text, named, stored, read⟩, ?_, writable, ?_⟩
    · rw [sameOptions]
      exact acceptedAgain
    · rw [sameText, textAgain, made]

section Sample

def sampleModel : Document :=
  ⟨[⟨"Host", none,
    [⟨"retries", .attribute (some "3"), [Pass.sampleMarker 4, Pass.sampleMarker 5], none,
        some ⟨.integer .int, none⟩⟩,
      ⟨"port", .attribute (some "110"), [], none, some ⟨.integer .int, none⟩⟩]⟩]⟩

def sampleFiles : FileTree :=
  FileTree.ofFiles ["work"] [("model.json", .text (sampleModel.fileText true))]

def sampleLine : List String := ["--Xattrinit", "model.json", "-o", "out/model.json"]

def sampleSettings : Settings :=
  { input := some "model.json"
    output := some "out/model.json"
    pretty := false
    verbose := false
    jsonLogs := false
    dryRun := false
    options := ⟨true, .schemaDefault⟩ }

def sampleText : String := modelText sampleSettings sampleModel

theorem sample_produced :
    Produces Environment.empty sampleFiles sampleLine sampleSettings sampleText := by
  have configured : Configured Environment.empty sampleFiles sampleLine sampleSettings :=
    ⟨_, .empty, rfl, rfl, rfl, rfl⟩
  apply (produces_iff configured rfl rfl sampleText).mpr
  refine ⟨sampleModel, ?_, ?_, ?_, rfl⟩
  · exact ⟨"model.json", _, rfl, rfl, sampleModel.ofText_fileText true⟩
  · intro _
    simp only [sampleModel, List.mem_cons, List.not_mem_nil, or_false, forall_eq, forall_eq_or_imp]
    exact ⟨rfl, rfl⟩
  · intro path named
    cases named
    rfl

theorem sample_produced_again :
    Produces Environment.empty sampleFiles sampleLine sampleSettings sampleText ∧
      Produces Environment.empty (sampleFiles.writeText "out/model.json" sampleText).tree
        ["out/model.json", "--Xattrinit"]
        { sampleSettings with input := some "out/model.json", output := none } sampleText := by
  obtain ⟨_, _, _, _, _, again⟩ := produced_text_stable Environment.empty sampleFiles sampleLine
    sampleSettings sampleText sample_produced
  refine ⟨sample_produced, ?_⟩
  apply again
  · exact ⟨_, .empty, rfl, rfl, rfl, rfl⟩
  · rfl
  · rfl
  · rfl
  · rfl
  · exact .inr ⟨"out/model.json", rfl, rfl⟩
  · nofun

end Sample

end Command

end SchemaDefaults
