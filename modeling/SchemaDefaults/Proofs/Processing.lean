import SchemaDefaults.Command
import SchemaDefaults.Proofs.Marking
import SchemaDefaults.Proofs.Run
/-!
A document in the hands of a command. The command's own sink refuses nothing, so processing
fails only where a field is rejected. A processed document is processed for good: to do it once
more changes nothing.
-/

namespace SchemaDefaults

section Verdicts

theorem stream_quiet_iff (policy : Policy) (classes : List GeneratedClass) :
    (diagnosticStream policy classes).countP Diagnostic.isFatal = 0 ↔
      ∀ c ∈ classes, ∀ f ∈ c.fields, f.rejection? policy = none := by
  simp only [List.countP_eq_zero, diagnosticStream, GeneratedClass.diagnostics, List.mem_flatMap]
  constructor
  · intro quiet c member f inside
    cases rejected : f.rejection? policy with
    | none => rfl
    | some d =>
        have sent : d ∈ f.diagnostics policy := by
          rw [f.diagnostics_rejected policy d rejected]
          exact List.mem_append_right _ List.mem_cons_self
        have mild := quiet d ⟨c, member, f, inside, sent⟩
        exact absurd (decide_eq_true (f.rejection_fatal policy d rejected)) mild
  · rintro quiet d ⟨c, member, f, inside, sent⟩ fatal
    have rejected := f.diagnostics_fatal policy d sent (of_decide_eq_true fatal)
    rw [quiet c member f inside] at rejected
    cases rejected

theorem Report.result_ok_iff (r report : Report) :
    r.result = .ok report ↔ r.fatals = 0 ∧ report = r := by
  unfold result succeeded
  by_cases clean : r.fatals = 0 <;> simp [clean, eq_comm]

end Verdicts

namespace Document

section Processing

theorem console_accepting : Sink.console.Accepting :=
  fun _ _ => ⟨rfl, rfl⟩

/-- What is in memory behind a run that did not break off is the model of that run, with the marks
that its report asks for. -/
theorem process_held (options : PassOptions) (d : Document) (report : Report)
    (processed : (d.process options).result = .ok report) :
    let passed := Pass.run Sink.console options d.classes ()
    passed.result = .ok report ∧ (d.process options).document =
      ⟨(Acknowledgement.acknowledge report.acknowledged passed.classes).1⟩ := by
  intro passed
  unfold process at processed ⊢
  cases answered : (Pass.run Sink.console options d.classes ()).result with
  | error failure =>
      simp only [answered] at processed
      cases processed
  | ok told =>
      simp only [answered] at processed ⊢
      obtain ⟨_, rfl⟩ := (Report.result_ok_iff told report).mp processed
      exact ⟨rfl, rfl⟩

theorem process_dormant (policy : Policy) (d : Document) :
    (d.process ⟨false, policy⟩).result = .ok Pass.dormantReport ∧
      (d.process ⟨false, policy⟩).document = d := by
  refine ⟨rfl, ?_⟩
  have marked := Acknowledgement.acknowledge_marked SortedMap.empty d.classes
  have nothing : (SortedMap.empty : IdSet).contains = fun _ => false := rfl
  simp only [nothing, GeneratedClass.marked_nothing, List.map_id'] at marked
  exact congrArg Document.mk marked

def consumed (classes : List GeneratedClass) : IdSet :=
  IdSet.ofList (classes.flatMap (·.markerIds))

theorem consumed_settled (policy : Policy) (classes : List GeneratedClass) :
    consumed (classes.map (·.settled policy)) = consumed classes := by
  have same (c : GeneratedClass) : (c.settled policy).markerIds = c.markerIds := by
    rw [← GeneratedClass.markerIds_bare, GeneratedClass.bare_settled,
      GeneratedClass.markerIds_bare]
  simp only [consumed, List.flatMap_map, same]

theorem process_enabled (policy : Policy) (picked : CustomizationId → Bool)
    (classes : List GeneratedClass) :
    let processed := (⟨classes.map (·.marked picked)⟩ : Document).process ⟨true, policy⟩
    processed.document = ⟨(classes.map (·.settled policy)).map
        (·.marked fun id => picked id || (consumed classes).contains id)⟩ ∧
      ∃ calls, processed.result = (Pass.settledReport policy classes calls).result := by
  have passed := console_accepting.deliver_passed (diagnosticStream policy classes) ()
  obtain ⟨settled, answered, _⟩ := Pass.run_passed Sink.console policy classes () passed
  have run := Pass.run_marked picked Sink.console ⟨true, policy⟩ classes ()
  simp only [process, run, Pass.Run.marked, answered, settled,
    Acknowledgement.acknowledge_marked, List.map_map, Function.comp_def,
    GeneratedClass.marked_marked]
  exact ⟨rfl, _, rfl⟩

theorem process_unmarked (policy : Policy) (d : Document) :
    (d.process ⟨true, policy⟩).document = ⟨(d.classes.map (·.settled policy)).map
        (·.marked (consumed d.classes).contains)⟩ ∧
      ∃ calls, (d.process ⟨true, policy⟩).result =
        (Pass.settledReport policy d.classes calls).result := by
  have processed := process_enabled policy (fun _ => false) d.classes
  simp only [GeneratedClass.marked_nothing, List.map_id', Bool.false_or] at processed
  exact processed

/-- Processing succeeds if the pass is off or no field is rejected. -/
theorem process_succeeds_iff (options : PassOptions) (d : Document) :
    (∃ report, (d.process options).result = .ok report) ↔
      (options.enabled = true →
        ∀ c ∈ d.classes, ∀ f ∈ c.fields, f.rejection? options.policy = none) := by
  obtain ⟨enabled, policy⟩ := options
  cases enabled with
  | false =>
      constructor
      · intro _ on
        cases on
      · intro _
        exact ⟨_, (process_dormant policy d).1⟩
  | true =>
      obtain ⟨_, calls, answered⟩ := process_unmarked policy d
      have clean := stream_quiet_iff policy d.classes
      rw [answered]
      constructor
      · rintro ⟨report, succeeded⟩ _
        exact clean.mp ((Report.result_ok_iff _ _).mp succeeded).1
      · intro quiet
        exact ⟨_, (Report.result_ok_iff _ _).mpr ⟨clean.mpr (quiet rfl), rfl⟩⟩

theorem fatals_settled (policy : Policy) (classes : List GeneratedClass)
    (first second : List Exchange) :
    (Pass.settledReport policy (classes.map (·.settled policy)) first).fatals =
      (Pass.settledReport policy classes second).fatals := by
  have bare : (classes.map (·.settled policy)).map GeneratedClass.bare =
      classes.map GeneratedClass.bare := by
    simp [GeneratedClass.bare_settled]
  have stream : diagnosticStream policy (classes.map (·.settled policy)) =
      diagnosticStream policy classes := by
    rw [← diagnosticStream_bare, bare, diagnosticStream_bare]
  exact congrArg (List.countP Diagnostic.isFatal) stream

/-- A processed document is processed for good: once more extracts the literals that are there
already, and marks the customizations that are marked. -/
theorem process_process (options : PassOptions) (d : Document) :
    let once := d.process options
    let twice := once.document.process options
    twice.document = once.document ∧
      ((∃ report, twice.result = .ok report) ↔ ∃ report, once.result = .ok report) := by
  obtain ⟨enabled, policy⟩ := options
  cases enabled with
  | false =>
      have left := (process_dormant policy d).2
      simp only [left, and_self]
  | true =>
      -- The first round leaves settled fields with marks on them. The second one settles the
      -- fields again, and picks the same customizations as before.
      obtain ⟨once, calls, answered⟩ := process_unmarked policy d
      obtain ⟨twice, again, repeated⟩ := process_enabled policy (consumed d.classes).contains
        (d.classes.map (·.settled policy))
      have settled : (d.classes.map (·.settled policy)).map (·.settled policy) =
          d.classes.map (·.settled policy) := by
        simp [GeneratedClass.settled_settled]
      simp only [consumed_settled, Bool.or_self, settled] at twice
      simp only [once, answered, twice, repeated, Report.result_ok_iff, true_and,
        fatals_settled policy d.classes again calls, exists_and_left, exists_eq]

end Processing

end Document

end SchemaDefaults
