import SchemaDefaults.Pass
import SchemaDefaults.Proofs.Delivery
import SchemaDefaults.Proofs.Settlement
/-!
Visits and runs. A visit of a field delivers the diagnostics of that field and settles it. A
visit of several fields does this for each in turn, so what came before shows only in the sink,
and it stops at the field whose fatal diagnostic is refused. So a run delivers the diagnostics of
its model in visiting order. If no fatal one is refused, every field is settled and the report
follows from the model and the answers to the warnings; otherwise only the fields in front of the
refused one are settled.
-/

namespace SchemaDefaults

namespace Pass

variable {σ : Type}

section Fields

theorem warnExtras_advanced (channel : Sink σ) (extras : List Match) (r : Reporter σ) :
    r.Advanced (channel.deliver (extras.map extraWarning) r.sink) (warnExtras channel extras r) ∧
      (channel.deliver (extras.map extraWarning) r.sink).failure = none := by
  induction extras generalizing r with
  | nil => exact ⟨⟨rfl, rfl, rfl, rfl⟩, rfl⟩
  | cons extra rest ih =>
      have first := Reporter.warn_advanced channel (extraWarning extra) r rfl
      -- Whatever the sink answers, a warning stops nothing.
      have passed : (channel.deliver [extraWarning extra] r.sink).failure = none := rfl
      obtain ⟨later, quiet⟩ := ih (r.warn channel (extraWarning extra))
      refine ⟨first.append_passed passed later, ?_⟩
      rw [first.sink] at quiet
      rw [List.map_cons, ← List.singleton_append, channel.failure_append, passed, quiet]
      rfl

structure Visit.Exact (channel : Sink σ) (policy : Policy) (className : String) (f : Field)
    (r : Reporter σ) (visit : Visit σ) : Prop where
  reporter : r.Advanced (channel.deliver (f.diagnostics policy) r.sink) visit.reporter
  failure : visit.failure = (channel.deliver (f.diagnostics policy) r.sink).failure
  field : visit.field = f.settled policy
  acknowledged : visit.acknowledged = f.markerIds className
  outcome : visit.failure = none → visit.outcome = f.outcome? policy

theorem reject_exact (channel : Sink σ) (className : String) (f : Field) (r : Resolution)
    (d : Diagnostic) (reporter : Reporter σ) (entry : d.kind = .fatal) :
    let visit := reject channel className f r d reporter
    reporter.Advanced (channel.deliver [d] reporter.sink) visit.reporter ∧
      visit.failure = (channel.deliver [d] reporter.sink).failure ∧
      visit.field = f ∧ visit.acknowledged = r.acknowledged ∧
      (visit.failure = none → visit.outcome = some (.rejected d.message)) := by
  have noted := reporter.note_advanced channel [fieldEvent className f d.message]
  have sent := Reporter.fatal_advanced channel d
    (reporter.note [fieldEvent className f d.message]) entry
  have failure := Reporter.fatal_failure channel d
    (reporter.note [fieldEvent className f d.message]) entry
  have advanced := noted.append_passed rfl sent
  simp only [reject]
  split
  all_goals
    rename_i answered
    rw [answered] at advanced failure
    exact ⟨advanced, failure, rfl, rfl, by simp⟩

theorem visitField_exact (channel : Sink σ) (policy : Policy) (className : String) (f : Field)
    (r : Reporter σ) :
    Visit.Exact channel policy className f r (visitField channel policy className f r) := by
  cases found : f.markers with
  | nil =>
      have silent : f.diagnostics policy = [] := by
        simp [Field.diagnostics, Field.surplusWarnings, Field.rejection?, found]
      simp only [visitField, resolve, found]
      constructor
      · rw [silent]
        exact ⟨rfl, rfl, rfl, rfl⟩
      · rw [silent]
        rfl
      · simp [Field.settled, Field.extracted?, found]
      · simp [Field.markerIds, found]
      · simp [Field.outcome?, Field.extracted?, found]
  | cons first extras =>
      obtain ⟨warned, quiet⟩ := warnExtras_advanced channel extras r
      have surplus : f.surplusWarnings = extras.map extraWarning := by
        simp [Field.surplusWarnings, found, extraWarning]
      have ids : (first :: extras).map (fun m => ⟨className, f.name, m.ordinal⟩) =
          f.markerIds className := by
        rw [Field.markerIds, found]
      simp only [visitField, resolve, found, ids]
      cases extracted : Extraction.extract policy f first.customization with
      | error d =>
          have entry := (Extraction.extract_error policy f first.customization d extracted).1
          have rejected := f.rejection_error policy first extras d found extracted
          have stream : f.diagnostics policy = extras.map extraWarning ++ [d] := by
            rw [f.diagnostics_rejected policy d rejected, surplus]
          obtain ⟨sent, failure, field, acknowledged, outcome⟩ := reject_exact channel className f
            ⟨first.customization, f.markerIds className⟩ d (warnExtras channel extras r) entry
          constructor
          · rw [stream]
            exact warned.append_passed quiet sent
          · rw [stream, channel.failure_append, quiet, ← warned.sink]
            exact failure
          · rw [f.settled_rejected policy d rejected]
            exact field
          · exact acknowledged
          · intro passed
            rw [outcome passed]
            simp [Field.outcome?, Field.extracted?, found, extracted]
      | ok literal =>
          have stream : f.diagnostics policy = extras.map extraWarning := by
            simp [Field.diagnostics, surplus, Field.rejection?, found, extracted]
          -- The check for a missing declaration cannot fail any more: a literal was extracted
          -- for the declared type.
          obtain ⟨declaration, declared⟩ :=
            Extraction.extract_declared policy f first.customization literal extracted
          simp only [declared]
          constructor
          · rw [stream]
            exact ⟨warned.sink, warned.warnings, warned.fatals, warned.dropped⟩
          · rw [stream]
            exact quiet.symm
          · simp [Field.settled, Field.extracted?, found, extracted]
          · rfl
          · simp [Field.outcome?, Field.extracted?, found, extracted]

end Fields

section Classes

theorem visitFields_sent (channel : Sink σ) (policy : Policy) (className : String)
    (fields : List Field) (r : Reporter σ) :
    let visit := visitFields channel policy className fields r
    let delivery := channel.deliver (fields.flatMap (·.diagnostics policy)) r.sink
    r.Advanced delivery visit.reporter ∧ visit.failure = delivery.failure := by
  induction fields generalizing r with
  | nil => exact ⟨⟨rfl, rfl, rfl, rfl⟩, rfl⟩
  | cons f rest ih =>
      have first := visitField_exact channel policy className f r
      rw [List.flatMap_cons]
      simp only [visitFields]
      cases answered : (visitField channel policy className f r).failure with
      | some failure =>
          have failed := first.failure.symm.trans answered
          refine ⟨first.reporter.append_failed _ failed, ?_⟩
          rw [channel.failure_append, failed]
          rfl
      | none =>
          have passed := first.failure.symm.trans answered
          obtain ⟨later, failure⟩ := ih (visitField channel policy className f r).reporter
          refine ⟨first.reporter.append_passed passed later, ?_⟩
          rw [channel.failure_append, passed, ← first.reporter.sink]
          exact failure

theorem visitFields_passed (channel : Sink σ) (policy : Policy) (className : String)
    (fields : List Field) (r : Reporter σ)
    (passed : (visitFields channel policy className fields r).failure = none) :
    let visit := visitFields channel policy className fields r
    visit.fields = fields.map (·.settled policy) ∧
      visit.visited = fields.length ∧
      visit.reports =
        fields.filterMap (fun f => (f.outcome? policy).map (⟨className, f.name, ·⟩)) ∧
      visit.acknowledged = fields.flatMap (·.markerIds className) := by
  induction fields generalizing r with
  | nil => exact ⟨rfl, rfl, rfl, rfl⟩
  | cons f rest ih =>
      have first := visitField_exact channel policy className f r
      simp only [visitFields] at passed ⊢
      cases answered : (visitField channel policy className f r).failure with
      | some failure => simp [answered] at passed
      | none =>
          simp only [answered] at passed ⊢
          obtain ⟨fields, visited, reports, acknowledged⟩ :=
            ih (visitField channel policy className f r).reporter passed
          rw [fields, visited, reports, acknowledged, first.field, first.acknowledged,
            first.outcome answered]
          refine ⟨rfl, rfl, ?_, rfl⟩
          cases outcome : f.outcome? policy <;> simp [outcome]

/-- The field that stops a visit is the first one with a refused fatal diagnostic. -/
theorem visitFields_stopped (channel : Sink σ) (policy : Policy) (className : String)
    (fields : List Field) (r : Reporter σ) (failure : Failure)
    (stopped : (visitFields channel policy className fields r).failure = some failure) :
    ∃ earlier f later, fields = earlier ++ f :: later ∧
      (visitFields channel policy className fields r).fields =
        earlier.map (·.settled policy) ++ f :: later ∧
      (channel.deliver (earlier.flatMap (·.diagnostics policy)) r.sink).failure = none ∧
      (channel.deliver ((earlier ++ [f]).flatMap (·.diagnostics policy)) r.sink).failure =
        some failure := by
  induction fields generalizing r with
  | nil => simp [visitFields] at stopped
  | cons f rest ih =>
      have first := visitField_exact channel policy className f r
      simp only [visitFields] at stopped ⊢
      cases answered : (visitField channel policy className f r).failure with
      | some refusal =>
          simp only [answered, Option.some.injEq] at stopped ⊢
          subst stopped
          have failed := first.failure.symm.trans answered
          -- Only a rejection can fail, and a rejected field is settled as it stands.
          obtain ⟨d, sent, entry⟩ := channel.failure_fatal _ r.sink refusal failed
          have rejected := f.diagnostics_fatal policy d sent entry
          refine ⟨[], f, rest, rfl, ?_, rfl, by simpa using failed⟩
          rw [first.field, f.settled_rejected policy d rejected]
          rfl
      | none =>
          simp only [answered] at stopped ⊢
          have passed := first.failure.symm.trans answered
          obtain ⟨earlier, g, later, split, left, quiet, refused⟩ :=
            ih (visitField channel policy className f r).reporter stopped
          rw [first.reporter.sink] at quiet refused
          refine ⟨f :: earlier, g, later, by rw [split]; rfl, ?_, ?_, ?_⟩
          · rw [left, first.field]
            rfl
          · rw [List.flatMap_cons, channel.failure_append, passed, quiet]
            rfl
          · rw [List.cons_append, List.flatMap_cons, channel.failure_append, passed, refused]
            rfl

end Classes

end Pass

/-- A field with all that comes before it and after it in visiting order. -/
structure FieldPlace where
  before : List GeneratedClass
  name : String
  location : Option Location
  earlier : List Field
  field : Field
  later : List Field
  after : List GeneratedClass

namespace FieldPlace

def classes (p : FieldPlace) : List GeneratedClass :=
  p.before ++ ⟨p.name, p.location, p.earlier ++ p.field :: p.later⟩ :: p.after

def front (p : FieldPlace) : List GeneratedClass :=
  p.before ++ [⟨p.name, p.location, p.earlier⟩]

def reached (p : FieldPlace) : List GeneratedClass :=
  p.before ++ [⟨p.name, p.location, p.earlier ++ [p.field]⟩]

/-- The model with the fields in front settled and all others as they were. -/
def cut (policy : Policy) (p : FieldPlace) : List GeneratedClass :=
  p.before.map (·.settled policy) ++
    ⟨p.name, p.location, p.earlier.map (·.settled policy) ++ p.field :: p.later⟩ :: p.after

theorem stream_reached (policy : Policy) (p : FieldPlace) :
    diagnosticStream policy p.reached =
      diagnosticStream policy p.front ++ p.field.diagnostics policy := by
  simp [diagnosticStream, reached, front, GeneratedClass.diagnostics]

theorem stream_classes (policy : Policy) (p : FieldPlace) :
    diagnosticStream policy p.classes =
      diagnosticStream policy p.reached ++
        (p.later.flatMap (·.diagnostics policy) ++ diagnosticStream policy p.after) := by
  simp [diagnosticStream, classes, reached, GeneratedClass.diagnostics]

theorem bare_cut (policy : Policy) (p : FieldPlace) :
    (p.cut policy).map GeneratedClass.bare = p.classes.map GeneratedClass.bare := by
  simp [cut, classes, Function.comp_def, GeneratedClass.bare, GeneratedClass.settled,
    Field.bare_settled]

theorem settled_cut (policy : Policy) (p : FieldPlace) :
    (p.cut policy).map (·.settled policy) = p.classes.map (·.settled policy) := by
  simp [cut, classes, Function.comp_def, GeneratedClass.settled, Field.settled_settled]

end FieldPlace

namespace Pass

variable {σ : Type}

section Traversal

theorem visitClasses_sent (channel : Sink σ) (policy : Policy) (classes : List GeneratedClass)
    (r : Reporter σ) :
    let visit := visitClasses channel policy classes r
    let delivery := channel.deliver (diagnosticStream policy classes) r.sink
    r.Advanced delivery visit.reporter ∧ visit.failure = delivery.failure := by
  induction classes generalizing r with
  | nil => exact ⟨⟨rfl, rfl, rfl, rfl⟩, rfl⟩
  | cons c rest ih =>
      obtain ⟨sent, failure⟩ := visitFields_sent channel policy c.name c.fields r
      have stream : diagnosticStream policy (c :: rest) =
          c.fields.flatMap (·.diagnostics policy) ++ diagnosticStream policy rest := rfl
      rw [stream]
      simp only [visitClasses]
      cases answered : (visitFields channel policy c.name c.fields r).failure with
      | some refusal =>
          have failed := failure.symm.trans answered
          refine ⟨sent.append_failed _ failed, ?_⟩
          rw [channel.failure_append, failed]
          rfl
      | none =>
          have passed := failure.symm.trans answered
          obtain ⟨later, last⟩ := ih (visitFields channel policy c.name c.fields r).reporter
          refine ⟨sent.append_passed passed later, ?_⟩
          rw [channel.failure_append, passed, ← sent.sink]
          exact last

theorem visitClasses_passed (channel : Sink σ) (policy : Policy)
    (classes : List GeneratedClass) (r : Reporter σ)
    (passed : (visitClasses channel policy classes r).failure = none) :
    let visit := visitClasses channel policy classes r
    visit.classes = classes.map (·.settled policy) ∧
      visit.classesVisited = classes.length ∧
      visit.fieldsVisited = (classes.flatMap (·.fields)).length ∧
      visit.reports = classes.flatMap (·.reports policy) ∧
      visit.acknowledged = classes.flatMap (·.markerIds) := by
  induction classes generalizing r with
  | nil => exact ⟨rfl, rfl, rfl, rfl, rfl⟩
  | cons c rest ih =>
      simp only [visitClasses] at passed ⊢
      cases answered : (visitFields channel policy c.name c.fields r).failure with
      | some failure => simp [answered] at passed
      | none =>
          simp only [answered] at passed ⊢
          obtain ⟨fields, visited, reports, acknowledged⟩ :=
            visitFields_passed channel policy c.name c.fields r answered
          obtain ⟨classes, classesVisited, fieldsVisited, laterReports, laterAcknowledged⟩ :=
            ih (visitFields channel policy c.name c.fields r).reporter passed
          rw [fields, visited, reports, acknowledged, classes, classesVisited, fieldsVisited,
            laterReports, laterAcknowledged]
          exact ⟨rfl, rfl, List.length_append.symm, rfl, rfl⟩

/-- The cut runs through the class of the refused field: its earlier fields are settled. -/
theorem visitClasses_stopped (channel : Sink σ) (policy : Policy)
    (classes : List GeneratedClass) (r : Reporter σ) (failure : Failure)
    (stopped : (visitClasses channel policy classes r).failure = some failure) :
    ∃ p : FieldPlace, p.classes = classes ∧
      (visitClasses channel policy classes r).classes = p.cut policy ∧
      (channel.deliver (diagnosticStream policy p.front) r.sink).failure = none ∧
      (channel.deliver (diagnosticStream policy p.reached) r.sink).failure = some failure := by
  induction classes generalizing r with
  | nil => simp [visitClasses] at stopped
  | cons c rest ih =>
      obtain ⟨sent, decided⟩ := visitFields_sent channel policy c.name c.fields r
      simp only [visitClasses] at stopped ⊢
      cases answered : (visitFields channel policy c.name c.fields r).failure with
      | some refusal =>
          simp only [answered, Option.some.injEq] at stopped ⊢
          subst stopped
          obtain ⟨earlier, f, later, split, left, quiet, refused⟩ :=
            visitFields_stopped channel policy c.name c.fields r refusal answered
          refine ⟨⟨[], c.name, c.location, earlier, f, later, rest⟩, ?_, ?_, ?_, ?_⟩
          · simp only [FieldPlace.classes, List.nil_append, ← split]
          · rw [left]
            rfl
          · simpa [diagnosticStream, FieldPlace.front, GeneratedClass.diagnostics] using quiet
          · simpa [diagnosticStream, FieldPlace.reached, GeneratedClass.diagnostics] using refused
      | none =>
          simp only [answered] at stopped ⊢
          have passed := decided.symm.trans answered
          have settled := (visitFields_passed channel policy c.name c.fields r answered).1
          obtain ⟨p, split, left, quiet, refused⟩ :=
            ih (visitFields channel policy c.name c.fields r).reporter stopped
          rw [sent.sink] at quiet refused
          -- The class in front has passed as a whole, so the place only moves behind it.
          refine ⟨{ p with before := c :: p.before }, ?_, ?_, ?_, ?_⟩
          · rw [← split]
            rfl
          · rw [left, settled]
            rfl
          · have stream : diagnosticStream policy { p with before := c :: p.before }.front =
                c.fields.flatMap (·.diagnostics policy) ++ diagnosticStream policy p.front := rfl
            rw [stream, channel.failure_append, passed, quiet]
            rfl
          · have stream : diagnosticStream policy { p with before := c :: p.before }.reached =
                c.fields.flatMap (·.diagnostics policy) ++ diagnosticStream policy p.reached := rfl
            rw [stream, channel.failure_append, passed, refused]
            rfl

end Traversal

section Runs

/-- The report of a run that nothing has stopped. All that it takes from the sink is how many
warnings were accepted. -/
def settledReport (policy : Policy) (classes : List GeneratedClass) (calls : List Exchange) :
    Report :=
  { enabled := true
    classesVisited := classes.length
    fieldsVisited := (classes.flatMap (·.fields)).length
    fields := classes.flatMap (·.reports policy)
    acknowledged := IdSet.ofList (classes.flatMap (·.markerIds))
    warnings := calls.countP (·.accepted .warning)
    fatals := (diagnosticStream policy classes).countP Diagnostic.isFatal }

theorem settledReport_bare (policy : Policy) (classes : List GeneratedClass)
    (calls : List Exchange) :
    settledReport policy (classes.map GeneratedClass.bare) calls =
      settledReport policy classes calls := by
  have counts : ((classes.map GeneratedClass.bare).flatMap (·.fields)).length =
      (classes.flatMap (·.fields)).length := by
    simp [GeneratedClass.bare, List.length_flatMap, Function.comp_def]
  have reports : (classes.map GeneratedClass.bare).flatMap (·.reports policy) =
      classes.flatMap (·.reports policy) := by
    simp only [List.flatMap_map, GeneratedClass.reports_bare]
  have markerIds : (classes.map GeneratedClass.bare).flatMap (·.markerIds) =
      classes.flatMap (·.markerIds) := by
    simp only [List.flatMap_map, GeneratedClass.markerIds_bare]
  simp only [settledReport, List.length_map, counts, reports, markerIds, diagnosticStream_bare]

theorem run_passed (channel : Sink σ) (policy : Policy) (classes : List GeneratedClass)
    (sink : σ)
    (passed : (channel.deliver (diagnosticStream policy classes) sink).failure = none) :
    let delivery := channel.deliver (diagnosticStream policy classes) sink
    let run := run channel ⟨true, policy⟩ classes sink
    run.classes = classes.map (·.settled policy) ∧
      run.result = .ok (settledReport policy classes delivery.calls) ∧
      run.sink = delivery.state := by
  -- The opening event goes to the journal alone: the counts start from zero.
  let start := (Reporter.start sink).note [startEvent policy classes]
  obtain ⟨sent, failure⟩ := visitClasses_sent channel policy classes start
  have answered : (visitClasses channel policy classes start).failure = none :=
    failure.trans passed
  obtain ⟨settled, classesVisited, fieldsVisited, reports, acknowledged⟩ :=
    visitClasses_passed channel policy classes start answered
  have follows := channel.deliver_follows (diagnosticStream policy classes) sink
  have report : (visitClasses channel policy classes start).report = settledReport policy classes
      (channel.deliver (diagnosticStream policy classes) sink).calls := by
    simp only [ClassesVisit.report, settledReport, classesVisited, fieldsVisited, reports,
      acknowledged, sent.warnings, sent.fatals, ← follows.fatals passed]
    simp [start, Reporter.note, Reporter.start]
  simp only [run, runEnabled, ↓reduceIte]
  rw [answered]
  exact ⟨settled, congrArg Except.ok report, sent.sink⟩

theorem run_stopped (channel : Sink σ) (policy : Policy) (classes : List GeneratedClass)
    (sink : σ) (failure : Failure)
    (failed : (channel.deliver (diagnosticStream policy classes) sink).failure = some failure) :
    let delivery := channel.deliver (diagnosticStream policy classes) sink
    let run := run channel ⟨true, policy⟩ classes sink
    run.result = .error failure ∧ run.sink = delivery.state ∧
      ∃ p : FieldPlace, p.classes = classes ∧ run.classes = p.cut policy ∧
        (channel.deliver (diagnosticStream policy p.front) sink).failure = none ∧
        (channel.deliver (diagnosticStream policy p.reached) sink).failure = some failure := by
  let start := (Reporter.start sink).note [startEvent policy classes]
  obtain ⟨sent, decided⟩ := visitClasses_sent channel policy classes start
  have answered : (visitClasses channel policy classes start).failure = some failure :=
    decided.trans failed
  obtain ⟨p, split, left, quiet, refused⟩ :=
    visitClasses_stopped channel policy classes start failure answered
  simp only [run, runEnabled, ↓reduceIte]
  rw [answered]
  exact ⟨rfl, sent.sink, p, split, left, quiet, refused⟩

theorem run_sink (channel : Sink σ) (policy : Policy) (classes : List GeneratedClass)
    (sink : σ) :
    (run channel ⟨true, policy⟩ classes sink).sink =
      (channel.deliver (diagnosticStream policy classes) sink).state := by
  cases answered : (channel.deliver (diagnosticStream policy classes) sink).failure with
  | none => exact (run_passed channel policy classes sink answered).2.2
  | some failure => exact (run_stopped channel policy classes sink failure answered).2.1

theorem run_error_iff (channel : Sink σ) (policy : Policy) (classes : List GeneratedClass)
    (sink : σ) (failure : Failure) :
    (run channel ⟨true, policy⟩ classes sink).result = .error failure ↔
      (channel.deliver (diagnosticStream policy classes) sink).failure = some failure := by
  cases answered : (channel.deliver (diagnosticStream policy classes) sink).failure with
  | none => simp [(run_passed channel policy classes sink answered).2.1]
  | some refusal => simp [(run_stopped channel policy classes sink refusal answered).1]

theorem run_ok_iff (channel : Sink σ) (policy : Policy) (classes : List GeneratedClass)
    (sink : σ) (report : Report) :
    (run channel ⟨true, policy⟩ classes sink).result = .ok report ↔
      (channel.deliver (diagnosticStream policy classes) sink).failure = none ∧
        report = settledReport policy classes
          (channel.deliver (diagnosticStream policy classes) sink).calls := by
  cases answered : (channel.deliver (diagnosticStream policy classes) sink).failure with
  | none => simp [(run_passed channel policy classes sink answered).2.1, eq_comm]
  | some refusal => simp [(run_stopped channel policy classes sink refusal answered).1]

/-- However it ends, a run has changed nothing but initializers. -/
theorem run_bare (channel : Sink σ) (options : PassOptions) (classes : List GeneratedClass)
    (sink : σ) :
    (run channel options classes sink).classes.map GeneratedClass.bare =
      classes.map GeneratedClass.bare := by
  obtain ⟨enabled, policy⟩ := options
  cases enabled with
  | false => rfl
  | true =>
      cases answered : (channel.deliver (diagnosticStream policy classes) sink).failure with
      | none =>
          rw [(run_passed channel policy classes sink answered).1]
          simp [GeneratedClass.bare_settled]
      | some failure =>
          obtain ⟨_, _, p, split, left, _⟩ :=
            run_stopped channel policy classes sink failure answered
          rw [left, p.bare_cut, split]

end Runs

end Pass

end SchemaDefaults
