import SchemaDefaults.Pass
/-!
One sink in place of another. A map between the states of two sinks that keeps their answers
carries every run over the first to the same run over the second. So a run cannot tell a sink
from one that remembers more.
-/

namespace SchemaDefaults

variable {σ τ : Type}

def Answer.map (carry : σ → τ) (answer : Answer σ) : Answer τ :=
  ⟨answer.refusal, carry answer.state, answer.events⟩

structure Sink.Carries (carry : σ → τ) (inner : Sink σ) (outer : Sink τ) : Prop where
  warning : ∀ d state, outer.warning d (carry state) = (inner.warning d state).map carry
  fatal : ∀ d state, outer.fatal d (carry state) = (inner.fatal d state).map carry

namespace Reporter

def map (carry : σ → τ) (r : Reporter σ) : Reporter τ :=
  ⟨carry r.sink, r.warnings, r.fatals, r.dropped, r.journal⟩

variable {carry : σ → τ} {inner : Sink σ} {outer : Sink τ}

theorem warn_map (carries : Sink.Carries carry inner outer) (d : Diagnostic) (r : Reporter σ) :
    (r.map carry).warn outer d = (r.warn inner d).map carry := by
  have answer : outer.warning d (r.map carry).sink = (inner.warning d r.sink).map carry :=
    carries.warning d r.sink
  simp only [warn, answer, Answer.map]
  cases (inner.warning d r.sink).refusal <;> rfl

theorem fatal_map (carries : Sink.Carries carry inner outer) (d : Diagnostic) (r : Reporter σ) :
    (r.map carry).fatal outer d = ((r.fatal inner d).1, (r.fatal inner d).2.map carry) := by
  have answer : outer.fatal d (r.map carry).sink = (inner.fatal d r.sink).map carry :=
    carries.fatal d r.sink
  simp only [fatal, answer, Answer.map]
  cases (inner.fatal d r.sink).refusal <;> rfl

end Reporter

namespace Pass

def Visit.map (carry : σ → τ) (v : Visit σ) : Visit τ :=
  ⟨v.field, v.outcome, v.acknowledged, v.reporter.map carry, v.failure⟩

def FieldsVisit.map (carry : σ → τ) (v : FieldsVisit σ) : FieldsVisit τ :=
  ⟨v.fields, v.visited, v.reports, v.acknowledged, v.reporter.map carry, v.failure⟩

def ClassesVisit.map (carry : σ → τ) (v : ClassesVisit σ) : ClassesVisit τ :=
  ⟨v.classes, v.classesVisited, v.fieldsVisited, v.reports, v.acknowledged,
    v.reporter.map carry, v.failure⟩

def Run.map (carry : σ → τ) (r : Run σ) : Run τ := ⟨r.classes, r.result, carry r.sink, r.journal⟩

variable {carry : σ → τ} {inner : Sink σ} {outer : Sink τ}

theorem warnExtras_map (carries : Sink.Carries carry inner outer) (extras : List Match)
    (r : Reporter σ) :
    warnExtras outer extras (r.map carry) = (warnExtras inner extras r).map carry := by
  induction extras generalizing r with
  | nil => rfl
  | cons extra rest ih =>
      simp only [warnExtras]
      rw [Reporter.warn_map carries, ih]

theorem reject_map (carries : Sink.Carries carry inner outer) (className : String) (f : Field)
    (resolution : Resolution) (d : Diagnostic) (r : Reporter σ) :
    reject outer className f resolution d (r.map carry) =
      (reject inner className f resolution d r).map carry := by
  have noted : (r.map carry).note [fieldEvent className f d.message] =
      (r.note [fieldEvent className f d.message]).map carry := rfl
  simp only [reject]
  rw [noted, Reporter.fatal_map carries]
  rcases (r.note [fieldEvent className f d.message]).fatal inner d with ⟨_ | failure, after⟩ <;> rfl

theorem visitField_map (carries : Sink.Carries carry inner outer) (policy : Policy)
    (className : String) (f : Field) (r : Reporter σ) :
    visitField outer policy className f (r.map carry) =
      (visitField inner policy className f r).map carry := by
  cases found : f.markers with
  | nil =>
      simp only [visitField, resolve, found]
      rfl
  | cons first extras =>
      simp only [visitField, resolve, found]
      rw [warnExtras_map carries]
      cases Extraction.extract policy f first.customization with
      | error d => exact reject_map carries className f _ d _
      | ok literal =>
          cases f.declaration with
          | none => exact reject_map carries className f _ _ _
          | some declaration => rfl

theorem visitFields_map (carries : Sink.Carries carry inner outer) (policy : Policy)
    (className : String) (fields : List Field) (r : Reporter σ) :
    visitFields outer policy className fields (r.map carry) =
      (visitFields inner policy className fields r).map carry := by
  induction fields generalizing r with
  | nil => rfl
  | cons f rest ih =>
      simp only [visitFields]
      rw [visitField_map carries]
      cases answered : (visitField inner policy className f r).failure with
      | some failure => simp only [Visit.map, answered, FieldsVisit.map]
      | none =>
          have later := ih (visitField inner policy className f r).reporter
          simp only [Visit.map, answered, later, FieldsVisit.map]

theorem visitClasses_map (carries : Sink.Carries carry inner outer) (policy : Policy)
    (classes : List GeneratedClass) (r : Reporter σ) :
    visitClasses outer policy classes (r.map carry) =
      (visitClasses inner policy classes r).map carry := by
  induction classes generalizing r with
  | nil => rfl
  | cons c rest ih =>
      simp only [visitClasses]
      rw [visitFields_map carries]
      cases answered : (visitFields inner policy c.name c.fields r).failure with
      | some failure => simp only [FieldsVisit.map, answered, ClassesVisit.map]
      | none =>
          have later := ih (visitFields inner policy c.name c.fields r).reporter
          simp only [FieldsVisit.map, answered, later, ClassesVisit.map]

/-- Classes, result and journal are the same, and the sinks end in corresponding states. -/
theorem run_map (carries : Sink.Carries carry inner outer) (options : PassOptions)
    (classes : List GeneratedClass) (sink : σ) :
    run outer options classes (carry sink) = (run inner options classes sink).map carry := by
  simp only [run]
  split
  · have start : (Reporter.start (carry sink)).note [startEvent options.policy classes] =
        ((Reporter.start sink).note [startEvent options.policy classes]).map carry := rfl
    simp only [runEnabled]
    rw [start, visitClasses_map carries]
    cases answered : (visitClasses inner options.policy classes
      ((Reporter.start sink).note [startEvent options.policy classes])).failure <;>
      simp only [ClassesVisit.map, answered] <;> rfl
  · rfl

end Pass

end SchemaDefaults
