import Mathlib.Algebra.Ring.Nat
import SchemaDefaults.Proofs.RunResult
/-!
The survey in the light of a run. It lists the fields that a run reports, in the order of the
report, and of each field it says how many markers it has, of which the run warns about all but
the first. Since a run writes to initializers only, the survey is the same before and after it.
-/

namespace SchemaDefaults

section Plans

namespace Field

def planned? (className : String) (f : Field) : Option PlannedField :=
  if 0 < f.markers.length then some ⟨className, f.name, f.markers.length⟩ else none

theorem planned_reported (policy : Policy) (className : String) (f : Field) :
    (f.planned? className).map (fun plan => (plan.className, plan.fieldName)) =
      (f.outcome? policy).map fun _ => (className, f.name) := by
  cases found : f.markers with
  | nil => simp [planned?, outcome?, extracted?, found]
  | cons first extras =>
      cases extracted : Extraction.extract policy f first.customization <;>
        simp [planned?, outcome?, extracted?, found, extracted]

/-- A plan has one marker that counts, and one warning for each other one. -/
theorem planned_warnings (policy : Policy) (className : String) (f : Field) :
    ((f.planned? className).toList.map (·.customizations - 1)).sum =
      (f.diagnostics policy).countP (·.kind = .warning) := by
  have surplus : f.surplusWarnings.countP (·.kind = .warning) = f.markers.length - 1 := by
    have all : ∀ d ∈ f.surplusWarnings, decide (d.kind = .warning) = true :=
      fun d sent => decide_eq_true (f.surplus_warns d sent)
    rw [List.countP_eq_length.mpr all, surplusWarnings, List.length_map, List.length_tail]
  have fatal : (f.rejection? policy).toList.countP (·.kind = .warning) = 0 := by
    apply List.countP_eq_zero.mpr
    intro d rejected
    simp [f.rejection_fatal policy d (Option.mem_toList.mp rejected)]
  rw [diagnostics, List.countP_append, surplus, fatal]
  cases found : f.markers <;> simp [planned?, found]

end Field

theorem GeneratedClass.planned_fields (c : GeneratedClass) :
    c.planned = c.fields.filterMap (·.planned? c.name) :=
  rfl

theorem GeneratedClass.planned_reported (policy : Policy) (c : GeneratedClass) :
    c.planned.map (fun plan => (plan.className, plan.fieldName)) =
      (c.reports policy).map fun report => (report.className, report.fieldName) := by
  simp only [planned_fields, reports, List.map_filterMap, Field.planned_reported policy,
    Option.map_map]
  rfl

theorem GeneratedClass.planned_warnings (policy : Policy) (c : GeneratedClass) :
    (c.planned.map (·.customizations - 1)).sum =
      (c.diagnostics policy).countP (·.kind = .warning) := by
  rw [planned_fields, diagnostics]
  induction c.fields with
  | nil => rfl
  | cons f rest ih =>
      have first := f.planned_warnings policy c.name
      rw [List.flatMap_cons, List.countP_append, ← ih, ← first]
      cases plan : f.planned? c.name <;> simp [plan]

theorem survey_reported (policy : Policy) (classes : List GeneratedClass) :
    (survey classes).map (fun plan => (plan.className, plan.fieldName)) =
      (classes.flatMap (·.reports policy)).map
        fun report => (report.className, report.fieldName) := by
  simp only [survey, List.map_flatMap, GeneratedClass.planned_reported policy]

theorem survey_warnings (policy : Policy) (classes : List GeneratedClass) :
    ((survey classes).map (·.customizations - 1)).sum =
      (diagnosticStream policy classes).countP (·.kind = .warning) := by
  rw [survey, diagnosticStream]
  induction classes with
  | nil => rfl
  | cons c rest ih =>
      rw [List.flatMap_cons, List.map_append, List.sum_append, ih, c.planned_warnings policy,
        List.flatMap_cons, List.countP_append]

theorem survey_bare (classes : List GeneratedClass) :
    survey (classes.map GeneratedClass.bare) = survey classes := by
  simp only [survey, List.flatMap_map]
  congr
  funext c
  simp only [GeneratedClass.planned_fields, GeneratedClass.bare, List.filterMap_map]
  rfl

theorem survey_positive (classes : List GeneratedClass) (plan : PlannedField)
    (listed : plan ∈ survey classes) : 0 < plan.customizations := by
  obtain ⟨c, _, inside⟩ := List.mem_flatMap.mp listed
  rw [GeneratedClass.planned_fields] at inside
  obtain ⟨f, _, planned⟩ := List.mem_filterMap.mp inside
  unfold Field.planned? at planned
  split at planned
  · rename_i marked
    cases planned
    exact marked
  · cases planned

end Plans

section Warnings

variable {σ : Type}

theorem Delivery.Follows.warnings {stream : List Diagnostic} {d : Delivery σ}
    (follows : d.Follows stream) (passed : d.failure = none) :
    d.calls.countP (·.entry = .warning) = stream.countP (·.kind = .warning) := by
  rw [← follows.whole passed, List.countP_map]
  apply List.countP_congr
  intro call made
  simp [follows.entries call made]

theorem warnings_answered (calls : List Exchange) :
    calls.countP (·.entry = .warning) =
      calls.countP (·.accepted .warning) + calls.countP (·.dropped) := by
  induction calls with
  | nil => rfl
  | cons call rest ih =>
      simp only [List.countP_cons, ih]
      cases entry : call.entry <;> cases answer : call.refusal <;>
        simp [Exchange.accepted, Exchange.dropped, entry, answer] <;> omega

namespace Pass

def lastReporter (channel : Sink σ) (policy : Policy) (classes : List GeneratedClass)
    (sink : σ) : Reporter σ :=
  (visitClasses channel policy classes
    ((Reporter.start sink).note [startEvent policy classes])).reporter

theorem lastReporter_dropped (channel : Sink σ) (policy : Policy)
    (classes : List GeneratedClass) (sink : σ) :
    (lastReporter channel policy classes sink).dropped =
      (runCalls channel policy classes sink).countP (·.dropped) := by
  have sent := (visitClasses_sent channel policy classes
    ((Reporter.start sink).note [startEvent policy classes])).1
  rw [lastReporter, sent.dropped, runCalls_delivery]
  exact Nat.zero_add _

/-- The survey of a model lists the fields that a successful run over it reports, in the same
order and as often, and foretells how many warnings it sends, be they delivered or dropped. No run
changes the survey, not even one that is interrupted. -/
theorem survey_foretells_run (channel : Sink σ) (policy : Policy)
    (classes : List GeneratedClass) (sink : σ) :
    let done := run channel ⟨true, policy⟩ classes sink
    let surplus := ((survey classes).map (·.customizations - 1)).sum
    survey done.classes = survey classes ∧
      (∀ plan ∈ survey classes, 0 < plan.customizations) ∧
      ∀ report, done.result = .ok report →
        (survey classes).map (fun plan => (plan.className, plan.fieldName)) =
            report.fields.map (fun entry => (entry.className, entry.fieldName)) ∧
          surplus = (runCalls channel policy classes sink).countP (·.entry = .warning) ∧
          surplus = report.warnings + (lastReporter channel policy classes sink).dropped := by
  refine ⟨?_, survey_positive classes, ?_⟩
  · rw [← survey_bare, run_bare, survey_bare]
  · intro report succeeded
    obtain ⟨passed, rfl⟩ := (run_ok_iff channel policy classes sink report).mp succeeded
    have follows := channel.deliver_follows (diagnosticStream policy classes) sink
    have tried : ((survey classes).map (·.customizations - 1)).sum =
        (runCalls channel policy classes sink).countP (·.entry = .warning) := by
      rw [survey_warnings policy, runCalls_delivery, follows.warnings passed]
    refine ⟨survey_reported policy classes, tried, ?_⟩
    rw [tried, warnings_answered, lastReporter_dropped]
    simp only [settledReport, runCalls_delivery]

/-- One sink refuses the only warning, the other one ends the run. -/
theorem sample_survey :
    (run deafToWarnings ⟨true, .schemaDefault⟩ [sampleClass] ⟨0, 0⟩).result = .ok sampleReport ∧
      (survey [sampleClass]).map (fun plan => (plan.className, plan.fieldName)) =
        [("Host", "retries"), ("Host", "hostname")] ∧
      1 = sampleReport.warnings +
        (lastReporter deafToWarnings .schemaDefault [sampleClass] ⟨0, 0⟩).dropped ∧
      (run shut ⟨true, .schemaDefault⟩ [sampleClass] ⟨0, 0⟩).result =
        .error (.channel "closed") ∧
      survey (run shut ⟨true, .schemaDefault⟩ [sampleClass] ⟨0, 0⟩).classes =
        survey [sampleClass] := by
  obtain ⟨_, _, foretold⟩ :=
    survey_foretells_run deafToWarnings .schemaDefault [sampleClass] ⟨0, 0⟩
  obtain ⟨listed, _, answered⟩ := foretold sampleReport sample_succeeded
  obtain ⟨kept, _⟩ := survey_foretells_run shut .schemaDefault [sampleClass] ⟨0, 0⟩
  exact ⟨sample_succeeded, listed, answered, sample_interrupted, kept⟩

end Pass

end Warnings

end SchemaDefaults
