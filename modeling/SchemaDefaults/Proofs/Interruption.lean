import SchemaDefaults.Proofs.RunResult
/-!
Interrupted runs. A refused fatal diagnostic leaves a model that is settled up to its field and
untouched from there on. Since nothing that a run reads has been written, the run can be repeated
as if it had never been started.
-/

namespace SchemaDefaults

namespace Pass

variable {σ : Type}

/-- The refused call is the last one, and it is about the field at the place. -/
theorem refused_call (channel : Sink σ) (policy : Policy) (p : FieldPlace) (sink : σ)
    (failure : Failure)
    (quiet : (channel.deliver (diagnosticStream policy p.front) sink).failure = none)
    (refused : (channel.deliver (diagnosticStream policy p.reached) sink).failure =
      some failure) :
    ∃ earlier last, runCalls channel policy p.classes sink = earlier ++ [last] ∧
      (earlier ++ [last]).map Exchange.diagnostic = diagnosticStream policy p.reached ∧
      p.field.rejection? policy = some last.diagnostic ∧ last.entry = .fatal ∧
      last.refusal = some failure ∧ ∀ call ∈ earlier, call.failure = none := by
  have ended : (channel.deliver (p.field.diagnostics policy)
      (channel.deliver (diagnosticStream policy p.front) sink).state).failure = some failure := by
    rw [p.stream_reached, channel.failure_append, quiet] at refused
    exact refused
  obtain ⟨d, sent, entry⟩ := channel.failure_fatal _ _ failure ended
  have rejected := p.field.diagnostics_fatal policy d sent entry
  -- All but the fatal diagnostic of the field has gone through before.
  let head := diagnosticStream policy p.front ++ p.field.surplusWarnings
  have stream : diagnosticStream policy p.reached = head ++ [d] := by
    rw [p.stream_reached, p.field.diagnostics_rejected policy d rejected, List.append_assoc]
  have passed : (channel.deliver head sink).failure = none := by
    rw [channel.failure_append, quiet]
    cases surplus : (channel.deliver p.field.surplusWarnings
        (channel.deliver (diagnosticStream policy p.front) sink).state).failure with
    | none => rfl
    | some refusal =>
        obtain ⟨warning, surplus, fatal⟩ := channel.failure_fatal _ _ refusal surplus
        rw [p.field.surplus_warns warning surplus] at fatal
        cases fatal
  let last := channel.exchange d (channel.deliver head sink).state
  have calls : (channel.deliver (diagnosticStream policy p.reached) sink).calls =
      (channel.deliver head sink).calls ++ [last] := by
    rw [stream, channel.deliver_concat head d sink passed]
  have before := (channel.deliver head sink).passed_iff.mp passed
  refine ⟨(channel.deliver head sink).calls, last, ?_, ?_, rejected, entry, ?_, before⟩
  · rw [runCalls_delivery, p.stream_classes,
      channel.deliver_append_failed _ _ sink failure refused, calls]
  · rw [List.map_append, (channel.deliver_follows head sink).whole passed, stream]
    rfl
  · have follows := channel.deliver_follows (diagnosticStream policy p.reached) sink
    obtain ⟨call, made, failed⟩ := (follows.failure_iff failure).mp refused
    rw [calls] at made
    rcases List.mem_append.mp made with inside | final
    · simp [before call inside] at failed
    · obtain rfl := List.mem_singleton.mp final
      exact ((last.failure_iff failure).mp failed).2

/-- The field of the refused diagnostic divides the model: what comes before it is as a willing
sink would have it, and the field and all behind it are untouched. Nothing but initializers has
changed anywhere. -/
theorem interrupted_run_cut (channel : Sink σ) (policy : Policy)
    (classes : List GeneratedClass) (sink : σ) (failure : Failure)
    (interrupted : (run channel ⟨true, policy⟩ classes sink).result = .error failure) :
    ∃ p : FieldPlace, p.classes = classes ∧
      (∃ earlier last, runCalls channel policy classes sink = earlier ++ [last] ∧
        (earlier ++ [last]).map Exchange.diagnostic = diagnosticStream policy p.reached ∧
        p.field.rejection? policy = some last.diagnostic ∧ last.entry = .fatal ∧
        last.refusal = some failure ∧ ∀ call ∈ earlier, call.failure = none) ∧
      (run channel ⟨true, policy⟩ classes sink).classes =
        p.before.map (·.settled policy) ++
          ⟨p.name, p.location, p.earlier.map (·.settled policy) ++ p.field :: p.later⟩ ::
            p.after ∧
      (∀ (τ : Type) (willing : Sink τ) (state : τ), willing.Accepting →
        (run willing ⟨true, policy⟩ classes state).classes =
          p.before.map (·.settled policy) ++
            ⟨p.name, p.location,
                p.earlier.map (·.settled policy) ++
                  p.field.settled policy :: p.later.map (·.settled policy)⟩ ::
              p.after.map (·.settled policy)) ∧
      (∀ f, Settles policy f (f.settled policy) (f.outcome? policy)) ∧
      (run channel ⟨true, policy⟩ classes sink).classes.map GeneratedClass.bare =
        classes.map GeneratedClass.bare := by
  have failed := (run_error_iff channel policy classes sink failure).mp interrupted
  obtain ⟨_, _, p, split, left, quiet, refused⟩ :=
    run_stopped channel policy classes sink failure failed
  subst split
  refine ⟨p, rfl, refused_call channel policy p sink failure quiet refused, left, ?_,
    field_settles policy, ?_⟩
  · intro τ willing state accepting
    rw [(run_passed willing policy p.classes state (accepting.deliver_passed _ state)).1]
    simp [FieldPlace.classes, GeneratedClass.settled]
  · rw [left, p.bare_cut]

theorem sample_run_cut :
    (run shut ⟨true, .schemaDefault⟩ [sampleClass] ⟨0, 0⟩).result = .error (.channel "closed") ∧
      ∃ p : FieldPlace, p.classes = [sampleClass] ∧
        (run shut ⟨true, .schemaDefault⟩ [sampleClass] ⟨0, 0⟩).classes =
          p.cut .schemaDefault := by
  obtain ⟨p, split, _, left, _⟩ := interrupted_run_cut shut .schemaDefault [sampleClass] ⟨0, 0⟩
    (.channel "closed") sample_interrupted
  exact ⟨sample_interrupted, p, split, left⟩

section Retry

variable {τ : Type}

theorem runCalls_bare (channel : Sink τ) (policy : Policy) (classes : List GeneratedClass)
    (sink : τ) :
    runCalls channel policy (classes.map GeneratedClass.bare) sink =
      runCalls channel policy classes sink := by
  rw [runCalls_delivery, runCalls_delivery, diagnosticStream_bare]

/-- A second run over what an interrupted one has left behind does all that it would have done
over the untouched model: the same classes, report and calls. -/
theorem interrupted_run_retried (channel : Sink σ) (policy : Policy)
    (classes : List GeneratedClass) (sink : σ) (failure : Failure)
    (interrupted : (run channel ⟨true, policy⟩ classes sink).result = .error failure)
    (willing : Sink τ) (state : τ) (accepting : willing.Accepting) :
    let left := (run channel ⟨true, policy⟩ classes sink).classes
    let retried := run willing ⟨true, policy⟩ left state
    let direct := run willing ⟨true, policy⟩ classes state
    retried.classes = direct.classes ∧
      (∃ report, retried.result = .ok report ∧ direct.result = .ok report) ∧
      retried.sink = direct.sink ∧
      runCalls willing policy left state = runCalls willing policy classes state := by
  have failed := (run_error_iff channel policy classes sink failure).mp interrupted
  obtain ⟨_, _, p, split, left, _⟩ := run_stopped channel policy classes sink failure failed
  rw [left, ← split]
  -- The second run reads no initializers, so it says the same about both models.
  have stream : diagnosticStream policy (p.cut policy) = diagnosticStream policy p.classes := by
    rw [← diagnosticStream_bare, p.bare_cut, diagnosticStream_bare]
  have report : ∀ calls, settledReport policy (p.cut policy) calls =
      settledReport policy p.classes calls := by
    intro calls
    rw [← settledReport_bare, p.bare_cut, settledReport_bare]
  have passed := accepting.deliver_passed (diagnosticStream policy p.classes) state
  obtain ⟨retriedClasses, retriedResult, retriedSink⟩ :=
    run_passed willing policy (p.cut policy) state (stream ▸ passed)
  obtain ⟨directClasses, directResult, directSink⟩ :=
    run_passed willing policy p.classes state passed
  refine ⟨?_, ⟨_, ?_, directResult⟩, ?_, ?_⟩
  · -- It writes over the initializers that the first run has set.
    rw [retriedClasses, directClasses, p.settled_cut]
  · rw [retriedResult, stream, report]
  · rw [retriedSink, directSink, stream]
  · rw [← runCalls_bare, p.bare_cut, runCalls_bare]

theorem collecting_accepting : Sink.collecting.Accepting :=
  fun _ _ => ⟨rfl, rfl⟩

theorem sample_run_retried :
    (run shut ⟨true, .schemaDefault⟩ [sampleClass] ⟨0, 0⟩).result = .error (.channel "closed") ∧
      Sink.collecting.Accepting ∧
      (run Sink.collecting ⟨true, .schemaDefault⟩
          (run shut ⟨true, .schemaDefault⟩ [sampleClass] ⟨0, 0⟩).classes []).classes =
        (run Sink.collecting ⟨true, .schemaDefault⟩ [sampleClass] []).classes := by
  obtain ⟨same, _⟩ := interrupted_run_retried shut .schemaDefault [sampleClass] ⟨0, 0⟩
    (.channel "closed") sample_interrupted Sink.collecting [] collecting_accepting
  exact ⟨sample_interrupted, collecting_accepting, same⟩

end Retry

end Pass

end SchemaDefaults
