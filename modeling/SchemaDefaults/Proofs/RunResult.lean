import SchemaDefaults.Proofs.Run
import SchemaDefaults.Proofs.Simulation
/-!
Results of enabled runs. A run that ends well has treated each field by itself, and what the sink
was sent is a fixed list of diagnostics, cut off behind the first fatal one that it refused.
-/

namespace SchemaDefaults

namespace Pass

variable {σ : Type}

section Sample

def sampleMarker (line : UInt32) : Customization :=
  ⟨Marker.namespaceUri, Marker.tag, SortedMap.empty, some ⟨none, line, 1⟩, false⟩

def sampleClass : GeneratedClass :=
  ⟨"Host", none,
    [⟨"retries", .attribute (some "3"), [sampleMarker 4, sampleMarker 5], none,
        some ⟨.integer .int, none⟩⟩,
      ⟨"port", .attribute (some "110"), [], none, some ⟨.integer .int, none⟩⟩,
      ⟨"hostname", .element, [sampleMarker 9], none, some ⟨.string, none⟩⟩]⟩

def sampleReport : Report :=
  { enabled := true
    classesVisited := 1
    fieldsVisited := 3
    fields := [⟨"Host", "retries", .injected (.integer .int "3")⟩,
      ⟨"Host", "hostname", .rejected Extraction.notAnAttribute⟩]
    acknowledged := IdSet.ofList [⟨"Host", "retries", 0⟩, ⟨"Host", "retries", 1⟩,
      ⟨"Host", "hostname", 0⟩]
    warnings := 0
    fatals := 1 }

/-- Refuses all warnings and no fatal diagnostic. -/
def deafToWarnings : Sink Sink.Counts :=
  Sink.refusing (fun _ => true) (fun _ => false) "closed"

def shut : Sink Sink.Counts :=
  Sink.refusing (fun _ => true) (fun _ => true) "closed"

theorem sample_succeeded :
    (run deafToWarnings ⟨true, .schemaDefault⟩ [sampleClass] ⟨0, 0⟩).result =
      .ok sampleReport := by
  rfl

theorem sample_interrupted :
    (run shut ⟨true, .schemaDefault⟩ [sampleClass] ⟨0, 0⟩).result =
      .error (.channel "closed") := by
  rfl

end Sample

theorem settledReport_succeeded (policy : Policy) (classes : List GeneratedClass)
    (calls : List Exchange) :
    (settledReport policy classes calls).succeeded = true ↔
      ∀ entry ∈ (settledReport policy classes calls).fields,
        ∃ literal, entry.outcome = .injected literal := by
  simp only [Report.succeeded, settledReport, stream_fatals_rejected, decide_eq_true_eq,
    List.countP_eq_zero]
  constructor
  · intro clean entry reported
    have kept := clean entry reported
    cases outcome : entry.outcome with
    | injected literal => exact ⟨literal, rfl⟩
    | rejected message => simp [outcome, Outcome.isRejected] at kept
  · intro injected entry reported
    obtain ⟨literal, outcome⟩ := injected entry reported
    simp [outcome, Outcome.isRejected]

/-- What becomes of a field depends on the field and the policy alone, and the report lists the
marked fields in visiting order. Another sink changes neither. -/
theorem run_settles_fields (channel : Sink σ) (policy : Policy)
    (classes : List GeneratedClass) (sink : σ) (report : Report)
    (succeeded : (run channel ⟨true, policy⟩ classes sink).result = .ok report) :
    (∀ f, Settles policy f (f.settled policy) (f.outcome? policy)) ∧
      (run channel ⟨true, policy⟩ classes sink).classes =
        classes.map (fun c => { c with fields := c.fields.map (·.settled policy) }) ∧
      report.fields = classes.flatMap (fun c => c.fields.filterMap fun f =>
        (f.outcome? policy).map (⟨c.name, f.name, ·⟩)) ∧
      report.classesVisited = classes.length ∧
      report.fieldsVisited = (classes.flatMap (·.fields)).length ∧
      report.fatals = report.fields.countP (·.outcome.isRejected) ∧
      (report.succeeded = true ↔
        ∀ entry ∈ report.fields, ∃ literal, entry.outcome = .injected literal) ∧
      ∀ (τ : Type) (other : Sink τ) (state : τ) (second : Report),
        (run other ⟨true, policy⟩ classes state).result = .ok second →
          (run other ⟨true, policy⟩ classes state).classes =
              (run channel ⟨true, policy⟩ classes sink).classes ∧
            second.fields = report.fields ∧ second.fatals = report.fatals := by
  obtain ⟨passed, same⟩ := (run_ok_iff channel policy classes sink report).mp succeeded
  subst same
  have settled := (run_passed channel policy classes sink passed).1
  refine ⟨field_settles policy, settled, rfl, rfl, rfl, ?_, ?_, ?_⟩
  · exact stream_fatals_rejected policy classes
  · exact settledReport_succeeded policy classes _
  · intro τ other state second again
    obtain ⟨alsoPassed, alsoSame⟩ := (run_ok_iff other policy classes state second).mp again
    subst alsoSame
    refine ⟨?_, rfl, rfl⟩
    rw [settled, (run_passed other policy classes state alsoPassed).1]

theorem sample_run_settles :
    (run deafToWarnings ⟨true, .schemaDefault⟩ [sampleClass] ⟨0, 0⟩).result = .ok sampleReport ∧
      (run deafToWarnings ⟨true, .schemaDefault⟩ [sampleClass] ⟨0, 0⟩).classes =
        [sampleClass].map
          (fun c => { c with fields := c.fields.map (·.settled .schemaDefault) }) ∧
      sampleReport.fatals = sampleReport.fields.countP (·.outcome.isRejected) := by
  obtain ⟨_, settled, _, _, _, fatals, _⟩ := run_settles_fields deafToWarnings .schemaDefault
    [sampleClass] ⟨0, 0⟩ sampleReport sample_succeeded
  exact ⟨sample_succeeded, settled, fatals⟩

section Calls

theorem recording_carries (channel : Sink σ) :
    Sink.Carries Prod.fst channel.recording channel :=
  ⟨fun _ _ => rfl, fun _ _ => rfl⟩

/-- The calls that an enabled run makes, with their answers. -/
def runCalls (channel : Sink σ) (policy : Policy) (classes : List GeneratedClass) (sink : σ) :
    List Exchange :=
  (run channel.recording ⟨true, policy⟩ classes (sink, [])).sink.2

theorem runCalls_delivery (channel : Sink σ) (policy : Policy) (classes : List GeneratedClass)
    (sink : σ) :
    runCalls channel policy classes sink =
      (channel.deliver (diagnosticStream policy classes) sink).calls := by
  rw [runCalls, run_sink, channel.deliver_recording]
  rfl

/-- An enabled run sends the stream of its model, warnings and fatal diagnostics each through
their entry, up to the first refused fatal diagnostic. That refusal is its failure; refused
warnings are only not counted. -/
theorem run_calls (channel : Sink σ) (policy : Policy) (classes : List GeneratedClass)
    (sink : σ) :
    let stream := diagnosticStream policy classes
    let calls := runCalls channel policy classes sink
    let plain := run channel ⟨true, policy⟩ classes sink
    plain = (run channel.recording ⟨true, policy⟩ classes (sink, [])).map Prod.fst ∧
      (∀ call ∈ calls, call.entry = call.diagnostic.kind) ∧
      calls.map Exchange.diagnostic <+: stream ∧
      (∀ failure, plain.result = .error failure ↔
        ∃ call ∈ calls, call.entry = .fatal ∧ call.refusal = some failure) ∧
      (∀ failure, plain.result = .error failure →
        ∃ earlier last, calls = earlier ++ [last] ∧ last.entry = .fatal ∧
          last.refusal = some failure ∧
          ∀ call ∈ earlier, call.entry = .fatal → call.refusal = none) ∧
      ∀ report, plain.result = .ok report →
        calls.map Exchange.diagnostic = stream ∧
          report.warnings = calls.countP (·.accepted .warning) ∧
          report.fatals = stream.countP Diagnostic.isFatal := by
  have follows := channel.deliver_follows (diagnosticStream policy classes) sink
  simp only [runCalls_delivery]
  refine ⟨run_map (recording_carries channel) ⟨true, policy⟩ classes (sink, []),
    follows.entries, follows.sent, ?_, ?_, ?_⟩
  · intro failure
    rw [run_error_iff, follows.failure_iff]
    simp only [Exchange.failure_iff]
  · intro failure failed
    obtain ⟨earlier, last, calls, quiet, refused⟩ :=
      follows.cut failure ((run_error_iff channel policy classes sink failure).mp failed)
    obtain ⟨entry, refusal⟩ := (last.failure_iff failure).mp refused
    refine ⟨earlier, last, calls, entry, refusal, ?_⟩
    intro call inside used
    simpa [Exchange.failure, used] using quiet call inside
  · intro report succeeded
    obtain ⟨passed, same⟩ := (run_ok_iff channel policy classes sink report).mp succeeded
    subst same
    exact ⟨follows.whole passed, rfl, rfl⟩

theorem sample_run_calls :
    (run deafToWarnings ⟨true, .schemaDefault⟩ [sampleClass] ⟨0, 0⟩).result = .ok sampleReport ∧
      (runCalls deafToWarnings .schemaDefault [sampleClass] ⟨0, 0⟩).map Exchange.diagnostic =
        diagnosticStream .schemaDefault [sampleClass] ∧
      (run shut ⟨true, .schemaDefault⟩ [sampleClass] ⟨0, 0⟩).result =
        .error (.channel "closed") ∧
      ∃ earlier last, runCalls shut .schemaDefault [sampleClass] ⟨0, 0⟩ = earlier ++ [last] ∧
        last.entry = .fatal ∧ last.refusal = some (.channel "closed") := by
  obtain ⟨_, _, _, _, _, completed⟩ :=
    run_calls deafToWarnings .schemaDefault [sampleClass] ⟨0, 0⟩
  obtain ⟨_, _, _, _, ended, _⟩ := run_calls shut .schemaDefault [sampleClass] ⟨0, 0⟩
  obtain ⟨earlier, last, calls, entry, refusal, _⟩ :=
    ended (.channel "closed") sample_interrupted
  exact ⟨sample_succeeded, (completed sampleReport sample_succeeded).1, sample_interrupted,
    earlier, last, calls, entry, refusal⟩

end Calls

end Pass

end SchemaDefaults
