import SchemaDefaults.Reporter
/-!
Deliveries. A sink is sent a list of diagnostics one after the other, each through the entry of
its kind, until it refuses a fatal one. The calls and their answers decide all that a reporter
counts. The journal is left out: it holds more than the calls say.
-/

namespace SchemaDefaults

variable {σ : Type}

/-- A call on a sink: the entry that was used, the diagnostic, and the refusal if there was one. -/
structure Exchange where
  entry : DiagnosticKind
  diagnostic : Diagnostic
  refusal : Option Failure
deriving DecidableEq, Repr

namespace Exchange

/-- A refused warning is no failure. -/
def failure (call : Exchange) : Option Failure :=
  match call.entry with
  | .warning => none
  | .fatal => call.refusal

theorem failure_iff (call : Exchange) (refusal : Failure) :
    call.failure = some refusal ↔ call.entry = .fatal ∧ call.refusal = some refusal := by
  cases entry : call.entry <;> simp [failure, entry]

def accepted (entry : DiagnosticKind) (call : Exchange) : Bool :=
  decide (call.entry = entry) && call.refusal.isNone

def dropped (call : Exchange) : Bool :=
  decide (call.entry = .warning) && call.refusal.isSome

end Exchange

structure Delivery (σ : Type) where
  calls : List Exchange
  state : σ

def Delivery.failure (d : Delivery σ) : Option Failure := d.calls.findSome? Exchange.failure

namespace Sink

def send (channel : Sink σ) (d : Diagnostic) : σ → Answer σ :=
  match d.kind with
  | .warning => channel.warning d
  | .fatal => channel.fatal d

def exchange (channel : Sink σ) (d : Diagnostic) (state : σ) : Exchange :=
  ⟨d.kind, d, (channel.send d state).refusal⟩

def deliver (channel : Sink σ) : List Diagnostic → σ → Delivery σ
  | [], state => ⟨[], state⟩
  | d :: rest, state =>
    let call := channel.exchange d state
    let next := (channel.send d state).state
    match call.failure with
    | some _ => ⟨[call], next⟩
    | none =>
      let later := channel.deliver rest next
      ⟨call :: later.calls, later.state⟩

theorem deliver_cons_refused (channel : Sink σ) (d : Diagnostic) (rest : List Diagnostic)
    (state : σ) (failure : Failure)
    (refused : (channel.exchange d state).failure = some failure) :
    channel.deliver (d :: rest) state =
      ⟨[channel.exchange d state], (channel.send d state).state⟩ := by
  simp only [deliver, refused]

theorem deliver_cons_passed (channel : Sink σ) (d : Diagnostic) (rest : List Diagnostic)
    (state : σ) (passed : (channel.exchange d state).failure = none) :
    channel.deliver (d :: rest) state =
      ⟨channel.exchange d state :: (channel.deliver rest (channel.send d state).state).calls,
        (channel.deliver rest (channel.send d state).state).state⟩ := by
  simp only [deliver, passed]

theorem deliver_append_failed (channel : Sink σ) (first second : List Diagnostic) (state : σ)
    (failure : Failure) (failed : (channel.deliver first state).failure = some failure) :
    channel.deliver (first ++ second) state = channel.deliver first state := by
  -- The state is generalized since each call leaves another one to the calls behind it.
  induction first generalizing state with
  | nil => simp [deliver, Delivery.failure] at failed
  | cons d rest ih =>
      rw [List.cons_append]
      cases answer : (channel.exchange d state).failure with
      | some refusal =>
          rw [deliver_cons_refused channel d _ state refusal answer,
            deliver_cons_refused channel d _ state refusal answer]
      | none =>
          rw [deliver_cons_passed channel d _ state answer] at failed ⊢
          rw [deliver_cons_passed channel d _ state answer]
          have later : (channel.deliver rest (channel.send d state).state).failure =
              some failure := by
            simpa [Delivery.failure, answer] using failed
          rw [ih _ later]

theorem deliver_append_passed (channel : Sink σ) (first second : List Diagnostic) (state : σ)
    (passed : (channel.deliver first state).failure = none) :
    channel.deliver (first ++ second) state =
      ⟨(channel.deliver first state).calls ++
          (channel.deliver second (channel.deliver first state).state).calls,
        (channel.deliver second (channel.deliver first state).state).state⟩ := by
  induction first generalizing state with
  | nil => simp [deliver]
  | cons d rest ih =>
      rw [List.cons_append]
      cases answer : (channel.exchange d state).failure with
      | some refusal =>
          rw [deliver_cons_refused channel d _ state refusal answer] at passed
          simp [Delivery.failure, answer] at passed
      | none =>
          rw [deliver_cons_passed channel d _ state answer] at passed
          rw [deliver_cons_passed channel d _ state answer,
            deliver_cons_passed channel d _ state answer]
          have later : (channel.deliver rest (channel.send d state).state).failure = none := by
            simpa [Delivery.failure, answer] using passed
          rw [ih _ later]
          rfl

theorem deliver_concat (channel : Sink σ) (first : List Diagnostic) (d : Diagnostic) (state : σ)
    (passed : (channel.deliver first state).failure = none) :
    (channel.deliver (first ++ [d]) state).calls =
      (channel.deliver first state).calls ++
        [channel.exchange d (channel.deliver first state).state] := by
  rw [deliver_append_passed channel first [d] state passed]
  cases answer : (channel.exchange d (channel.deliver first state).state).failure with
  | some failure => rw [deliver_cons_refused channel d [] _ failure answer]
  | none =>
      rw [deliver_cons_passed channel d [] _ answer]
      rfl

theorem failure_append (channel : Sink σ) (first second : List Diagnostic) (state : σ) :
    (channel.deliver (first ++ second) state).failure =
      (channel.deliver first state).failure.or
        (channel.deliver second (channel.deliver first state).state).failure := by
  cases answer : (channel.deliver first state).failure with
  | some failure =>
      rw [deliver_append_failed channel first second state failure answer, answer]
      rfl
  | none =>
      have quiet : (channel.deliver first state).calls.findSome? Exchange.failure = none := answer
      rw [deliver_append_passed channel first second state answer]
      simp [Delivery.failure, List.findSome?_append, quiet]

end Sink

/-- The calls follow the list from its start, to its end or to the first refused fatal
diagnostic, and keep to the entries. -/
structure Delivery.Follows (stream : List Diagnostic) (d : Delivery σ) : Prop where
  sent : d.calls.map Exchange.diagnostic <+: stream
  entries : ∀ call ∈ d.calls, call.entry = call.diagnostic.kind
  whole : d.failure = none → d.calls.map Exchange.diagnostic = stream
  cut : ∀ failure, d.failure = some failure → ∃ earlier last, d.calls = earlier ++ [last] ∧
    (∀ call ∈ earlier, call.failure = none) ∧ last.failure = some failure

theorem Sink.deliver_follows (channel : Sink σ) (stream : List Diagnostic) (state : σ) :
    (channel.deliver stream state).Follows stream := by
  induction stream generalizing state with
  | nil =>
      refine ⟨by simp [deliver], by simp [deliver], fun _ => rfl, ?_⟩
      intro failure failed
      simp [deliver, Delivery.failure] at failed
  | cons d rest ih =>
      cases answer : (channel.exchange d state).failure with
      | some refusal =>
          rw [deliver_cons_refused channel d rest state refusal answer]
          refine ⟨⟨rest, rfl⟩, ?_, ?_, ?_⟩
          · intro call member
            obtain rfl := List.mem_singleton.mp member
            rfl
          · intro passed
            simp [Delivery.failure, answer] at passed
          · intro failure failed
            have same : refusal = failure := by simpa [Delivery.failure, answer] using failed
            exact ⟨[], channel.exchange d state, rfl, by simp, by rw [answer, same]⟩
      | none =>
          have later := ih (channel.send d state).state
          rw [deliver_cons_passed channel d rest state answer]
          refine ⟨?_, ?_, ?_, ?_⟩
          · exact (List.prefix_cons_inj d).mpr later.sent
          · intro call member
            rcases List.mem_cons.mp member with rfl | behind
            · rfl
            · exact later.entries call behind
          · intro passed
            have quiet : (channel.deliver rest (channel.send d state).state).failure = none := by
              simpa [Delivery.failure, answer] using passed
            exact congrArg (List.cons d) (later.whole quiet)
          · intro failure failed
            have behind : (channel.deliver rest (channel.send d state).state).failure =
                some failure := by
              simpa [Delivery.failure, answer] using failed
            obtain ⟨earlier, last, calls, quiet, refused⟩ := later.cut failure behind
            refine ⟨channel.exchange d state :: earlier, last, by rw [calls]; rfl, ?_, refused⟩
            intro call member
            rcases List.mem_cons.mp member with rfl | inside
            · exact answer
            · exact quiet call inside

theorem Delivery.passed_iff (d : Delivery σ) :
    d.failure = none ↔ ∀ call ∈ d.calls, call.failure = none :=
  List.findSome?_eq_none_iff

/-- Only the last call can be a failure. -/
theorem Delivery.Follows.failure_iff {stream : List Diagnostic} {d : Delivery σ}
    (follows : d.Follows stream) (failure : Failure) :
    d.failure = some failure ↔ ∃ call ∈ d.calls, call.failure = some failure := by
  constructor
  · intro failed
    obtain ⟨earlier, last, calls, _, refused⟩ := follows.cut failure failed
    exact ⟨last, by simp [calls], refused⟩
  · rintro ⟨call, made, refused⟩
    cases decided : d.failure with
    | none => simp [d.passed_iff.mp decided call made] at refused
    | some refusal =>
        obtain ⟨earlier, last, calls, quiet, ended⟩ := follows.cut refusal decided
        rw [calls] at made
        rcases List.mem_append.mp made with inside | final
        · simp [quiet call inside] at refused
        · obtain rfl := List.mem_singleton.mp final
          exact ended.symm.trans refused

/-- Without a failure each fatal diagnostic has been accepted. -/
theorem Delivery.Follows.fatals {stream : List Diagnostic} {d : Delivery σ}
    (follows : d.Follows stream) (passed : d.failure = none) :
    d.calls.countP (·.accepted .fatal) = stream.countP Diagnostic.isFatal := by
  rw [← follows.whole passed, List.countP_map]
  apply List.countP_congr
  intro call made
  have quiet := d.passed_iff.mp passed call made
  have entry := follows.entries call made
  -- A failure is a refused fatal diagnostic, so here such a call has been accepted.
  cases used : call.entry with
  | warning => simp [Exchange.accepted, Diagnostic.isFatal, ← entry, used]
  | fatal =>
      have accepted : call.refusal = none := by simpa [Exchange.failure, used] using quiet
      simp [Exchange.accepted, Diagnostic.isFatal, ← entry, used, accepted]

theorem Sink.failure_fatal (channel : Sink σ) (stream : List Diagnostic) (state : σ)
    (failure : Failure) (failed : (channel.deliver stream state).failure = some failure) :
    ∃ d ∈ stream, d.kind = .fatal := by
  have follows := channel.deliver_follows stream state
  obtain ⟨earlier, last, calls, _, refused⟩ := follows.cut failure failed
  have made : last ∈ (channel.deliver stream state).calls := by simp [calls]
  refine ⟨last.diagnostic, follows.sent.subset (List.mem_map_of_mem made), ?_⟩
  rw [← follows.entries last made]
  cases entry : last.entry with
  | warning => simp [Exchange.failure, entry] at refused
  | fatal => rfl

section Recording

/-- Passes each call on to the sink and keeps it with its answer. -/
def Sink.recording (channel : Sink σ) : Sink (σ × List Exchange) where
  warning d states := keep .warning d (channel.warning d states.1) states.2
  fatal d states := keep .fatal d (channel.fatal d states.1) states.2
where
  keep (entry : DiagnosticKind) (d : Diagnostic) (answer : Answer σ) (heard : List Exchange) :
      Answer (σ × List Exchange) :=
    ⟨answer.refusal, (answer.state, heard ++ [⟨entry, d, answer.refusal⟩]), answer.events⟩

theorem Sink.send_recording (channel : Sink σ) (d : Diagnostic) (state : σ)
    (heard : List Exchange) :
    channel.recording.send d (state, heard) =
      ⟨(channel.send d state).refusal,
        ((channel.send d state).state, heard ++ [channel.exchange d state]),
        (channel.send d state).events⟩ := by
  cases entry : d.kind <;> simp [send, exchange, entry, recording, recording.keep]

theorem Sink.deliver_recording (channel : Sink σ) (stream : List Diagnostic) (state : σ)
    (heard : List Exchange) :
    channel.recording.deliver stream (state, heard) =
      ⟨(channel.deliver stream state).calls,
        ((channel.deliver stream state).state, heard ++ (channel.deliver stream state).calls)⟩ := by
  induction stream generalizing state heard with
  | nil => simp [deliver]
  | cons d rest ih =>
      have same : channel.recording.exchange d (state, heard) = channel.exchange d state := by
        simp [exchange, send_recording]
      cases answer : (channel.exchange d state).failure with
      | some refusal =>
          rw [deliver_cons_refused channel d rest state refusal answer,
            deliver_cons_refused _ d rest _ refusal (by rw [same, answer]), same, send_recording]
      | none =>
          rw [deliver_cons_passed channel d rest state answer,
            deliver_cons_passed _ d rest _ (by rw [same, answer]), same, send_recording, ih]
          simp

end Recording

section Accepting

def Sink.Accepting (channel : Sink σ) : Prop :=
  ∀ d state, (channel.warning d state).refusal = none ∧ (channel.fatal d state).refusal = none

theorem Sink.Accepting.deliver_passed {channel : Sink σ} (accepting : channel.Accepting)
    (stream : List Diagnostic) (state : σ) : (channel.deliver stream state).failure = none := by
  induction stream generalizing state with
  | nil => rfl
  | cons d rest ih =>
      have answer : (channel.exchange d state).failure = none := by
        cases entry : d.kind with
        | warning => simp [exchange, Exchange.failure, entry]
        | fatal => simp [exchange, Exchange.failure, entry, send, (accepting d state).2]
      rw [deliver_cons_passed channel d rest state answer]
      simpa [Delivery.failure, answer] using ih (channel.send d state).state

end Accepting

section Reporting

structure Reporter.Advanced (before : Reporter σ) (d : Delivery σ) (after : Reporter σ) :
    Prop where
  sink : after.sink = d.state
  warnings : after.warnings = before.warnings + d.calls.countP (·.accepted .warning)
  fatals : after.fatals = before.fatals + d.calls.countP (·.accepted .fatal)
  dropped : after.dropped = before.dropped + d.calls.countP (·.dropped)

namespace Reporter

theorem note_advanced (channel : Sink σ) (r : Reporter σ) (events : List Event) :
    r.Advanced (channel.deliver [] r.sink) (r.note events) :=
  ⟨rfl, rfl, rfl, rfl⟩

theorem warn_advanced (channel : Sink σ) (d : Diagnostic) (r : Reporter σ)
    (entry : d.kind = .warning) :
    r.Advanced (channel.deliver [d] r.sink) (r.warn channel d) := by
  have passed : (channel.exchange d r.sink).failure = none := by
    simp [Sink.exchange, Exchange.failure, entry]
  rw [Sink.deliver_cons_passed channel d [] r.sink passed]
  cases answer : (channel.warning d r.sink).refusal <;>
    constructor <;>
    simp [warn, Sink.deliver, Sink.exchange, Sink.send, Exchange.accepted, Exchange.dropped,
      entry, answer]

theorem fatal_advanced (channel : Sink σ) (d : Diagnostic) (r : Reporter σ)
    (entry : d.kind = .fatal) :
    r.Advanced (channel.deliver [d] r.sink) (r.fatal channel d).2 := by
  cases answer : (channel.fatal d r.sink).refusal with
  | none =>
      have passed : (channel.exchange d r.sink).failure = none := by
        simp [Sink.exchange, Exchange.failure, Sink.send, entry, answer]
      rw [Sink.deliver_cons_passed channel d [] r.sink passed]
      constructor <;>
        simp [fatal, Sink.deliver, Sink.exchange, Sink.send, Exchange.accepted,
          Exchange.dropped, entry, answer]
  | some refusal =>
      have refused : (channel.exchange d r.sink).failure = some refusal := by
        simp [Sink.exchange, Exchange.failure, Sink.send, entry, answer]
      rw [Sink.deliver_cons_refused channel d [] r.sink refusal refused]
      constructor <;>
        simp [fatal, Sink.exchange, Sink.send, Exchange.accepted, Exchange.dropped, entry,
          answer]

theorem fatal_failure (channel : Sink σ) (d : Diagnostic) (r : Reporter σ)
    (entry : d.kind = .fatal) :
    (r.fatal channel d).1 = (channel.deliver [d] r.sink).failure := by
  cases answer : (channel.fatal d r.sink).refusal <;>
    simp [fatal, Delivery.failure, Sink.deliver, Sink.exchange, Exchange.failure, Sink.send,
      entry, answer]

theorem Advanced.append_passed {channel : Sink σ} {first second : List Diagnostic}
    {r middle after : Reporter σ} (start : r.Advanced (channel.deliver first r.sink) middle)
    (passed : (channel.deliver first r.sink).failure = none)
    (rest : middle.Advanced (channel.deliver second middle.sink) after) :
    r.Advanced (channel.deliver (first ++ second) r.sink) after := by
  rw [start.sink] at rest
  rw [Sink.deliver_append_passed channel first second r.sink passed]
  constructor
  · exact rest.sink
  · rw [rest.warnings, start.warnings, List.countP_append, Nat.add_assoc]
  · rw [rest.fatals, start.fatals, List.countP_append, Nat.add_assoc]
  · rw [rest.dropped, start.dropped, List.countP_append, Nat.add_assoc]

theorem Advanced.append_failed {channel : Sink σ} {first : List Diagnostic}
    {r after : Reporter σ} {failure : Failure} (second : List Diagnostic)
    (start : r.Advanced (channel.deliver first r.sink) after)
    (failed : (channel.deliver first r.sink).failure = some failure) :
    r.Advanced (channel.deliver (first ++ second) r.sink) after := by
  rw [Sink.deliver_append_failed channel first second r.sink failure failed]
  exact start

end Reporter

end Reporting

end SchemaDefaults
