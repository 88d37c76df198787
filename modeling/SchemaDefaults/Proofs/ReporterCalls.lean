import SchemaDefaults.Proofs.Interruption
import SchemaDefaults.Proofs.Survey
/-!
Calls on a reporter. Whoever holds a reporter may go on after a failure, so that warnings and fatal
diagnostics follow one another in any order, whatever the sink answers. Each call reaches the sink
once, and the counts, the results and what a collecting sink has kept follow from the answers.
-/

namespace SchemaDefaults

variable {σ τ : Type}

section Calls

/-- A warning is put together by the reporter, while a fatal diagnostic is handed to it. -/
inductive Reporter.Call where
  | warn (message : String) (location : Option Location)
  | fatal (d : Diagnostic)
deriving DecidableEq, Repr

namespace Reporter

namespace Call

def entry : Call → DiagnosticKind
  | warn _ _ => .warning
  | fatal _ => .fatal

def diagnostic : Call → Diagnostic
  | warn message location => ⟨.warning, message, location⟩
  | fatal d => d

end Call

/-- The failure that the caller is told of, and the reporter behind the call. -/
def perform (channel : Sink σ) (r : Reporter σ) : Call → Option Failure × Reporter σ
  | .warn message location => (none, r.warn channel ⟨.warning, message, location⟩)
  | .fatal d => r.fatal channel d

/-- The results of all calls, and the reporter behind them. No failure ends the calls. -/
def performAll (channel : Sink σ) : List Call → Reporter σ → List (Option Failure) × Reporter σ
  | [], r => ([], r)
  | call :: rest, r =>
    let (result, next) := r.perform channel call
    let (results, last) := performAll channel rest next
    (result :: results, last)

/-- What the sink is sent, as a recording sink in its place shows it. -/
def received (channel : Sink σ) (calls : List Call) (r : Reporter σ) : List Exchange :=
  (performAll channel.recording calls { r with sink := (r.sink, []) }).2.sink.2

end Reporter

end Calls

section Conversations

open Reporter

namespace Sink

def answer (channel : Sink σ) (call : Call) : σ → Answer σ :=
  match call.entry with
  | .warning => channel.warning call.diagnostic
  | .fatal => channel.fatal call.diagnostic

def answered (channel : Sink σ) (call : Call) (state : σ) : Exchange :=
  ⟨call.entry, call.diagnostic, (channel.answer call state).refusal⟩

def converse (channel : Sink σ) : List Call → σ → Delivery σ
  | [], state => ⟨[], state⟩
  | call :: rest, state =>
    let later := channel.converse rest (channel.answer call state).state
    ⟨channel.answered call state :: later.calls, later.state⟩

theorem converse_entries (channel : Sink σ) (calls : List Call) (state : σ) :
    (channel.converse calls state).calls.map (fun call => (call.entry, call.diagnostic)) =
      calls.map fun call => (call.entry, call.diagnostic) := by
  induction calls generalizing state with
  | nil => rfl
  | cons call rest ih => exact congrArg (List.cons _) (ih (channel.answer call state).state)

theorem answer_recording (channel : Sink σ) (call : Call) (state : σ) (heard : List Exchange) :
    channel.recording.answer call (state, heard) =
      ⟨(channel.answer call state).refusal,
        ((channel.answer call state).state, heard ++ [channel.answered call state]),
        (channel.answer call state).events⟩ := by
  cases call <;> rfl

theorem converse_recording (channel : Sink σ) (calls : List Call) (state : σ)
    (heard : List Exchange) :
    (channel.recording.converse calls (state, heard)).state =
      ((channel.converse calls state).state, heard ++ (channel.converse calls state).calls) := by
  induction calls generalizing state heard with
  | nil => simp [converse]
  | cons call rest ih => simp [converse, answer_recording, ih]

end Sink

namespace Reporter

theorem perform_advanced (channel : Sink σ) (r : Reporter σ) (call : Call) :
    r.Advanced ⟨[channel.answered call r.sink], (channel.answer call r.sink).state⟩
      (r.perform channel call).2 := by
  cases call with
  | warn message location =>
      cases answer : (channel.warning ⟨.warning, message, location⟩ r.sink).refusal <;>
        constructor <;>
        simp [perform, warn, Sink.answer, Sink.answered, Call.entry, Call.diagnostic,
          Exchange.accepted, Exchange.dropped, answer]
  | fatal d =>
      cases answer : (channel.fatal d r.sink).refusal <;>
        constructor <;>
        simp [perform, fatal, Sink.answer, Sink.answered, Call.entry, Call.diagnostic,
          Exchange.accepted, Exchange.dropped, answer]

theorem perform_result (channel : Sink σ) (r : Reporter σ) (call : Call) :
    (r.perform channel call).1 = (channel.answered call r.sink).failure := by
  cases call with
  | warn message location => rfl
  | fatal d =>
      cases answer : (channel.fatal d r.sink).refusal <;>
        simp [perform, fatal, Sink.answered, Sink.answer, Exchange.failure, Call.entry,
          Call.diagnostic, answer]

theorem performAll_advanced (channel : Sink σ) (calls : List Call) (r : Reporter σ) :
    r.Advanced (channel.converse calls r.sink) (performAll channel calls r).2 := by
  -- What holds of one call is carried over all of them: the later counts start from the earlier.
  induction calls generalizing r with
  | nil => exact ⟨rfl, rfl, rfl, rfl⟩
  | cons call rest ih =>
      have first := perform_advanced channel r call
      have later := ih (r.perform channel call).2
      rw [first.sink] at later
      constructor
      · exact later.sink
      · rw [performAll, later.warnings, first.warnings, Nat.add_assoc, ← List.countP_append]
        rfl
      · rw [performAll, later.fatals, first.fatals, Nat.add_assoc, ← List.countP_append]
        rfl
      · rw [performAll, later.dropped, first.dropped, Nat.add_assoc, ← List.countP_append]
        rfl

theorem performAll_results (channel : Sink σ) (calls : List Call) (r : Reporter σ) :
    (performAll channel calls r).1 =
      (channel.converse calls r.sink).calls.map Exchange.failure := by
  induction calls generalizing r with
  | nil => rfl
  | cons call rest ih =>
      have later := ih (r.perform channel call).2
      rw [(perform_advanced channel r call).sink] at later
      rw [performAll, Sink.converse, List.map_cons, ← perform_result, ← later]

theorem performAll_append (channel : Sink σ) (first second : List Call) (r : Reporter σ) :
    performAll channel (first ++ second) r =
      ((performAll channel first r).1 ++ (performAll channel second (performAll channel first r).2).1,
        (performAll channel second (performAll channel first r).2).2) := by
  induction first generalizing r with
  | nil => rfl
  | cons call rest ih => simp only [List.cons_append, performAll, ih (r.perform channel call).2]

theorem performAll_length (channel : Sink σ) (calls : List Call) (r : Reporter σ) :
    (performAll channel calls r).1.length = calls.length := by
  induction calls generalizing r with
  | nil => rfl
  | cons call rest ih => exact congrArg (· + 1) (ih (r.perform channel call).2)

theorem performAll_result (channel : Sink σ) (earlier later : List Call) (call : Call)
    (r : Reporter σ) :
    (performAll channel (earlier ++ call :: later) r).1[earlier.length]? =
      some ((performAll channel earlier r).2.perform channel call).1 := by
  have front := performAll_length channel earlier r
  rw [performAll_append, List.getElem?_append_right (by omega), front, Nat.sub_self]
  rfl

theorem performAll_concat (channel : Sink σ) (earlier : List Call) (call : Call)
    (r : Reporter σ) :
    (performAll channel (earlier ++ [call]) r).2 =
      ((performAll channel earlier r).2.perform channel call).2 := by
  rw [performAll_append]
  rfl

theorem received_converse (channel : Sink σ) (calls : List Call) (r : Reporter σ) :
    received channel calls r = (channel.converse calls r.sink).calls := by
  have sent := (performAll_advanced channel.recording calls { r with sink := (r.sink, []) }).sink
  rw [received, sent, channel.converse_recording, List.nil_append]

theorem received_entries (channel : Sink σ) (calls : List Call) (r : Reporter σ) :
    (received channel calls r).map (fun call => (call.entry, call.diagnostic)) =
      calls.map fun call => (call.entry, call.diagnostic) := by
  rw [received_converse, channel.converse_entries]

theorem performAll_failures (channel : Sink σ) (calls : List Call) (r : Reporter σ) :
    (performAll channel calls r).1 = (received channel calls r).map Exchange.failure := by
  rw [received_converse, performAll_results]

theorem performAll_counted (channel : Sink σ) (calls : List Call) (r : Reporter σ) :
    let heard := received channel calls r
    let last := (performAll channel calls r).2
    last.warnings = r.warnings + heard.countP (·.accepted .warning) ∧
      last.fatals = r.fatals + heard.countP (·.accepted .fatal) ∧
      last.dropped = r.dropped + heard.countP (·.dropped) := by
  have advanced := performAll_advanced channel calls r
  rw [received_converse]
  exact ⟨advanced.warnings, advanced.fatals, advanced.dropped⟩

theorem fatal_refused (channel : Sink σ) (d : Diagnostic) (r : Reporter σ)
    (refused : (channel.fatal d r.sink).refusal ≠ none) :
    (r.fatal channel d).2.warnings = r.warnings ∧ (r.fatal channel d).2.fatals = r.fatals ∧
      (r.fatal channel d).2.dropped = r.dropped := by
  cases answer : (channel.fatal d r.sink).refusal with
  | none => exact absurd answer refused
  | some failure => simp [fatal, answer]

theorem fatal_among (channel : Sink σ) (earlier later : List Call) (d : Diagnostic)
    (r : Reporter σ) :
    let before := (performAll channel earlier r).2
    let refusal := (channel.fatal d before.sink).refusal
    let after := (performAll channel (earlier ++ [.fatal d]) r).2
    (performAll channel (earlier ++ .fatal d :: later) r).1[earlier.length]? = some refusal ∧
      (refusal ≠ none → after.warnings = before.warnings ∧ after.fatals = before.fatals ∧
        after.dropped = before.dropped) := by
  intro before refusal after
  have result : (before.perform channel (.fatal d)).1 = refusal :=
    perform_result channel before (.fatal d)
  constructor
  · rw [performAll_result, result]
  · intro refused
    simp only [after, performAll_concat]
    exact fatal_refused channel d before refused

end Reporter

end Conversations

section Collecting

open Reporter

/-- Part of the sink's state lists the diagnostics that it has accepted, in order. -/
structure Sink.Collects (channel : Sink σ) (kept : σ → List Diagnostic) : Prop where
  warning : ∀ d state, kept (channel.warning d state).state =
    if (channel.warning d state).refusal.isNone then kept state ++ [d] else kept state
  fatal : ∀ d state, kept (channel.fatal d state).state =
    if (channel.fatal d state).refusal.isNone then kept state ++ [d] else kept state

theorem Sink.collecting_collects : Sink.collecting.Collects id := ⟨fun _ _ => rfl, fun _ _ => rfl⟩

theorem Sink.andThen_collects (first : Sink σ) {second : Sink τ} {kept : τ → List Diagnostic}
    (accepting : second.Accepting) (collects : second.Collects kept) :
    (first.andThen second).Collects fun states => kept states.2 := by
  constructor
  · intro d states
    have keeps := collects.warning d states.2
    rw [(accepting d states.2).1] at keeps
    cases answer : (first.warning d states.1).refusal <;>
      simp [andThen, andThen.chain, answer, (accepting d states.2).1, keeps]
  · intro d states
    have keeps := collects.fatal d states.2
    rw [(accepting d states.2).2] at keeps
    cases answer : (first.fatal d states.1).refusal <;>
      simp [andThen, andThen.chain, answer, (accepting d states.2).2, keeps]

def Exchange.kept (calls : List Exchange) : List Diagnostic :=
  (calls.filter (·.refusal.isNone)).map Exchange.diagnostic

variable {channel : Sink σ} {kept : σ → List Diagnostic}

theorem Sink.Collects.answer (collects : channel.Collects kept) (call : Call) (state : σ) :
    kept (channel.answer call state).state =
      kept state ++ Exchange.kept [channel.answered call state] := by
  cases call with
  | warn message location =>
      have keeps := collects.warning ⟨.warning, message, location⟩ state
      cases answer : (channel.warning ⟨.warning, message, location⟩ state).refusal <;>
        simp_all [Sink.answer, Sink.answered, Call.entry, Call.diagnostic, Exchange.kept]
  | fatal d =>
      have keeps := collects.fatal d state
      cases answer : (channel.fatal d state).refusal <;>
        simp_all [Sink.answer, Sink.answered, Call.entry, Call.diagnostic, Exchange.kept]

theorem Sink.Collects.converse (collects : channel.Collects kept) (calls : List Call)
    (state : σ) :
    kept (channel.converse calls state).state =
      kept state ++ Exchange.kept (channel.converse calls state).calls := by
  induction calls generalizing state with
  | nil => simp [Sink.converse, Exchange.kept]
  | cons call rest ih =>
      have later := ih (channel.answer call state).state
      rw [collects.answer call state, List.append_assoc] at later
      rw [Sink.converse, later, Exchange.kept, Exchange.kept, ← List.map_append,
        ← List.filter_append]
      rfl

/-- Where each call keeps to the entry of its kind, the kinds of what is kept tell what has been
accepted at each entry. -/
theorem Exchange.kept_kind (calls : List Exchange) (kind : DiagnosticKind)
    (entries : ∀ call ∈ calls, call.entry = call.diagnostic.kind) :
    ((Exchange.kept calls).filter (·.kind = kind)).length = calls.countP (·.accepted kind) := by
  rw [← List.countP_eq_length_filter, kept, List.countP_map, List.countP_filter]
  apply List.countP_congr
  intro call member
  simp [accepted, entries call member]

/-- A reporter keeps a warning to its entry; a fatal diagnostic is asserted to be one. -/
theorem Sink.converse_kinds (channel : Sink σ) (calls : List Call) (state : σ)
    (asserted : ∀ d, .fatal d ∈ calls → d.isFatal = true) :
    ∀ call ∈ (channel.converse calls state).calls, call.entry = call.diagnostic.kind := by
  intro call member
  -- The exchanges repeat the calls one by one, so that it is enough to look at the calls.
  have listed := List.mem_map_of_mem (f := fun call => (call.entry, call.diagnostic)) member
  rw [channel.converse_entries] at listed
  obtain ⟨made, inside, same⟩ := List.mem_map.mp listed
  obtain ⟨entry, diagnostic⟩ := Prod.mk.inj same
  rw [← entry, ← diagnostic]
  cases made with
  | warn message location => rfl
  | fatal d => exact (of_decide_eq_true (asserted d inside)).symm

theorem Sink.Collects.performAll (collects : channel.Collects kept) (calls : List Call)
    (r : Reporter σ) :
    kept (performAll channel calls r).2.sink =
      kept r.sink ++ Exchange.kept (received channel calls r) := by
  rw [(performAll_advanced channel calls r).sink, received_converse]
  exact collects.converse calls r.sink

theorem Sink.Collects.views (collects : channel.Collects kept) (calls : List Call)
    (r : Reporter σ) (asserted : ∀ d, .fatal d ∈ calls → d.isFatal = true) :
    let last := (Reporter.performAll channel calls r).2
    ((kept last.sink).filter (·.kind = .warning)).length + r.warnings =
        ((kept r.sink).filter (·.kind = .warning)).length + last.warnings ∧
      ((kept last.sink).filter (·.kind = .fatal)).length + r.fatals =
        ((kept r.sink).filter (·.kind = .fatal)).length + last.fatals := by
  intro last
  obtain ⟨warnings, fatals, _⟩ := performAll_counted channel calls r
  have kinds : ∀ call ∈ received channel calls r, call.entry = call.diagnostic.kind := by
    rw [received_converse]
    exact channel.converse_kinds calls r.sink asserted
  have grown (kind : DiagnosticKind) : ((kept last.sink).filter (·.kind = kind)).length =
      ((kept r.sink).filter (·.kind = kind)).length +
        (received channel calls r).countP (·.accepted kind) := by
    rw [collects.performAll calls r, List.filter_append, List.length_append,
      Exchange.kept_kind _ kind kinds]
  constructor
  · rw [grown .warning, warnings]
    omega
  · rw [grown .fatal, fatals]
    omega

end Collecting

section Results

open Reporter

/-- Every warning is counted, as accepted or as dropped. -/
theorem warnings_tried (channel : Sink σ) (calls : List Call) (r : Reporter σ) :
    (performAll channel calls r).2.warnings + (performAll channel calls r).2.dropped =
      r.warnings + r.dropped + calls.countP (·.entry = .warning) := by
  obtain ⟨warnings, _, dropped⟩ := performAll_counted channel calls r
  have sent : (received channel calls r).countP (·.entry = .warning) =
      calls.countP (·.entry = .warning) := by
    have entries := congrArg (List.countP fun call => decide (call.1 = DiagnosticKind.warning))
      (received_entries channel calls r)
    rw [List.countP_map, List.countP_map] at entries
    exact entries
  rw [← sent, warnings_answered, warnings, dropped]
  omega

theorem ended_well_count (calls : List Call) (exchanges : List Exchange)
    (made : exchanges.map (fun call => (call.entry, call.diagnostic)) =
      calls.map fun call => (call.entry, call.diagnostic)) :
    (calls.zip (exchanges.map Exchange.failure)).countP
        (fun made => decide (made.1.entry = .fatal) && made.2.isNone) =
      exchanges.countP (·.accepted .fatal) := by
  induction calls generalizing exchanges with
  | nil => simp_all
  | cons call rest ih =>
      cases exchanges with
      | nil => simp at made
      | cons exchange later =>
          simp only [List.map_cons, List.cons.injEq, Prod.mk.injEq] at made
          obtain ⟨⟨entry, _⟩, behind⟩ := made
          rw [List.map_cons, List.zip_cons_cons, List.countP_cons, List.countP_cons,
            ih later behind]
          cases used : exchange.entry <;>
            simp [Exchange.accepted, Exchange.failure, ← entry, used]

/-- The sink hears each call once, at the entry of the call and in order, and a call fails exactly
if it is a fatal diagnostic that the sink refuses, with the failure of the sink and without being
counted. Else it is counted as what has become of it. A sink that keeps what it accepts has kept
the accepted diagnostics in order, and as many of each kind as have been counted, if what is
handed over as fatal is so. -/
theorem calls_counted (channel : Sink σ) (calls : List Call) (r : Reporter σ) :
    let heard := received channel calls r
    let done := performAll channel calls r
    heard.map (fun call => (call.entry, call.diagnostic)) =
        calls.map (fun call => (call.entry, call.diagnostic)) ∧
      done.1 = heard.map Exchange.failure ∧
      done.2.warnings = r.warnings + heard.countP (·.accepted .warning) ∧
      done.2.warnings + done.2.dropped =
        r.warnings + r.dropped + calls.countP (·.entry = .warning) ∧
      done.2.fatals = r.fatals + (calls.zip done.1).countP
        (fun made => decide (made.1.entry = .fatal) && made.2.isNone) ∧
      (∀ earlier d later, calls = earlier ++ .fatal d :: later →
        let before := (performAll channel earlier r).2
        let refusal := (channel.fatal d before.sink).refusal
        let after := (performAll channel (earlier ++ [.fatal d]) r).2
        done.1[earlier.length]? = some refusal ∧
          (refusal ≠ none → after.warnings = before.warnings ∧
            after.fatals = before.fatals ∧ after.dropped = before.dropped)) ∧
      ∀ kept, channel.Collects kept →
        kept done.2.sink = kept r.sink ++
          (heard.filter (·.refusal.isNone)).map Exchange.diagnostic ∧
        ((∀ d, .fatal d ∈ calls → d.isFatal = true) →
          ((kept done.2.sink).filter (·.kind = .warning)).length + r.warnings =
            ((kept r.sink).filter (·.kind = .warning)).length + done.2.warnings ∧
          ((kept done.2.sink).filter (·.kind = .fatal)).length + r.fatals =
            ((kept r.sink).filter (·.kind = .fatal)).length + done.2.fatals) := by
  obtain ⟨warnings, fatals, _⟩ := performAll_counted channel calls r
  refine ⟨received_entries channel calls r, performAll_failures channel calls r, warnings,
    warnings_tried channel calls r, ?_, ?_, ?_⟩
  · rw [fatals, performAll_failures,
      ended_well_count calls _ (received_entries channel calls r)]
  · intro earlier d later split
    simp only [split]
    exact fatal_among channel earlier later d r
  · intro kept collects
    exact ⟨collects.performAll calls r, collects.views calls r⟩

def pickySink : Sink (Sink.Counts × List Diagnostic) :=
  (Sink.refusing (· == 1) (· == 0) "closed").andThen Sink.collecting

def sampleReporting : List Call :=
  [.warn "kept" none, .fatal ⟨.fatal, "refused", none⟩, .warn "dropped" none,
    .fatal ⟨.fatal, "counted", none⟩]

theorem pickySink_collects : pickySink.Collects fun states => states.2 :=
  Sink.andThen_collects _ Pass.collecting_accepting Sink.collecting_collects

theorem sample_calls_counted :
    let start := Reporter.start (⟨⟨0, 0⟩, []⟩ : Sink.Counts × List Diagnostic)
    let done := performAll pickySink sampleReporting start
    pickySink.Collects (fun states => states.2) ∧
      (∀ d, .fatal d ∈ sampleReporting → d.isFatal = true) ∧
      done.1 = [none, some (.channel "closed"), none, none] ∧
      done.2.warnings = 1 ∧ done.2.warnings + done.2.dropped = 2 ∧ done.2.fatals = 1 ∧
      done.2.sink.2 = [⟨.warning, "kept", none⟩, ⟨.fatal, "counted", none⟩] ∧
      (done.2.sink.2.filter (·.kind = .fatal)).length = done.2.fatals := by
  intro start done
  obtain ⟨_, results, warnings, tried, fatals, _, collected⟩ :=
    calls_counted pickySink sampleReporting start
  have heard : received pickySink sampleReporting start =
      [⟨.warning, ⟨.warning, "kept", none⟩, none⟩,
        ⟨.fatal, ⟨.fatal, "refused", none⟩, some (.channel "closed")⟩,
        ⟨.warning, ⟨.warning, "dropped", none⟩, some (.channel "closed")⟩,
        ⟨.fatal, ⟨.fatal, "counted", none⟩, none⟩] := by rfl
  have asserted : ∀ d, .fatal d ∈ sampleReporting → d.isFatal = true := by
    intro d handed
    simp only [sampleReporting, List.mem_cons, reduceCtorEq, Call.fatal.injEq, List.not_mem_nil,
      false_or, or_false] at handed
    rcases handed with rfl | rfl <;> rfl
  obtain ⟨list, views⟩ := collected _ pickySink_collects
  rw [heard] at results warnings list
  refine ⟨pickySink_collects, asserted, results, warnings, tried, ?_, list, ?_⟩
  · rw [fatals, results]
    rfl
  · exact (views asserted).2.trans (Nat.zero_add _)

end Results

end SchemaDefaults
