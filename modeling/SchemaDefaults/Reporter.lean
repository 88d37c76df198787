import SchemaDefaults.Extraction
import SchemaDefaults.Failure
import SchemaDefaults.Journal
/-!
Sinks and the reporter before them. A sink is the host's channel for diagnostics: any machine
with a state that answers each diagnostic, accepting or refusing it, and may leave events in the
journal. Warnings and fatal diagnostics go through separate entries. The reporter counts what got
through and writes the journal. A refused warning is dropped and nothing else happens; a refused
fatal diagnostic is the caller's failure.
-/

namespace SchemaDefaults

structure Answer (σ : Type) where
  refusal : Option Failure
  state : σ
  events : List Event

structure Sink (σ : Type) where
  warning : Diagnostic → σ → Answer σ
  fatal : Diagnostic → σ → Answer σ

namespace Sink

def collecting : Sink (List Diagnostic) where
  warning d kept := ⟨none, kept ++ [d], []⟩
  fatal d kept := ⟨none, kept ++ [d], []⟩

def journalEvent (level : Level) (mark : String) (d : Diagnostic) : Event :=
  ⟨level, .console, mark ++ " " ++ d.message, d.location.map Location.text⟩

def console : Sink Unit where
  warning d _ := ⟨none, (), [journalEvent .warn "⚠️" d]⟩
  fatal d _ := ⟨none, (), [journalEvent .error "❌" d]⟩

/-- Sends each diagnostic to a second sink where the first one accepts it. -/
def andThen {σ τ : Type} (first : Sink σ) (second : Sink τ) : Sink (σ × τ) where
  warning d states := chain (first.warning d states.1) (second.warning d) states.2
  fatal d states := chain (first.fatal d states.1) (second.fatal d) states.2
where
  chain (answer : Answer σ) (next : τ → Answer τ) (state : τ) : Answer (σ × τ) :=
    match answer.refusal with
    | some refusal => ⟨some refusal, (answer.state, state), answer.events⟩
    | none =>
      let later := next state
      ⟨later.refusal, (answer.state, later.state), answer.events ++ later.events⟩

structure Counts where
  warnings : Nat
  fatals : Nat
deriving DecidableEq, Repr

/-- Refuses the warnings and the fatal diagnostics whose numbers, from zero, are picked, and
accepts all others. -/
def refusing (warnings fatals : Nat → Bool) (message : String) : Sink Counts where
  warning _ counts :=
    ⟨if warnings counts.warnings then some (.channel message) else none,
      { counts with warnings := counts.warnings + 1 }, []⟩
  fatal _ counts :=
    ⟨if fatals counts.fatals then some (.channel message) else none,
      { counts with fatals := counts.fatals + 1 }, []⟩

end Sink

structure Reporter (σ : Type) where
  sink : σ
  warnings : Nat
  fatals : Nat
  dropped : Nat
  journal : List Event

namespace Reporter

variable {σ : Type}

def start (sink : σ) : Reporter σ := ⟨sink, 0, 0, 0, []⟩

def note (r : Reporter σ) (events : List Event) : Reporter σ :=
  { r with journal := r.journal ++ events }

def droppedEvent (message : String) (refusal : Failure) : Event :=
  .plain .debug .reporter ("Dropped warning '" ++ message ++ "': " ++ refusal.message)

def warn (channel : Sink σ) (d : Diagnostic) (r : Reporter σ) : Reporter σ :=
  let answer := channel.warning d r.sink
  match answer.refusal with
  | none =>
    { r with
      sink := answer.state
      warnings := r.warnings + 1
      journal := r.journal ++ answer.events }
  | some refusal =>
    { r with
      sink := answer.state
      dropped := r.dropped + 1
      journal := r.journal ++ answer.events ++ [droppedEvent d.message refusal] }

/-- The failure, if the sink refused, and the reporter behind the call in any case. -/
def fatal (channel : Sink σ) (d : Diagnostic) (r : Reporter σ) : Option Failure × Reporter σ :=
  let answer := channel.fatal d r.sink
  let heard := { r with sink := answer.state, journal := r.journal ++ answer.events }
  match answer.refusal with
  | none => (none, { heard with fatals := r.fatals + 1 })
  | some refusal => (some refusal, heard)

end Reporter

end SchemaDefaults
