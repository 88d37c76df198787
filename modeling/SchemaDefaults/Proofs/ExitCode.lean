import SchemaDefaults.Proofs.CommandRun
/-!
Exit codes. A command reports success exactly when it has been asked for help or has done what it
was asked to do. A command that reports a failure has neither written anything to its output nor
touched a file, and one that reports success has touched at most the file that it was told to
write.
-/

namespace SchemaDefaults

namespace Command

section Endings

variable {environment : Environment} {tree after : FileTree} {arguments : List String}
  {code : Nat} {output : String}

theorem Ready.unique {first second : Settings} {document other : Document}
    (left : Ready environment tree arguments first document)
    (right : Ready environment tree arguments second other) :
    first = second ∧ document = other := by
  cases left.configured.unique right.configured
  exact ⟨rfl, left.model.unique right.model⟩

/-- A ready command has done its work if it was to survey the model, or if the model was accepted
and, where a path was named, written. -/
def Fulfilled (tree : FileTree) (settings : Settings) (document : Document) : Prop :=
  settings.dryRun = true ∨
    Accepted settings.options document ∧
      ∀ path, settings.output = some path →
        (tree.writeText path (modelText settings document)).fault = none

namespace Ends

theorem ready_zero_iff (settings : Settings) (document : Document)
    (ready : Ready environment tree arguments settings document)
    (ended : Ends environment tree arguments code output after) :
    code = 0 ↔ Fulfilled tree settings document := by
  unfold Fulfilled
  cases ended with
  | helped long asked => exact absurd asked (ready.configured.unasked long)
  | unready code bad unasked unready => exact absurd ready (unready settings document)
  | surveyed others other again dry =>
      obtain ⟨rfl, rfl⟩ := ready.unique again
      simp [dry]
  | rejected others other code bad again live rejected =>
      obtain ⟨rfl, rfl⟩ := ready.unique again
      simp [bad, live, rejected]
  | printed others other again live accepted silent =>
      obtain ⟨rfl, rfl⟩ := ready.unique again
      simp [accepted, silent]
  | saved others other path code again live accepted named written =>
      obtain ⟨rfl, rfl⟩ := ready.unique again
      simp [live, accepted, named, written]

theorem zero_iff (ended : Ends environment tree arguments code output after) :
    code = 0 ↔ (∃ long, Flags.ofArguments arguments = .error (.help long)) ∨
      ∃ settings document, Ready environment tree arguments settings document ∧
        Fulfilled tree settings document := by
  -- With exit code zero it is enough to know that the command was ready.
  have fulfilled (settings : Settings) (document : Document)
      (ready : Ready environment tree arguments settings document) (zero : code = 0) :=
    (ended.ready_zero_iff settings document ready).mp zero
  constructor
  · intro zero
    cases ended with
    | helped long asked => exact .inl ⟨long, asked⟩
    | unready code bad _ _ => exact absurd zero bad
    | surveyed settings document ready _ | rejected settings document _ _ ready _ _
    | printed settings document ready _ _ _ | saved settings document _ _ ready _ _ _ _ =>
        exact .inr ⟨settings, document, ready, fulfilled settings document ready zero⟩
  · rintro (⟨long, asked⟩ | ⟨settings, document, ready, done⟩)
    · cases ended with
      | helped _ _ => rfl
      | unready code _ unasked _ => exact absurd asked (unasked long)
      | surveyed _ _ ready _ | rejected _ _ _ _ ready _ _ | printed _ _ ready _ _ _
      | saved _ _ _ _ ready _ _ _ _ => exact absurd asked (ready.configured.unasked long)
    · exact (ended.ready_zero_iff settings document ready).mpr done

theorem failed (ended : Ends environment tree arguments code output after) (bad : code ≠ 0) :
    output = "" ∧ ∀ place, after.file? place = tree.file? place := by
  cases ended with
  | helped _ _ | surveyed _ _ _ _ | printed _ _ _ _ _ _ => exact absurd rfl bad
  | unready _ _ _ _ | rejected _ _ _ _ _ _ _ => exact ⟨rfl, fun _ => rfl⟩
  | saved settings document path code _ _ _ _ written =>
      refine ⟨rfl, ?_⟩
      exact tree.writeText_failed path _ fun unfaulted => bad (written.mpr unfaulted)

theorem changed (ended : Ends environment tree arguments code output after) (zero : code = 0)
    (place : Place) (differs : after.file? place ≠ tree.file? place) :
    ∃ settings path, Configured environment tree arguments settings ∧
      settings.dryRun = false ∧ settings.output = some path ∧ after.Leads path place := by
  cases ended with
  | helped _ _ | surveyed _ _ _ _ | printed _ _ _ _ _ _ => exact absurd rfl differs
  | unready _ _ _ _ | rejected _ _ _ _ _ _ _ => exact absurd rfl differs
  | saved settings document path code ready live _ named written =>
      obtain ⟨_, reached, leads, others⟩ := tree.writeText_written path _ (written.mp zero)
      by_cases same : place = reached
      · rw [same]
        exact ⟨settings, path, ready.configured, live, named, leads⟩
      · exact absurd (others place same) differs

theorem placed (settings : Settings) (document : Document)
    (ready : Ready environment tree arguments settings document)
    (ended : Ends environment tree arguments code output after)
    (live : settings.dryRun = false) (zero : code = 0) :
    match settings.output with
    | none => output = modelText settings document
    | some path => after.readText path = .ok (modelText settings document) := by
  cases ended with
  | helped long asked => exact absurd asked (ready.configured.unasked long)
  | unready code bad unasked unready => exact absurd ready (unready settings document)
  | surveyed others other again dry =>
      obtain ⟨rfl, rfl⟩ := ready.unique again
      rw [live] at dry
      cases dry
  | rejected others other code bad again live rejected => exact absurd zero bad
  | printed others other again live accepted silent =>
      obtain ⟨rfl, rfl⟩ := ready.unique again
      rw [silent]
  | saved others other path code again live accepted named written =>
      obtain ⟨rfl, rfl⟩ := ready.unique again
      rw [named]
      exact (tree.writeText_written path _ (written.mp zero)).1

end Ends

end Endings

/-- The exit code is zero if help was asked for, or if line, settings file, settings and model
are in order and the command was to survey the model or has accepted it and written it where a
path was named. With another exit code there is no output and every file is as it was. With
exit code zero, only the file where the output path leads can be new or changed, and only if the
command was not just to survey the model; the path then reads the text of the model. -/
theorem exit_code_exact (environment : Environment) (tree : FileTree)
    (arguments : List String) :
    let done := (run (FileTree.host environment) arguments).run tree
    (done.1.exitCode = 0 ↔
      (∃ long, Flags.ofArguments arguments = .error (.help long)) ∨
      ∃ flags file document, Flags.ofArguments arguments = .ok flags ∧
        SettingsRead environment tree flags file ∧ file.validate = .ok () ∧
        let settings := Settings.combined flags file
        settings.validate = .ok () ∧ ModelRead tree settings document ∧
          (settings.dryRun = true ∨
            (settings.options.enabled = true → ∀ c ∈ document.classes, ∀ f ∈ c.fields,
              f.rejection? settings.options.policy = none) ∧
            ∀ path, settings.output = some path →
              (tree.writeText path (modelText settings document)).fault = none)) ∧
    (done.1.exitCode ≠ 0 →
      done.1.output = "" ∧ ∀ place, done.2.file? place = tree.file? place) ∧
    (done.1.exitCode = 0 → ∀ place, done.2.file? place ≠ tree.file? place →
      ∃ settings path, Configured environment tree arguments settings ∧
        settings.dryRun = false ∧ settings.output = some path ∧ done.2.Leads path place) ∧
    (done.1.exitCode = 0 → ∀ settings document,
      Ready environment tree arguments settings document → settings.dryRun = false →
      ∀ path, settings.output = some path →
        done.2.readText path = .ok (modelText settings document)) := by
  have ended := run_ends environment tree arguments
  refine ⟨?_, ended.failed, ended.changed, ?_⟩
  · rw [ended.zero_iff]
    apply or_congr_right
    constructor
    · rintro ⟨settings, document, ⟨⟨flags, file, accepted, read, valid, rfl⟩, checked, model⟩, done⟩
      exact ⟨flags, file, document, accepted, read, valid, checked, model, done⟩
    · rintro ⟨flags, file, document, accepted, read, valid, checked, model, done⟩
      exact ⟨_, document, ⟨⟨flags, file, accepted, read, valid, rfl⟩, checked, model⟩, done⟩
  · intro zero settings document ready live path named
    have left := ended.placed settings document ready live zero
    rwa [named] at left

end Command

end SchemaDefaults
