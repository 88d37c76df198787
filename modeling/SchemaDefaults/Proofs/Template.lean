import SchemaDefaults.Settings.File
/-!
Texts with holes. A text that refers to a single variable is a template: substitution fills its
holes with the value of the variable, and nothing else in it depends on the environment.
-/

namespace SchemaDefaults

/-- A text in which `none` keeps the place of a word that is yet to come. -/
abbrev Template := List (Option Char)

namespace Template

section Filling

def solid (text : List Char) : Template := text.map some

def fill (word : List Char) : Template → List Char
  | [] => []
  | some c :: rest => c :: fill word rest
  | none :: rest => word ++ fill word rest

variable (word : List Char)

theorem fill_append (front rest : Template) :
    fill word (front ++ rest) = fill word front ++ fill word rest := by
  induction front with
  | nil => rfl
  | cons letter front ih => cases letter <;> simp [fill, ih]

theorem fill_solid (text : List Char) : fill word (solid text) = text := by
  induction text with
  | nil => rfl
  | cons c text ih => exact congrArg (c :: ·) ih

theorem fill_front (text : List Char) (rest : Template) :
    fill word (solid text ++ rest) = text ++ fill word rest := by
  rw [fill_append, fill_solid]

theorem fill_closed (text : Template) (closed : none ∉ text) (first second : List Char) :
    fill first text = fill second text := by
  induction text with
  | nil => rfl
  | cons letter text ih =>
      rw [List.mem_cons, not_or] at closed
      cases letter with
      | none => exact absurd rfl closed.1
      | some c => exact congrArg (c :: ·) (ih closed.2)

end Filling

end Template

namespace Environment

open Template

/-- What substitution makes of a text, with a hole for each reference to the variable. -/
def templateFrom (name : String) (reading : Reading) : List Char → Template
  | [] => solid reading.pending
  | c :: rest =>
    let (written, next) := empty.step reading c
    if completed? reading c = some name then none :: templateFrom name next rest
    else solid written ++ templateFrom name next rest

def template (name text : String) : Template := templateFrom name .outside text.toList

section Substitution

variable (environment : Environment) (name value : String)

/-- Only the end of a name asks for the environment, and only for what is written there. -/
theorem step_uncompleted (reading : Reading) (c : Char) (unfinished : completed? reading c = none) :
    environment.step reading c = empty.step reading c := by
  cases reading with
  | outside | dollar => rfl
  | name letters =>
      unfold step
      by_cases close : c = '\x7d'
      · cases letters with
        | nil => rfl
        | cons letter letters => simp [completed?, close] at unfinished
      · simp only [if_neg close]

theorem step_completed (reading : Reading) (c : Char)
    (completed : completed? reading c = some name) (given : environment name = some value) :
    environment.step reading c = (value.toList, (empty.step reading c).2) := by
  unfold completed? at completed
  split at completed
  · split at completed
    next letters close =>
      cases completed
      simp only [step, close, ↓reduceIte, replacement, List.isEmpty_cons, Bool.false_eq_true, given]
    next => cases completed
  · cases completed

theorem fill_templateFrom (given : environment name = some value) (reading : Reading)
    (text : List Char) (only : ∀ other ∈ referencesFrom reading text, other = name) :
    fill value.toList (templateFrom name reading text) =
      environment.substituteFrom reading text := by
  -- What is read next does not depend on the environment, so both texts are read in step.
  induction text generalizing reading with
  | nil => exact fill_solid _ _
  | cons c rest ih =>
      have later := ih (empty.step reading c).2 fun other member =>
        only other (List.mem_append_right _ member)
      cases completed : completed? reading c with
      | none =>
          have same := environment.step_uncompleted reading c completed
          simp only [templateFrom, substituteFrom, completed, same, reduceCtorEq, ↓reduceIte,
            fill_front, later]
      | some other =>
          have here : other = name := by
            apply only
            simp [referencesFrom, completed]
          subst here
          have written := environment.step_completed other value reading c completed given
          simp only [templateFrom, substituteFrom, completed, written, ↓reduceIte, fill, later]

/-- A text with references to the one variable only. -/
theorem substitute_template (given : environment name = some value) (text : String)
    (only : ∀ other ∈ references text, other = name) :
    environment.substitute text = String.ofList (fill value.toList (template name text)) :=
  congrArg String.ofList
    (environment.fill_templateFrom name value given .outside text.toList only).symm

end Substitution

end Environment

end SchemaDefaults
