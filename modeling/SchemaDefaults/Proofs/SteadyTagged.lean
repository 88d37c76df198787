import SchemaDefaults.Proofs.KeptValues
/-!
Steady tagged values. What is read from the kept parts of a tagged value does not depend on the
order of members anywhere in them: scalars have no members, a name written as a key is the only
one of its object, and a variant's own members fill slots.
-/

namespace SchemaDefaults

open Phrase (Edit)

namespace Tagged

variable {α β : Type}

/-- The reader makes nothing of the order of members. -/
def Indifferent (read : Json → Except Fault α) : Prop :=
  ∀ before after, Json.Shuffled before after → ∀ value, read before = .ok value →
    read after = .ok value

def IndifferentParts (read : Content → Except Fault α) : Prop :=
  ∀ before after : Content, before.json.Shuffled after.json → ∀ value, read before = .ok value →
    read after = .ok value

section Kept

theorem refuse_ne (value : Json) (expected : String) (result : α) :
    refuse value expected ≠ .ok result := by
  simp [refuse, throw, throwThe, MonadExceptOf.throw]

theorem string_indifferent : Indifferent string := by
  intro before after shuffled value taken
  cases shuffled <;> exact absurd taken (refuse_ne _ _ _)

theorem bool_indifferent : Indifferent bool := by
  intro before after shuffled value taken
  cases shuffled <;> exact absurd taken (refuse_ne _ _ _)

theorem optional_indifferent {read : Json → Except Fault α} (indifferent : Indifferent read) :
    Indifferent (optional read) := by
  intro before after shuffled value taken
  have present (value : Json) (compound : value ≠ .null) :
      optional read value = (read value).map some := by
    cases value with
    | null => exact absurd rfl compound
    | bool | number | string | array | object => rfl
  have there : before ≠ .null ∧ after ≠ .null := by
    cases shuffled <;> exact ⟨nofun, nofun⟩
  rw [present before there.1] at taken
  rw [present after there.2]
  cases inner : read before with
  | error fault => rw [inner] at taken; cases taken
  | ok kept =>
      rw [inner] at taken
      rw [indifferent before after shuffled kept inner]
      exact taken

theorem bind_indifferent {read : Json → Except Fault α} (indifferent : Indifferent read)
    (next : α → Except Fault β) : Indifferent fun value => read value >>= next := by
  intro before after shuffled result taken
  obtain ⟨value, first, behind⟩ := (bind_ok_iff ..).mp taken
  exact (bind_ok_iff ..).mpr ⟨value, indifferent before after shuffled value first, behind⟩

theorem choice_object (names : List String) (members : List (String × Json)) (name : String)
    (taken : choice names (.object members) = .ok name) :
    ∃ key value, members = [(key, value)] ∧ (value = .null ∨ value = .object []) := by
  match members with
  | [] => cases taken
  | _ :: _ :: _ => cases taken
  | [(key, value)] =>
      obtain ⟨_, _, behind⟩ := (bind_ok_iff ..).mp taken
      match value with
      | .null => exact ⟨key, .null, rfl, .inl rfl⟩
      | .object [] => exact ⟨key, .object [], rfl, .inr rfl⟩
      | .object (_ :: _) | .bool _ | .number _ | .string _ | .array _ =>
          exact absurd behind (refuse_ne _ _ _)

theorem choice_indifferent (names : List String) : Indifferent (choice names) := by
  intro before after shuffled name taken
  cases shuffled with
  | item => exact absurd taken (refuse_ne _ _ _)
  | reorder moved =>
      obtain ⟨key, value, rfl, _⟩ := choice_object names _ name taken
      rwa [← List.singleton_perm.mp moved]
  | member front back key inner =>
      obtain ⟨_, value, only, empty⟩ := choice_object names _ name taken
      obtain ⟨rfl, rest⟩ | ⟨_, absent⟩ := List.append_eq_singleton_iff.mp only
      · cases rest
        rcases empty with rfl | rfl
        · cases inner
        · rwa [inner.of_empty]
      · cases absent

end Kept

section Members

variable {slots : List (Slot Json)}

variable (slots) in
def takeKept (filling : Slot.Filling slots) (member : String × Json) :
    Except Fault (Slot.Filling slots) :=
  Slot.fill (fun _ => .ok ()) 0 slots filling member.1 member.2

theorem fillKept_eq (filling : Slot.Filling slots) (members : List (String × Json)) :
    fillKept slots filling members = members.foldlM (takeKept slots) filling := by
  induction members generalizing filling with
  | nil => rfl
  | cons member rest ih =>
      rw [fillKept, List.foldlM_cons, takeKept]
      simp only [ih]

theorem takeKept_interchange : Interchange (takeKept slots) := by
  intro filling first second middle result before behind
  exact Slot.fill_interchange _ 0 slots filling middle result _ _ _ _ before behind

variable (indifferent : ∀ slot ∈ slots, Indifferent (slot.read 0))
include indifferent

theorem takeKept_shuffled (name : String) (before after : Json) (shuffled : before.Shuffled after)
    (filling next : Slot.Filling slots)
    (taken : takeKept slots filling (name, before) = .ok next) :
    takeKept slots filling (name, after) = .ok next := by
  have same (slot : Slot Json) (found : slots.find? (·.name = name) = some slot)
      (value : slot.Value) (read : slot.read 0 before = .ok value) :
      slot.read 0 after = (slot.read 0 before >>= unlessRepeated none) := by
    rw [indifferent slot (List.mem_of_find?_eq_some found) before after shuffled value read, read]
    rfl
  rw [takeKept, Slot.fill_changed _ 0 none before before after slots filling next name same
    (fun _ => rfl) taken]
  exact congrArg (· >>= unlessRepeated none) taken

theorem members_indifferent (what : String) (make : Slot.Values slots → α) :
    IndifferentParts (members what slots make) := by
  intro before after shuffled value taken
  cases before with
  | members entries =>
      cases after with
      | items values => cases shuffled
      | members entries' =>
          obtain ⟨filling, filled, finished⟩ := (bind_ok_iff ..).mp taken
          rw [fillKept_eq] at filled
          refine (bind_ok_iff ..).mpr ⟨filling, ?_, finished⟩
          rw [fillKept_eq]
          cases shuffled with
          | reorder moved => exact foldlM_perm takeKept_interchange moved _ filling filled
          | member front back name inner =>
              exact foldlM_changed front back
                (takeKept_shuffled indifferent name _ _ inner) filled
  | items values =>
      cases after with
      | members entries => cases shuffled
      | items values' =>
          cases shuffled with
          | item front back inner =>
              obtain ⟨⟨read, extra⟩, first, finished⟩ := (bind_ok_iff ..).mp taken
              cases extra with
              | cons => cases finished
              | nil =>
                  refine (bind_ok_iff ..).mpr ⟨(read, []), ?_, finished⟩
                  rw [Slot.ofItems_changed 0 none _ _ _ _ _ slots 0 front back read _
                    first, first]
                  · rfl
                  · intro slot found value taken
                    rw [indifferent slot (List.mem_of_getElem? found) _ _ inner value taken, taken]
                    rfl

end Members

section Required

variable {γ : Type} {read : Json → Except Fault α} {read' : Json → Except Fault β}
  (indifferent : Indifferent read) (indifferent' : Indifferent read')

include indifferent in
theorem one_indifferent (what name : String) (make : Slot.Values [required name read] → γ) :
    IndifferentParts (members what [required name read] make) := by
  apply members_indifferent
  exact List.forall_mem_singleton.mpr indifferent

include indifferent indifferent' in
theorem two_indifferent (what name name' : String)
    (make : Slot.Values [required name read, required name' read'] → γ) :
    IndifferentParts (members what [required name read, required name' read'] make) := by
  apply members_indifferent
  exact List.forall_mem_cons.mpr ⟨indifferent, List.forall_mem_singleton.mpr indifferent'⟩

end Required

theorem nothing_indifferent (kept : α) : IndifferentParts (nothing kept) := by
  intro before after shuffled value taken
  cases before with
  | members entries =>
      cases after with
      | items values => cases shuffled
      | members entries' => exact taken
  | items values =>
      cases after with
      | members entries => cases shuffled
      | items values' =>
          have length := shuffled.length_eq
          cases values with
          | cons => cases taken
          | nil =>
              cases List.length_eq_zero_iff.mp length.symm
              exact taken

theorem ite_indifferent (chosen : Prop) [Decidable chosen] {first second : Content → Except Fault α}
    (yes : IndifferentParts first) (no : IndifferentParts second) :
    IndifferentParts fun parts => if chosen then first parts else second parts := by
  by_cases holds : chosen
  · simpa only [holds, ↓reduceIte] using yes
  · simpa only [holds, ↓reduceIte] using no

/-- A tagged value is read from its name and its parts, and edits move members of the parts. -/
theorem tagged_steady (what tag : String) (known : List String)
    (read : String → Content → Except Fault α)
    (indifferent : ∀ name, IndifferentParts (read name)) :
    Reader.Steady .value fun levels tree =>
      content what tag known levels tree >>= fun parts => read parts.1 parts.2 := by
  constructor
  · intro levels tree value taken
    obtain ⟨⟨name, parts⟩, split, _⟩ := (bind_ok_iff ..).mp taken
    exact content_whole tag known levels what name parts tree split
  · intro before after edit levels value taken
    obtain ⟨⟨name, parts⟩, split, others⟩ := (bind_ok_iff ..).mp taken
    obtain ⟨parts', split', shuffled⟩ :=
      content_edited tag known levels what name parts edit split
    apply (bind_ok_iff ..).mpr
    exact ⟨(name, parts'), split', indifferent name parts parts' shuffled value others⟩
  · intro name before replaced after twice
    exact absurd rfl twice.not_value

end Tagged

end SchemaDefaults
