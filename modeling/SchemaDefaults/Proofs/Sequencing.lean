/-!
Steps that may fail, one behind the other. A fold over a list that succeeds in one order succeeds
in any other, with the same result, if any two of its steps can change places.
-/

namespace SchemaDefaults

section Binding

variable {ε α β : Type} (first : Except ε α) (next : α → Except ε β)

/-- One step after another succeeds where both do. -/
theorem bind_ok_iff (result : β) :
    (first >>= next) = .ok result ↔ ∃ value, first = .ok value ∧ next value = .ok result := by
  cases first with
  | error fault => simp [bind, Except.bind]
  | ok value => simp [bind, Except.bind]

theorem bind_error_iff (fault : ε) :
    (first >>= next) = .error fault ↔
      first = .error fault ∨ ∃ value, first = .ok value ∧ next value = .error fault := by
  cases first with
  | error other => simp [bind, Except.bind]
  | ok value => simp [bind, Except.bind]

variable (check : Except ε Unit) (rest : Except ε β)

theorem check_ok_iff (result : β) :
    (check >>= fun _ => rest) = .ok result ↔ check = .ok () ∧ rest = .ok result := by
  rw [bind_ok_iff]
  exact ⟨fun ⟨_, passed, done⟩ => ⟨passed, done⟩, fun ⟨passed, done⟩ => ⟨(), passed, done⟩⟩

theorem check_error_iff (fault : ε) :
    (check >>= fun _ => rest) = .error fault ↔
      check = .error fault ∨ check = .ok () ∧ rest = .error fault := by
  rw [bind_error_iff]
  exact or_congr_right
    ⟨fun ⟨_, passed, failed⟩ => ⟨passed, failed⟩, fun ⟨passed, failed⟩ => ⟨(), passed, failed⟩⟩

end Binding

section Folding

variable {ε σ α : Type} (step : σ → α → Except ε σ)

theorem foldlM_cons_ok_iff (state : σ) (first : α) (rest : List α) (result : σ) :
    (first :: rest).foldlM step state = .ok result ↔
      ∃ next, step state first = .ok next ∧ rest.foldlM step next = .ok result := by
  rw [List.foldlM_cons, bind_ok_iff]

theorem foldlM_append_ok_iff (front back : List α) (state result : σ) :
    (front ++ back).foldlM step state = .ok result ↔
      ∃ middle, front.foldlM step state = .ok middle ∧ back.foldlM step middle = .ok result := by
  rw [List.foldlM_append, bind_ok_iff]

variable {step} in
theorem foldlM_behind {state middle : σ} {front : List α}
    (folded : front.foldlM step state = .ok middle) (back : List α) :
    (front ++ back).foldlM step state = back.foldlM step middle := by
  rw [List.foldlM_append, folded]
  rfl

/-- Where two steps in a row succeed, they do so in the other order as well. -/
def Interchange : Prop :=
  ∀ state first second middle result, step state first = .ok middle →
    step middle second = .ok result →
    ∃ other, step state second = .ok other ∧ step other first = .ok result

variable {step}

theorem foldlM_perm (interchange : Interchange step) {before after : List α}
    (moved : before.Perm after) (state result : σ)
    (folded : before.foldlM step state = .ok result) : after.foldlM step state = .ok result := by
  induction moved generalizing state with
  | nil => exact folded
  | cons first _ ih =>
      obtain ⟨next, taken, rest⟩ := (foldlM_cons_ok_iff step state first _ result).mp folded
      exact (foldlM_cons_ok_iff step state first _ result).mpr ⟨next, taken, ih next rest⟩
  | swap second first rest =>
      obtain ⟨middle, taken, behind⟩ := (foldlM_cons_ok_iff step state _ _ result).mp folded
      obtain ⟨last, followed, rest⟩ := (foldlM_cons_ok_iff step middle _ _ result).mp behind
      obtain ⟨other, taken', followed'⟩ := interchange _ _ _ _ _ taken followed
      apply (foldlM_cons_ok_iff step state _ _ result).mpr
      exact ⟨other, taken', (foldlM_cons_ok_iff step other _ _ result).mpr ⟨last, followed', rest⟩⟩
  | trans _ _ first second => exact second state (first state folded)

end Folding

end SchemaDefaults
