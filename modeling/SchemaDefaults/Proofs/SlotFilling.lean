import SchemaDefaults.Json.Record
import SchemaDefaults.Proofs.Sequencing
/-!
Filling slots. Each slot is filled by the members of its own name and by no others, so members of
different names can change places. A member of no slot's name changes nothing, and a second
member of one name is refused whatever its value is.
-/

namespace SchemaDefaults

section Outcomes

variable {α β : Type}

/-- The value that has been read, unless a member that is there twice is named. -/
def unlessRepeated (repeated? : Option String) (value : α) : Except Fault α :=
  match repeated? with
  | none => .ok value
  | some name => .error (.mismatch (.duplicate name))

/-- The fault may be told of behind any step that does not fail. -/
theorem unlessRepeated_bind (repeated? : Option String) (read : Except Fault α)
    (next : α → Except Fault β)
    (passes : ∀ value, read = .ok value → ∃ result, next value = .ok result) :
    ((read >>= unlessRepeated repeated?) >>= next) =
      ((read >>= next) >>= unlessRepeated repeated?) := by
  cases read with
  | error fault => rfl
  | ok value =>
      obtain ⟨result, passed⟩ := passes value rfl
      show (unlessRepeated repeated? value >>= next) = (next value >>= unlessRepeated repeated?)
      rw [passed]
      cases repeated? with
      | none => exact passed
      | some name => rfl

theorem foldlM_changed {step : β → α → Except Fault β} (front back : List α) {before after : α}
    (changed : ∀ state next, step state before = .ok next → step state after = .ok next)
    {state result : β} (folded : (front ++ before :: back).foldlM step state = .ok result) :
    (front ++ after :: back).foldlM step state = .ok result := by
  obtain ⟨middle, ahead, behind⟩ := (foldlM_append_ok_iff ..).mp folded
  obtain ⟨next, taken, rest⟩ := (foldlM_cons_ok_iff ..).mp behind
  rw [foldlM_behind ahead, List.foldlM_cons, changed middle next taken]
  exact rest

end Outcomes

namespace Slot

variable {σ : Type} (pass : σ → Except Fault Unit) (levels : Nat)

def names (slots : List (Slot σ)) : List String := slots.map name

section Steps

theorem fill_end_iff (filling next : Filling ([] : List (Slot σ))) (name : String) (source : σ) :
    fill pass levels [] filling name source = .ok next ↔ pass source = .ok () := by
  cases passed : pass source with
  | error fault => simp [fill, passed, bind, Except.bind]
  | ok _ =>
      simp only [fill, passed, bind, Except.bind]
      exact ⟨fun _ => trivial, fun _ => rfl⟩

variable (slot : Slot σ) (rest : List (Slot σ))

theorem fill_own_iff (value : Option slot.Value) (others : Filling rest) (source : σ)
    (next : Filling (slot :: rest)) :
    fill pass levels (slot :: rest) (value, others) slot.name source = .ok next ↔
      value = none ∧ ∃ read, slot.read levels source = .ok read ∧ next = (some read, others) := by
  cases value with
  | some kept => simp [fill, throw, throwThe, MonadExceptOf.throw]
  | none =>
      cases read : slot.read levels source with
      | error fault => simp [fill, read, bind, Except.bind]
      | ok kept =>
          simp only [fill, ↓reduceIte, read, bind, Except.bind, true_and, Except.ok.injEq,
            exists_eq_left']
          exact ⟨fun same => (Except.ok.inj same).symm, fun same => congrArg Except.ok same.symm⟩

theorem fill_other_iff (value : Option slot.Value) (others : Filling rest) {name : String}
    (differs : slot.name ≠ name) (source : σ) (next : Filling (slot :: rest)) :
    fill pass levels (slot :: rest) (value, others) name source = .ok next ↔
      ∃ later, fill pass levels rest others name source = .ok later ∧ next = (value, later) := by
  cases filled : fill pass levels rest others name source with
  | error fault => simp [fill, differs, filled, bind, Except.bind]
  | ok later =>
      simp only [fill, differs, ↓reduceIte, filled, bind, Except.bind, Except.ok.injEq,
        exists_eq_left']
      exact ⟨fun same => (Except.ok.inj same).symm, fun same => congrArg Except.ok same.symm⟩

end Steps

/-- Members of two names are taken in either order; two of one name are not taken at all. -/
theorem fill_interchange (slots : List (Slot σ)) (filling middle result : Filling slots)
    (name name' : String) (source source' : σ)
    (first : fill pass levels slots filling name source = .ok middle)
    (second : fill pass levels slots middle name' source' = .ok result) :
    ∃ other, fill pass levels slots filling name' source' = .ok other ∧
      fill pass levels slots other name source = .ok result := by
  induction slots with
  | nil =>
      have passed := (fill_end_iff pass levels filling middle name source).mp first
      have passed' := (fill_end_iff pass levels middle result name' source').mp second
      exact ⟨(), (fill_end_iff ..).mpr passed', (fill_end_iff ..).mpr passed⟩
  | cons slot rest ih =>
      obtain ⟨value, others⟩ := filling
      by_cases own : slot.name = name
      · subst own
        obtain ⟨rfl, read, taken, rfl⟩ := (fill_own_iff ..).mp first
        by_cases own' : slot.name = name'
        · subst own'
          obtain ⟨absent, _⟩ := (fill_own_iff ..).mp second
          cases absent
        · obtain ⟨later, passed, rfl⟩ := (fill_other_iff _ _ _ _ _ _ own' _ _).mp second
          refine ⟨(none, later), ?_, ?_⟩
          · exact (fill_other_iff _ _ _ _ _ _ own' _ _).mpr ⟨later, passed, rfl⟩
          · exact (fill_own_iff ..).mpr ⟨rfl, read, taken, rfl⟩
      · obtain ⟨later, passed, rfl⟩ := (fill_other_iff _ _ _ _ _ _ own _ _).mp first
        by_cases own' : slot.name = name'
        · subst own'
          obtain ⟨rfl, read, taken, rfl⟩ := (fill_own_iff ..).mp second
          refine ⟨(some read, others), ?_, ?_⟩
          · exact (fill_own_iff ..).mpr ⟨rfl, read, taken, rfl⟩
          · exact (fill_other_iff _ _ _ _ _ _ own _ _).mpr ⟨later, passed, rfl⟩
        · obtain ⟨last, passed', rfl⟩ := (fill_other_iff _ _ _ _ _ _ own' _ _).mp second
          obtain ⟨other, taken, taken'⟩ := ih others later last passed passed'
          refine ⟨(value, other), ?_, ?_⟩
          · exact (fill_other_iff _ _ _ _ _ _ own' _ _).mpr ⟨other, taken, rfl⟩
          · exact (fill_other_iff _ _ _ _ _ _ own _ _).mpr ⟨last, taken', rfl⟩

section Names

theorem fill_unlisted (slots : List (Slot σ)) (filling : Filling slots) (name : String)
    (unlisted : name ∉ names slots) (source : σ) (passed : pass source = .ok ()) :
    fill pass levels slots filling name source = .ok filling := by
  induction slots with
  | nil => exact (fill_end_iff ..).mpr passed
  | cons slot rest ih =>
      obtain ⟨value, others⟩ := filling
      have differs : slot.name ≠ name := fun same => unlisted (same ▸ List.mem_cons_self)
      have later := ih others fun listed => unlisted (List.mem_cons_of_mem _ listed)
      exact (fill_other_iff _ _ _ _ _ _ differs _ _).mpr ⟨others, later, rfl⟩

def Taken : (slots : List (Slot σ)) → Filling slots → String → Prop
  | [], _, _ => False
  | slot :: rest, (value, others), name =>
    if slot.name = name then value.isSome = true else Taken rest others name

theorem fill_taken (slots : List (Slot σ)) (filling next : Filling slots) (name : String)
    (listed : name ∈ names slots) (source : σ)
    (filled : fill pass levels slots filling name source = .ok next) : Taken slots next name := by
  induction slots with
  | nil => cases listed
  | cons slot rest ih =>
      obtain ⟨value, others⟩ := filling
      by_cases own : slot.name = name
      · subst own
        obtain ⟨rfl, read, taken, rfl⟩ := (fill_own_iff ..).mp filled
        simp [Taken]
      · obtain ⟨later, passed, rfl⟩ := (fill_other_iff _ _ _ _ _ _ own _ _).mp filled
        have behind : name ∈ names rest := by
          rcases List.mem_cons.mp listed with same | inside
          · exact absurd same.symm own
          · exact inside
        simpa only [Taken, own, ↓reduceIte] using ih others later behind passed

theorem fill_keeps (slots : List (Slot σ)) (filling next : Filling slots) (name other : String)
    (taken : Taken slots filling name) (source : σ)
    (filled : fill pass levels slots filling other source = .ok next) :
    Taken slots next name := by
  induction slots with
  | nil => exact taken
  | cons slot rest ih =>
      obtain ⟨value, others⟩ := filling
      by_cases own : slot.name = other
      · subst own
        obtain ⟨rfl, read, _, rfl⟩ := (fill_own_iff ..).mp filled
        by_cases same : slot.name = name
        · simp [Taken, same]
        · simpa only [Taken, same, ↓reduceIte] using taken
      · obtain ⟨later, passed, rfl⟩ := (fill_other_iff _ _ _ _ _ _ own _ _).mp filled
        by_cases same : slot.name = name
        · simpa only [Taken, same, ↓reduceIte] using taken
        · simp only [Taken, same, ↓reduceIte] at taken ⊢
          exact ih others later taken passed

theorem fill_repeated (slots : List (Slot σ)) (filling : Filling slots) (name : String)
    (taken : Taken slots filling name) (source : σ) :
    fill pass levels slots filling name source = .error (.mismatch (.duplicate name)) := by
  induction slots with
  | nil => exact taken.elim
  | cons slot rest ih =>
      obtain ⟨value, others⟩ := filling
      by_cases own : slot.name = name
      · simp only [Taken, own, ↓reduceIte] at taken
        obtain ⟨kept, rfl⟩ := Option.isSome_iff_exists.mp taken
        simp [fill, own, throw, throwThe, MonadExceptOf.throw]
      · simp only [Taken, own, ↓reduceIte] at taken
        simp only [fill, own, ↓reduceIte, ih others taken, bind, Except.bind]
        rfl

end Names

section Changes

variable (repeated? : Option String) (before replaced after : σ)

theorem fill_changed (slots : List (Slot σ)) (filling next : Filling slots) (name : String)
    (listed : ∀ slot, slots.find? (·.name = name) = some slot →
      ∀ value, slot.read levels before = .ok value →
      slot.read levels after = (slot.read levels replaced >>= unlessRepeated repeated?))
    (unlisted : name ∉ names slots → pass after = (pass replaced >>= unlessRepeated repeated?))
    (filled : fill pass levels slots filling name before = .ok next) :
    fill pass levels slots filling name after =
      (fill pass levels slots filling name replaced >>= unlessRepeated repeated?) := by
  induction slots with
  | nil =>
      show (pass after >>= fun _ => .ok filling) = _
      rw [unlisted nofun]
      exact unlessRepeated_bind repeated? (pass replaced) _ fun _ _ => ⟨filling, rfl⟩
  | cons slot rest ih =>
      obtain ⟨value, others⟩ := filling
      by_cases own : slot.name = name
      · subst own
        obtain ⟨rfl, read, taken, -⟩ := (fill_own_iff ..).mp filled
        simp only [fill, ↓reduceIte, listed slot (by simp) read taken]
        exact unlessRepeated_bind repeated? (slot.read levels replaced) _ fun _ _ => ⟨_, rfl⟩
      · obtain ⟨later, passed, -⟩ := (fill_other_iff _ _ _ _ _ _ own _ _).mp filled
        have changed := ih others later
          (fun slot found => listed slot (by simpa [own] using found))
          (fun absent => unlisted fun inside => by
            rcases List.mem_cons.mp inside with same | behind
            · exact own same.symm
            · exact absent behind)
          passed
        simp only [fill, own, ↓reduceIte, changed]
        exact unlessRepeated_bind repeated? (fill pass levels rest others name replaced) _
          fun _ _ => ⟨_, rfl⟩

variable (checkEnd : Except Fault Unit) (tooShort : Nat → Fault)

theorem ofItems_extra (slots : List (Slot σ)) (index : Nat) (items : List σ)
    (read : Values slots × List σ)
    (taken : ofItems levels checkEnd tooShort index slots items = .ok read) :
    read.2 = items.drop slots.length := by
  induction slots generalizing index items with
  | nil =>
      cases taken
      rfl
  | cons slot rest ih =>
      cases items with
      | nil =>
          obtain ⟨_, _, behind⟩ := (bind_ok_iff ..).mp taken
          cases absent : slot.absent with
          | none => simp [absent, throw, throwThe, MonadExceptOf.throw] at behind
          | some value =>
              rw [absent] at behind
              obtain ⟨later, others, same⟩ := (bind_ok_iff ..).mp behind
              cases same
              simpa using ih _ [] later others
      | cons item items =>
          obtain ⟨_, _, behind⟩ := (bind_ok_iff ..).mp taken
          obtain ⟨later, others, same⟩ := (bind_ok_iff ..).mp behind
          cases same
          exact ih _ items later others

theorem ofItems_changed (slots : List (Slot σ)) (index : Nat) (front back : List σ)
    (values : Values slots)
    (changed : ∀ slot, slots[front.length]? = some slot → ∀ value,
      slot.read levels before = .ok value →
      slot.read levels after = (slot.read levels replaced >>= unlessRepeated repeated?))
    (read : ofItems levels checkEnd tooShort index slots (front ++ before :: back) =
      .ok (values, [])) :
    ofItems levels checkEnd tooShort index slots (front ++ after :: back) =
      (ofItems levels checkEnd tooShort index slots (front ++ replaced :: back) >>=
        unlessRepeated repeated?) := by
  induction slots generalizing index front with
  | nil =>
      -- No slot is left for the source, so it would be among the items left over.
      have extra := congrArg Prod.snd (Except.ok.inj read)
      simp at extra
  | cons slot rest ih =>
      cases front with
      | nil =>
          simp only [List.nil_append, ofItems] at read ⊢
          obtain ⟨value, first, behind⟩ := (bind_ok_iff ..).mp read
          obtain ⟨later, others, -⟩ := (bind_ok_iff ..).mp behind
          rw [changed slot rfl value first]
          apply unlessRepeated_bind repeated? (slot.read levels replaced)
          intro value' _
          exact ⟨((value', later.1), later.2), (bind_ok_iff ..).mpr ⟨later, others, rfl⟩⟩
      | cons item front =>
          simp only [List.cons_append, ofItems] at read ⊢
          obtain ⟨value, first, behind⟩ := (bind_ok_iff ..).mp read
          obtain ⟨⟨others, extra⟩, later, same⟩ := (bind_ok_iff ..).mp behind
          cases same
          rw [first]
          show (ofItems levels checkEnd tooShort (index + 1) rest (front ++ after :: back) >>=
            fun read => .ok ((value, read.1), read.2)) = _
          rw [ih (index + 1) front others changed later]
          exact unlessRepeated_bind repeated? _ _ fun _ _ => ⟨_, rfl⟩

end Changes

section Alike

/-- The same slots are filled, be it with other values. -/
def Alike : (slots : List (Slot σ)) → Filling slots → Filling slots → Prop
  | [], _, _ => True
  | _ :: rest, (value, others), (value', others') =>
    value.isSome = value'.isSome ∧ Alike rest others others'

theorem alike_refl (slots : List (Slot σ)) (filling : Filling slots) :
    Alike slots filling filling := by
  induction slots with
  | nil => trivial
  | cons slot rest ih => exact ⟨rfl, ih filling.2⟩

theorem finish_alike (slots : List (Slot σ)) (filling filling' : Filling slots)
    (alike : Alike slots filling filling') (values : Values slots)
    (finished : finish slots filling = .ok values) :
    ∃ values', finish slots filling' = .ok values' := by
  induction slots with
  | nil => exact ⟨(), rfl⟩
  | cons slot rest ih =>
      obtain ⟨value, others⟩ := filling
      obtain ⟨value', others'⟩ := filling'
      obtain ⟨same, alike⟩ := alike
      have found (kept : slot.Value) (given : (value <|> slot.absent) = some kept) :
          ∃ kept', (value' <|> slot.absent) = some kept' := by
        cases value with
        | none => exact ⟨kept, by cases value' <;> simp_all⟩
        | some _ => cases value' <;> simp_all
      cases given : (value <|> slot.absent) with
      | none => simp [finish, given, throw, throwThe, MonadExceptOf.throw] at finished
      | some kept =>
          simp only [finish, given] at finished
          obtain ⟨later, behind, -⟩ := (bind_ok_iff ..).mp finished
          obtain ⟨later', behind'⟩ := ih others others' alike later behind
          obtain ⟨kept', given'⟩ := found kept given
          exact ⟨(kept', later'), by simp only [finish, given', behind']; rfl⟩

variable (old new : σ) (name : String)

theorem fill_alike (slots : List (Slot σ)) (filling next next' : Filling slots)
    (filled : fill pass levels slots filling name old = .ok next)
    (filled' : fill pass levels slots filling name new = .ok next') : Alike slots next next' := by
  induction slots with
  | nil => trivial
  | cons slot rest ih =>
      obtain ⟨value, others⟩ := filling
      by_cases own : slot.name = name
      · subst own
        obtain ⟨rfl, _, _, rfl⟩ := (fill_own_iff ..).mp filled
        obtain ⟨_, _, _, rfl⟩ := (fill_own_iff ..).mp filled'
        exact ⟨rfl, alike_refl rest others⟩
      · obtain ⟨later, passed, rfl⟩ := (fill_other_iff _ _ _ _ _ _ own _ _).mp filled
        obtain ⟨later', passed', rfl⟩ := (fill_other_iff _ _ _ _ _ _ own _ _).mp filled'
        exact ⟨rfl, ih others later later' passed passed'⟩

/-- Where both fillings have room for the old source, they refuse a new one alike. -/
theorem fill_refused (slots : List (Slot σ)) (filling filling' next next' : Filling slots)
    (filled : fill pass levels slots filling name old = .ok next)
    (filled' : fill pass levels slots filling' name old = .ok next') (fault : Fault)
    (refused : fill pass levels slots filling name new = .error fault) :
    fill pass levels slots filling' name new = .error fault := by
  induction slots with
  | nil => exact refused
  | cons slot rest ih =>
      obtain ⟨value, others⟩ := filling
      obtain ⟨value', others'⟩ := filling'
      by_cases own : slot.name = name
      · subst own
        obtain ⟨rfl, -⟩ := (fill_own_iff ..).mp filled
        obtain ⟨rfl, -⟩ := (fill_own_iff ..).mp filled'
        simp only [fill, ↓reduceIte] at refused ⊢
        cases read : slot.read levels new with
        | error found =>
            rw [read] at refused
            exact refused
        | ok kept =>
            rw [read] at refused
            cases refused
      · obtain ⟨later, passed, -⟩ := (fill_other_iff _ _ _ _ _ _ own _ _).mp filled
        obtain ⟨later', passed', -⟩ := (fill_other_iff _ _ _ _ _ _ own _ _).mp filled'
        simp only [fill, own, ↓reduceIte] at refused ⊢
        cases met : fill pass levels rest others name new with
        | error found =>
            rw [met] at refused
            cases refused
            rw [ih others others' later later' passed passed' met]
            rfl
        | ok kept =>
            rw [met] at refused
            cases refused

end Alike

end Slot

end SchemaDefaults
