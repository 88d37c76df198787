import SchemaDefaults.Proofs.SteadyReaders
/-!
Steady records. The members of an object are taken in one behind the other, and two of them can
change places since each fills a slot of its own. A member that no slot has is passed over, and
the second one of a slot is refused before its value is looked at.
-/

namespace SchemaDefaults

open Phrase (Edit Member Repeat)
open SchemaDefaults.Tree (Whole)

/-- The slots of a structure, each with a steady reader of what the part takes its member for. -/
inductive Slot.Fits : List (String × Part) → List (Slot Tree) → Prop where
  | nil : Fits [] []
  | cons (slot : Slot Tree) {part : Part} (steady : Reader.Steady part slot.read)
      {members : List (String × Part)} {slots : List (Slot Tree)} (rest : Fits members slots) :
      Fits ((slot.name, part) :: members) (slot :: slots)

namespace Slot.Fits

variable {members : List (String × Part)} {slots : List (Slot Tree)}

theorem required {α : Type} (name : String) {read : Reader α} {part : Part}
    (steady : Reader.Steady part read) (rest : Fits members slots) :
    Fits ((name, part) :: members) (Reader.required name read :: slots) :=
  .cons (Reader.required name read) steady rest

theorem defaulted {α : Type} (name : String) {read : Reader α} {part : Part} (absent : α)
    (steady : Reader.Steady part read) (rest : Fits members slots) :
    Fits ((name, part) :: members) (Reader.defaulted name read absent :: slots) :=
  .cons (Reader.defaulted name read absent) steady rest

theorem names_eq (fits : Fits members slots) : members.map Prod.fst = Slot.names slots := by
  induction fits with
  | nil => rfl
  | cons slot _ _ ih => rw [List.map_cons, ih, Slot.names, Slot.names, List.map_cons]

theorem find (fits : Fits members slots) (name : String) (slot : Slot Tree)
    (found : slots.find? (·.name = name) = some slot) :
    ∃ member, members.find? (·.1 = name) = some member ∧ Reader.Steady member.2 slot.read := by
  induction fits with
  | nil => cases found
  | cons first steady _ ih =>
      by_cases own : first.name = name
      · rw [List.find?_cons_of_pos (by simpa using own)] at found
        cases found
        exact ⟨_, List.find?_cons_of_pos (by simpa using own), steady⟩
      · rw [List.find?_cons_of_neg (by simpa using own)] at found
        obtain ⟨member, same, fitting⟩ := ih found
        exact ⟨member, by rw [List.find?_cons_of_neg (by simpa using own), same], fitting⟩

theorem get (fits : Fits members slots) (index : Nat) (slot : Slot Tree)
    (found : slots[index]? = some slot) :
    ∃ member, members[index]? = some member ∧ Reader.Steady member.2 slot.read := by
  induction fits generalizing index with
  | nil => cases found
  | cons first steady _ ih =>
      cases index with
      | zero =>
          cases found
          exact ⟨_, rfl, steady⟩
      | succ index => exact ih index found

theorem mem (fits : Fits members slots) (slot : Slot Tree) (inside : slot ∈ slots) :
    ∃ part, Reader.Steady part slot.read := by
  obtain ⟨index, found⟩ := List.mem_iff_getElem?.mp inside
  obtain ⟨member, _, steady⟩ := fits.get index slot found
  exact ⟨member.2, steady⟩

end Slot.Fits

namespace Reader

variable {α : Type} {part : Part} {slots : List (Slot Tree)} (levels : Nat)

section Members

variable (slots) in
def take (filling : Slot.Filling slots) (member : Key × Tree) :
    Except Fault (Slot.Filling slots) := do
  let name ← member.1.kept
  Slot.fill Tree.pass levels slots filling name member.2

theorem fillMembers_eq (filling : Slot.Filling slots) (members : List (Key × Tree)) :
    fillMembers slots levels filling members = members.foldlM (take slots levels) filling := by
  induction members generalizing filling with
  | nil => rfl
  | cons member rest ih =>
      rw [fillMembers, List.foldlM_cons, take, bind_assoc]
      simp only [ih]

theorem take_ok_iff (filling next : Slot.Filling slots) (member : Key × Tree) :
    take slots levels filling member = .ok next ↔ ∃ name, member.1.kept = .ok name ∧
      Slot.fill Tree.pass levels slots filling name member.2 = .ok next := by
  rw [take, bind_ok_iff]

theorem take_named (filling : Slot.Filling slots) (key : Key) (name : String)
    (named : key.kept = .ok name) (tree : Tree) :
    take slots levels filling (key, tree) =
      Slot.fill Tree.pass levels slots filling name tree := by
  rw [take, named]
  rfl

theorem take_interchange : Interchange (take slots levels) := by
  intro filling first second middle result before behind
  obtain ⟨name, named, filled⟩ := (take_ok_iff levels filling middle first).mp before
  obtain ⟨name', named', filled'⟩ := (take_ok_iff levels middle result second).mp behind
  obtain ⟨other, swapped, swapped'⟩ :=
    Slot.fill_interchange Tree.pass levels slots filling middle result name name' _ _ filled filled'
  exact ⟨other, (take_ok_iff ..).mpr ⟨name', named', swapped⟩,
    (take_ok_iff ..).mpr ⟨name, named, swapped'⟩⟩

theorem take_alike (key : Key) (old new : Tree) (filling next next' : Slot.Filling slots)
    (taken : take slots levels filling (key, old) = .ok next)
    (taken' : take slots levels filling (key, new) = .ok next') : Slot.Alike slots next next' := by
  obtain ⟨name, named, filled⟩ := (take_ok_iff ..).mp taken
  obtain ⟨name', named', filled'⟩ := (take_ok_iff ..).mp taken'
  cases named.symm.trans named'
  exact Slot.fill_alike Tree.pass levels old new name slots filling next next' filled filled'

theorem take_refused (key : Key) (old new : Tree) {filling filling' next next' : Slot.Filling slots}
    (taken : take slots levels filling (key, old) = .ok next)
    (taken' : take slots levels filling' (key, old) = .ok next') {fault : Fault}
    (refused : take slots levels filling (key, new) = .error fault) :
    take slots levels filling' (key, new) = .error fault := by
  obtain ⟨name, named, filled⟩ := (take_ok_iff ..).mp taken
  obtain ⟨name', named', filled'⟩ := (take_ok_iff ..).mp taken'
  cases named.symm.trans named'
  rw [take_named levels filling key name named] at refused
  rw [take_named levels filling' key name named]
  exact Slot.fill_refused Tree.pass levels old new name slots filling filling' next next' filled
    filled' fault refused

/-- A slot that has been filled stays so. -/
theorem fold_keeps (name : String) (members : List (Key × Tree))
    (filling result : Slot.Filling slots) (taken : Slot.Taken slots filling name)
    (folded : members.foldlM (take slots levels) filling = .ok result) :
    Slot.Taken slots result name := by
  induction members generalizing filling with
  | nil =>
      cases folded
      exact taken
  | cons first rest ih =>
      obtain ⟨next, step, others⟩ := (foldlM_cons_ok_iff ..).mp folded
      obtain ⟨other, _, filled⟩ := (take_ok_iff levels filling next first).mp step
      exact ih next (Slot.fill_keeps _ _ _ _ _ _ _ taken _ filled) others

theorem fold_taken (name : String) (listed : name ∈ Slot.names slots)
    (members : List (Key × Tree)) (member : Key × Tree) (inside : member ∈ members)
    (named : member.1.kept = .ok name) (filling result : Slot.Filling slots)
    (folded : members.foldlM (take slots levels) filling = .ok result) :
    Slot.Taken slots result name := by
  induction members generalizing filling with
  | nil => cases inside
  | cons first rest ih =>
      obtain ⟨next, step, others⟩ := (foldlM_cons_ok_iff ..).mp folded
      rcases List.mem_cons.mp inside with rfl | behind
      · obtain ⟨other, same, filled⟩ := (take_ok_iff levels filling next member).mp step
        cases named.symm.trans same
        have taken := Slot.fill_taken _ _ _ _ _ _ listed _ filled
        exact fold_keeps levels name rest next result taken others
      · exact ih behind next others

end Members

section Wholeness

variable (fitting : ∀ slot ∈ slots, ∃ part, Steady part slot.read)
include fitting

theorem fill_whole (filling next : Slot.Filling slots) (name : String) (tree : Tree)
    (filled : Slot.fill Tree.pass levels slots filling name tree = .ok next) : Whole tree := by
  induction slots with
  | nil => exact (Slot.fill_end_iff ..).mp filled
  | cons slot rest ih =>
      obtain ⟨value, others⟩ := filling
      by_cases own : slot.name = name
      · subst own
        obtain ⟨-, read, taken, -⟩ := (Slot.fill_own_iff ..).mp filled
        obtain ⟨part, steady⟩ := fitting slot List.mem_cons_self
        exact steady.whole levels tree read taken
      · obtain ⟨later, passed, -⟩ := (Slot.fill_other_iff _ _ _ _ _ _ own _ _).mp filled
        exact ih (fun slot inside => fitting slot (List.mem_cons_of_mem _ inside)) others later
          passed

theorem members_whole (members : List (Key × Tree)) (filling result : Slot.Filling slots)
    (folded : members.foldlM (take slots levels) filling = .ok result) :
    ∀ member ∈ members, member.1.passed = .ok () ∧ Whole member.2 := by
  induction members generalizing filling with
  | nil => exact List.forall_mem_nil _
  | cons first rest ih =>
      obtain ⟨next, step, others⟩ := (foldlM_cons_ok_iff ..).mp folded
      obtain ⟨name, named, filled⟩ := (take_ok_iff levels filling next first).mp step
      have whole := fill_whole levels fitting filling next name first.2 filled
      exact List.forall_mem_cons.mpr ⟨⟨passed_of_kept first.1 name named, whole⟩, ih next others⟩

theorem ofItems_whole (checkEnd : Except Fault Unit) (tooShort : Nat → Fault) (index : Nat)
    (trees : List Tree) (values : Slot.Values slots)
    (read : Slot.ofItems levels checkEnd tooShort index slots trees = .ok (values, [])) :
    ∀ tree ∈ trees, Whole tree := by
  induction slots generalizing index trees with
  | nil =>
      cases read
      exact List.forall_mem_nil _
  | cons slot rest ih =>
      cases trees with
      | nil => exact List.forall_mem_nil _
      | cons tree trees =>
          obtain ⟨value, first, behind⟩ := (bind_ok_iff ..).mp read
          obtain ⟨⟨others, extra⟩, later, same⟩ := (bind_ok_iff ..).mp behind
          cases same
          obtain ⟨part, steady⟩ := fitting slot List.mem_cons_self
          refine List.forall_mem_cons.mpr ⟨steady.whole levels tree value first, ?_⟩
          exact ih (fun slot inside => fitting slot (List.mem_cons_of_mem _ inside)) _ trees others
            later

end Wholeness

section Records

variable (slots) (what : String) (make : Slot.Values slots → α)

def tooShort (index : Nat) : Fault :=
  .mismatch (.wrongLength index (what ++ " with " ++ elementCount slots.length))

def conclude (filling : Slot.Filling slots) : Except Fault α := do
  let values ← Slot.finish slots filling
  return make values

def concludeItems (read : Slot.Values slots × List Tree) : Except Fault α :=
  if read.2.isEmpty then .ok (make read.1) else .error .malformed

variable {levels} {inner : Nat} (entered : Tree.enter levels = .ok inner)
include entered

theorem record_object (members : List (Key × Tree)) :
    record what slots make levels (.object members none) =
      (members.foldlM (take slots inner) (Slot.unfilled slots) >>= conclude slots make) := by
  show (Tree.enter levels >>= fun inner =>
    fillMembers slots inner (Slot.unfilled slots) members >>= conclude slots make) = _
  rw [entered]
  show (fillMembers slots inner (Slot.unfilled slots) members >>= conclude slots make) = _
  rw [fillMembers_eq]

theorem record_array (trees : List Tree) :
    record what slots make levels (.array trees none) =
      (Slot.ofItems inner (.ok ()) (tooShort slots what) 0 slots trees >>=
        concludeItems slots make) := by
  show (Tree.enter levels >>= fun inner =>
    Slot.ofItems inner (.ok ()) (tooShort slots what) 0 slots trees >>=
      concludeItems slots make) = _
  rw [entered]
  rfl

omit entered in
theorem record_ok_cases (levels : Nat) (tree : Tree) (value : α)
    (taken : record what slots make levels tree = .ok value) :
    ∃ inner, Tree.enter levels = .ok inner ∧
      ((∃ members filling, tree = .object members none ∧
        members.foldlM (take slots inner) (Slot.unfilled slots) = .ok filling ∧
        conclude slots make filling = .ok value) ∨
      (∃ trees values, tree = .array trees none ∧
        Slot.ofItems inner (.ok ()) (tooShort slots what) 0 slots trees = .ok (values, []) ∧
        make values = value)) := by
  cases tree with
  | object members ending =>
      obtain ⟨inner, entered, behind⟩ := (bind_ok_iff ..).mp taken
      obtain ⟨filling, filled, behind⟩ := (bind_ok_iff ..).mp behind
      obtain ⟨_, closed, finished⟩ := (bind_ok_iff ..).mp behind
      cases (Tree.checkEnding_iff ending).mp closed
      rw [fillMembers_eq] at filled
      exact ⟨inner, entered, .inl ⟨members, filling, rfl, filled, finished⟩⟩
  | array trees ending =>
      obtain ⟨inner, entered, behind⟩ := (bind_ok_iff ..).mp taken
      obtain ⟨⟨values, extra⟩, read, behind⟩ := (bind_ok_iff ..).mp behind
      cases extra with
      | nil =>
          obtain ⟨_, closed, same⟩ := (bind_ok_iff ..).mp behind
          cases (Tree.checkEnding_iff ending).mp closed
          cases same
          exact ⟨inner, entered, .inr ⟨trees, values, rfl, read, rfl⟩⟩
      | cons => cases behind
  | null | bool | number | string | stump | broken => exact absurd taken (refuse_not_ok _ _ _)

end Records

section Changes

variable {levels} (front back : List (Key × Tree)) {filling result : Slot.Filling slots}

/-- Another value in the place of the old one is refused there, or else it takes nothing away from
the members behind it. -/
theorem fold_replaced (key : Key) (old new : Tree) {middle : Slot.Filling slots}
    (folded : (front ++ (key, old) :: back).foldlM (take slots levels) filling = .ok result)
    (ahead : front.foldlM (take slots levels) filling = .ok middle) :
    (∃ fault, take slots levels middle (key, new) = .error fault ∧
      (front ++ (key, new) :: back).foldlM (take slots levels) filling = .error fault) ∨
    ∃ next result', take slots levels middle (key, new) = .ok next ∧
      (front ++ (key, new) :: back).foldlM (take slots levels) filling = .ok result' ∧
      Slot.Alike slots result result' := by
  obtain ⟨_, same, behind⟩ := (foldlM_append_ok_iff ..).mp folded
  cases ahead.symm.trans same
  obtain ⟨_, step, _⟩ := (foldlM_cons_ok_iff ..).mp behind
  -- The member may as well come last, with no others behind it.
  have moved (tree : Tree) : (front ++ (key, tree) :: back).Perm (front ++ back ++ [(key, tree)]) :=
    List.perm_middle.trans (List.perm_append_singleton (key, tree) (front ++ back)).symm
  have last := foldlM_perm (take_interchange levels) (moved old) filling result folded
  obtain ⟨others, read, rest⟩ := (foldlM_append_ok_iff ..).mp last
  obtain ⟨_, stepLast, done⟩ := (foldlM_cons_ok_iff ..).mp rest
  cases done
  cases taken : take slots levels middle (key, new) with
  | error fault =>
      refine .inl ⟨fault, rfl, ?_⟩
      rw [foldlM_behind ahead, List.foldlM_cons, taken]
      rfl
  | ok next =>
      cases takenLast : take slots levels others (key, new) with
      | error fault =>
          have refused := take_refused levels key old new stepLast step takenLast
          cases taken.symm.trans refused
      | ok result' =>
          refine .inr ⟨next, result', rfl, ?_,
            take_alike levels key old new others result result' stepLast takenLast⟩
          apply foldlM_perm (take_interchange levels) (moved new).symm
          exact (foldlM_append_ok_iff ..).mpr
            ⟨others, read, (foldlM_cons_ok_iff ..).mpr ⟨result', takenLast, rfl⟩⟩

variable (key : Key) {name : String} (named : key.kept = .ok name) (tree : Tree)
include named

theorem fold_inserted (unlisted : name ∉ Slot.names slots) (whole : Whole tree)
    (folded : (front ++ back).foldlM (take slots levels) filling = .ok result) :
    (front ++ (key, tree) :: back).foldlM (take slots levels) filling = .ok result := by
  apply foldlM_perm (take_interchange levels) List.perm_middle.symm
  apply (foldlM_cons_ok_iff ..).mpr
  refine ⟨filling, ?_, folded⟩
  rw [take_named levels filling key name named]
  exact Slot.fill_unlisted Tree.pass levels slots filling name unlisted tree whole

theorem fold_repeated (listed : name ∈ Slot.names slots) (first : Key × Tree)
    (inside : first ∈ front) (found : first.1.kept = .ok name)
    (folded : (front ++ back).foldlM (take slots levels) filling = .ok result) :
    (front ++ (key, tree) :: back).foldlM (take slots levels) filling =
      .error (.mismatch (.duplicate name)) := by
  obtain ⟨middle, before, _⟩ := (foldlM_append_ok_iff ..).mp folded
  have taken := fold_taken levels name listed front first inside found filling middle before
  rw [foldlM_behind before, List.foldlM_cons, take_named levels middle key name named,
    Slot.fill_repeated Tree.pass levels slots middle name taken tree]
  rfl

/-- The new value is read where it is met, which is first. Unless it is refused, the fault is found
where the old one stands. -/
theorem fold_repeated_ahead (listed : name ∈ Slot.names slots) (between : List (Key × Tree))
    (last : Key) (found : last.kept = .ok name) (old : Tree)
    (folded : (front ++ between ++ (last, old) :: back).foldlM (take slots levels) filling =
      .ok result) :
    (front ++ (key, tree) :: (between ++ (last, old) :: back)).foldlM (take slots levels) filling =
        ((front ++ between ++ (last, tree) :: back).foldlM (take slots levels) filling >>=
          unlessRepeated (some name)) ∧
      ∀ result', (front ++ between ++ (last, tree) :: back).foldlM (take slots levels) filling =
        .ok result' → Slot.Alike slots result result' := by
  obtain ⟨met, ahead, behind⟩ := (foldlM_append_ok_iff ..).mp folded
  obtain ⟨middle, start, _⟩ := (foldlM_append_ok_iff ..).mp ahead
  have renamed (filling : Slot.Filling slots) (value : Tree) :
      take slots levels filling (key, value) = take slots levels filling (last, value) := by
    rw [take_named levels filling key name named, take_named levels filling last name found]
  have moved (value : Tree) : (front ++ between ++ (last, value) :: back).Perm
      (front ++ (last, value) :: (between ++ back)) := by
    rw [List.append_assoc]
    exact List.perm_middle.append_left front
  have early := foldlM_perm (take_interchange levels) (moved old) filling result folded
  obtain ⟨_, same, rest⟩ := (foldlM_append_ok_iff ..).mp early
  cases start.symm.trans same
  obtain ⟨_, stepEarly, _⟩ := (foldlM_cons_ok_iff ..).mp rest
  obtain ⟨_, stepMet, _⟩ := (foldlM_cons_ok_iff ..).mp behind
  rcases fold_replaced (front ++ between) back last old tree folded ahead with
    ⟨fault, refusedMet, refused⟩ | ⟨_, replaced, takenMet, read, alike⟩
  · have refusedEarly := take_refused levels last old tree stepMet stepEarly refusedMet
    constructor
    · rw [foldlM_behind start, List.foldlM_cons, renamed, refusedEarly, refused]
      rfl
    · intro result' read
      rw [refused] at read
      cases read
  · have first := foldlM_perm (take_interchange levels) (moved tree) filling replaced read
    have named' : (front ++ (key, tree) :: between ++ back).foldlM (take slots levels) filling =
        .ok replaced := by
      simp only [List.foldlM_append, List.foldlM_cons, List.append_assoc, List.cons_append,
        renamed] at first ⊢
      exact first
    have repeated := fold_repeated (front ++ (key, tree) :: between) back last found old listed
      (key, tree) (by simp) named named'
    constructor
    · rw [List.append_assoc] at repeated
      rw [read]
      exact repeated
    · intro result' read'
      cases read.symm.trans read'
      exact alike

end Changes

section Edits

variable (fits : Slot.Fits part.members slots)
include fits

theorem take_changed (key : Token.Letters) {repeated? : Option String}
    {before replaced after : Phrase}
    (follows : Follows repeated? (part.member key.value) before replaced after)
    (harmless : part.member key.value = .value → repeated? = none)
    (filling next : Slot.Filling slots)
    (taken : take slots levels filling (Member.tree (key, before)) = .ok next) :
    take slots levels filling (Member.tree (key, after)) =
      (take slots levels filling (Member.tree (key, replaced)) >>= unlessRepeated repeated?) := by
  obtain ⟨name, named, filled⟩ := (take_ok_iff ..).mp taken
  have named : key.value = .ok name := named
  rw [named, Part.member] at follows harmless
  simp only [Member.tree, take_named levels filling (.text key.value) name named]
  apply Slot.fill_changed Tree.pass levels repeated? before.tree replaced.tree after.tree slots
    filling next name _ _ filled
  · intro slot found value read
    obtain ⟨member, same, steady⟩ := fits.find name slot found
    rw [same] at follows
    exact follows slot.read steady levels value read
  · intro unlisted
    have unknown : part.members.find? (·.1 = name) = none := by
      apply List.find?_eq_none.mpr
      intro member inside same
      apply unlisted
      rw [← fits.names_eq]
      exact List.mem_map.mpr ⟨member, inside, by simpa using same⟩
    rw [unknown] at harmless
    rw [harmless rfl, show Tree.pass after.tree = .ok () from after.whole_tree,
      show Tree.pass replaced.tree = .ok () from replaced.whole_tree]
    rfl

variable {levels} in
theorem members_edited {before after : List Member}
    (edit : Edit part (.object before) (.object after)) (filling : Slot.Filling slots)
    (folded : (before.map Member.tree).foldlM (take slots levels) (Slot.unfilled slots) =
      .ok filling) :
    (after.map Member.tree).foldlM (take slots levels) (Slot.unfilled slots) = .ok filling := by
  cases edit with
  | reorder _ moved _ =>
      exact foldlM_perm (take_interchange levels) (moved.map Member.tree) _ filling folded
  | insert _ _ front back key inserted name named unknown =>
      rw [List.map_append] at folded
      rw [List.map_append, List.map_cons]
      exact fold_inserted _ _ (.text key.value) named inserted.tree (fits.names_eq ▸ unknown)
        inserted.whole_tree folded
  | member _ front back key edit =>
      rw [List.map_append, List.map_cons] at folded
      rw [List.map_append, List.map_cons]
      apply foldlM_changed _ _ _ folded
      intro state next taken
      rw [take_changed levels fits key edit.follows (fun _ => rfl) state next taken, taken]
      rfl

variable {levels} in
theorem members_repeated {name : String} {before replaced after : List Member}
    (twice : Repeat name part (.object before) (.object replaced) (.object after))
    (filling : Slot.Filling slots)
    (folded : (before.map Member.tree).foldlM (take slots levels) (Slot.unfilled slots) =
      .ok filling) :
    (after.map Member.tree).foldlM (take slots levels) (Slot.unfilled slots) =
        ((replaced.map Member.tree).foldlM (take slots levels) (Slot.unfilled slots) >>=
          unlessRepeated (some name)) ∧
      ∀ filling', (replaced.map Member.tree).foldlM (take slots levels) (Slot.unfilled slots) =
        .ok filling' → Slot.Alike slots filling filling' := by
  cases twice with
  | behind _ _ front back known first inside found key repeated named =>
      have refused := fold_repeated _ _ (.text key.value) named repeated.tree
        (fits.names_eq ▸ known) first.tree (List.mem_map_of_mem inside) found
        (List.map_append ▸ folded)
      constructor
      · rw [folded, List.map_append, List.map_cons]
        exact refused
      · intro filling' same
        cases folded.symm.trans same
        exact Slot.alike_refl slots filling
  | ahead _ _ front between back known last found old key value named =>
      simp only [List.map_append, List.map_cons] at folded ⊢
      exact fold_repeated_ahead _ _ (.text key.value) named value.tree (fits.names_eq ▸ known) _
        (.text last.value) found old.tree folded
  | @member _ front back key before replaced after inner =>
      simp only [List.map_append, List.map_cons] at folded ⊢
      obtain ⟨middle, ahead, behind⟩ := (foldlM_append_ok_iff ..).mp folded
      obtain ⟨next, taken, _⟩ := (foldlM_cons_ok_iff ..).mp behind
      have changed := take_changed levels fits key inner.follows
        (fun isValue => absurd isValue inner.not_value) middle next taken
      rw [foldlM_behind ahead, List.foldlM_cons, changed]
      rcases fold_replaced _ _ (.text key.value) before.tree replaced.tree folded ahead with
        ⟨fault, refused, read⟩ | ⟨_, result, accepted, read, alike⟩
      · constructor
        · simp only [Member.tree, refused, read]
          rfl
        · intro filling' same
          cases read.symm.trans same
      · constructor
        · simp only [Member.tree, accepted, read]
          rfl
        · intro filling' same
          cases read.symm.trans same
          exact alike

variable (what : String) (make : Slot.Values slots → α)

theorem record_changed {repeated? : Option String} (front back : List Phrase)
    {before replaced after : Phrase}
    (follows : Follows repeated? (part.item front.length) before replaced after) (levels : Nat)
    (value : α)
    (taken : record what slots make levels (Phrase.array (front ++ before :: back)).tree =
      .ok value) :
    record what slots make levels (Phrase.array (front ++ after :: back)).tree =
      (record what slots make levels (Phrase.array (front ++ replaced :: back)).tree >>=
        unlessRepeated repeated?) := by
  simp only [Phrase.tree_array, List.map_append, List.map_cons] at taken ⊢
  obtain ⟨inner, entered, ⟨_, _, same, _⟩ | ⟨_, values, same, read, -⟩⟩ :=
    record_ok_cases slots what make levels _ value taken
  · cases same
  cases same
  have changed := Slot.ofItems_changed inner repeated? before.tree replaced.tree after.tree
    (.ok ()) (tooShort slots what) slots 0 (front.map Phrase.tree) (back.map Phrase.tree) values
    (by
      intro slot found value taken
      rw [List.length_map] at found
      obtain ⟨member, same, steady⟩ := fits.get front.length slot found
      rw [part.item_member front.length member same] at follows
      exact follows slot.read steady inner value taken)
    read
  rw [record_array slots what make entered, record_array slots what make entered, changed]
  apply unlessRepeated_bind
  -- As many items as before leave none over.
  intro values' read'
  have fit := Slot.ofItems_extra _ _ _ _ _ _ _ read
  have none := Slot.ofItems_extra _ _ _ _ _ _ _ read'
  rw [List.drop_eq_nil_iff.mpr (by simpa using List.drop_eq_nil_iff.mp fit.symm)] at none
  exact ⟨make values'.1, by rw [concludeItems, none]; rfl⟩

theorem record_steady : Steady part (record what slots make) := by
  constructor
  · intro levels tree value taken
    obtain ⟨inner, _, ⟨members, filling, rfl, folded, _⟩ | ⟨trees, values, rfl, read, _⟩⟩ :=
      record_ok_cases slots what make levels tree value taken
    · apply (Tree.whole_object_iff members none).mpr
      exact ⟨members_whole inner fits.mem members _ filling folded, rfl⟩
    · apply (Tree.whole_array_iff trees none).mpr
      exact ⟨ofItems_whole inner fits.mem _ _ 0 trees values read, rfl⟩
  · intro before after edit levels value taken
    obtain ⟨inner, entered, ⟨trees, filling, same, folded, finished⟩ | ⟨trees, _, same, _⟩⟩ :=
      record_ok_cases slots what make levels _ value taken
    · obtain ⟨members, rfl, rfl⟩ := Phrase.tree_eq_object before trees none same
      obtain ⟨members', rfl⟩ := edit.of_object
      rw [Phrase.tree_object, record_object slots what make entered,
        members_edited fits edit filling folded]
      exact finished
    · obtain ⟨items, rfl, _⟩ := Phrase.tree_eq_array before trees none same
      obtain ⟨front, back, old, new, rfl, rfl, change⟩ := edit.of_array
      rw [record_changed fits what make front back change.follows levels value taken, taken]
      rfl
  · intro name before replaced after twice levels value taken
    obtain ⟨inner, entered, ⟨trees, filling, same, folded, finished⟩ | ⟨trees, _, same, _⟩⟩ :=
      record_ok_cases slots what make levels _ value taken
    · obtain ⟨members, rfl, rfl⟩ := Phrase.tree_eq_object before trees none same
      obtain ⟨members', members'', rfl, rfl⟩ := twice.of_object
      obtain ⟨changed, alike⟩ := members_repeated fits twice filling folded
      obtain ⟨values, complete, -⟩ := (bind_ok_iff ..).mp finished
      simp only [Phrase.tree_object, record_object slots what make entered, changed]
      apply unlessRepeated_bind
      intro filling' read
      obtain ⟨values', complete'⟩ :=
        Slot.finish_alike slots filling filling' (alike filling' read) values complete
      exact ⟨make values', (bind_ok_iff ..).mpr ⟨values', complete', rfl⟩⟩
    · obtain ⟨items, rfl, _⟩ := Phrase.tree_eq_array before trees none same
      obtain ⟨front, back, old, new, changed, rfl, rfl, rfl, change⟩ := twice.of_array
      exact record_changed fits what make front back change.follows levels value taken

end Edits

end Reader

end SchemaDefaults
