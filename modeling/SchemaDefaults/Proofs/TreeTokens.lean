import SchemaDefaults.Json.Tree
/-!
Tokens of whole trees. A tree is whole if a reader that passes over it meets no fault. The tokens
of a whole tree build it and no other token list does, for what has been built at any point says
which tokens it has been built from, and a fault leaves a tree that is not whole.
-/

namespace SchemaDefaults

section Tokens

def Key.tokens : Key → List Token
  | .text kept => [.string kept]
  | .broken _ | .stray _ => []

namespace Tree

mutual

def tokens : Tree → List Token
  | .null => [.null]
  | .bool value => [.bool value]
  | .number kept => [.number kept]
  | .string kept => [.string kept]
  | .array items _ => .openBracket :: (itemTokens items ++ [.closeBracket])
  | .object members _ => .openBrace :: (memberTokens members ++ [.closeBrace])
  | .stump _ | .broken _ => []

def itemTokens : List Tree → List Token
  | [] => []
  | item :: rest => tokens item ++ laterItemTokens rest

/-- The items behind the first one, each with the comma before it. -/
def laterItemTokens : List Tree → List Token
  | [] => []
  | item :: rest => .comma :: (tokens item ++ laterItemTokens rest)

def memberTokens : List (Key × Tree) → List Token
  | [] => []
  | (key, value) :: rest => key.tokens ++ .colon :: (tokens value ++ laterMemberTokens rest)

def laterMemberTokens : List (Key × Tree) → List Token
  | [] => []
  | (key, value) :: rest =>
    .comma :: (key.tokens ++ .colon :: (tokens value ++ laterMemberTokens rest))

end

end Tree

end Tokens

namespace Tree

section Wholeness

def Whole (tree : Tree) : Prop := tree.pass = .ok ()

theorem bind_whole (first second : Except Fault Unit) :
    (do first; second) = .ok () ↔ first = .ok () ∧ second = .ok () := by
  cases first <;> simp [bind, Except.bind]

theorem checkEnding_iff (ending : Option Fault) : checkEnding ending = .ok () ↔ ending = none := by
  cases ending <;> simp [checkEnding]

theorem passItems_iff (items : List Tree) :
    passItems items = .ok () ↔ ∀ item ∈ items, Whole item := by
  induction items with
  | nil => simp [passItems]
  | cons item rest ih => rw [passItems, bind_whole, ih, List.forall_mem_cons, Whole]

theorem passMembers_iff (members : List (Key × Tree)) :
    passMembers members = .ok () ↔
      ∀ member ∈ members, member.1.passed = .ok () ∧ Whole member.2 := by
  induction members with
  | nil => simp [passMembers]
  | cons member rest ih =>
      rw [passMembers, bind_whole, bind_whole, ih, List.forall_mem_cons, Whole, and_assoc]

theorem whole_array_iff (items : List Tree) (ending : Option Fault) :
    Whole (.array items ending) ↔ (∀ item ∈ items, Whole item) ∧ ending = none := by
  rw [Whole, pass, bind_whole, passItems_iff, checkEnding_iff]

theorem whole_object_iff (members : List (Key × Tree)) (ending : Option Fault) :
    Whole (.object members ending) ↔
      (∀ member ∈ members, member.1.passed = .ok () ∧ Whole member.2) ∧ ending = none := by
  rw [Whole, pass, bind_whole, passMembers_iff, checkEnding_iff]

theorem passed_text (key : Key) (passed : key.passed = .ok ()) : ∃ kept, key = .text kept := by
  cases key with
  | text kept => exact ⟨kept, rfl⟩
  | broken fault => cases passed
  | stray found => cases passed

end Wholeness

section Completeness

/-- In front of a value it makes no difference that the array could also end there. -/
theorem build_firstItem (item : Tree) (whole : Whole item) (stack : List Frame)
    (rest : List Token) :
    build ⟨.firstItem, stack⟩ (item.tokens ++ rest) =
      build ⟨.value, .array [] :: stack⟩ (item.tokens ++ rest) := by
  cases item with
  | stump fault | broken fault => cases whole
  | null | bool | number | string => rfl
  | array items ending => rfl
  | object members ending => rfl

mutual

theorem build_tokens (stack : List Frame) (rest : List Token) : (tree : Tree) → Whole tree →
    build ⟨.value, stack⟩ (tree.tokens ++ rest) = build (complete tree stack) rest
  | .null | .bool _ | .number _ | .string _ => fun _ => rfl
  | .stump _ | .broken _ => fun whole => by cases whole
  | .array [] ending => fun whole => by
      obtain ⟨_, rfl⟩ := (whole_array_iff [] ending).mp whole
      rfl
  | .object [] ending => fun whole => by
      obtain ⟨_, rfl⟩ := (whole_object_iff [] ending).mp whole
      rfl
  | .array (item :: later) ending => fun whole => by
      obtain ⟨wholeItems, rfl⟩ := (whole_array_iff _ _).mp whole
      obtain ⟨wholeItem, wholeLater⟩ := List.forall_mem_cons.mp wholeItems
      have opened (tokens : List Token) : build ⟨.value, stack⟩ (.openBracket :: tokens) =
          build ⟨.firstItem, stack⟩ tokens := rfl
      -- The first item is built with the open array on the stack; the others follow on commas.
      have first := build_tokens (.array [] :: stack)
        (laterItemTokens later ++ .closeBracket :: rest) item wholeItem
      have others := build_laterItems stack [item] rest later wholeLater
      simp only [tokens, itemTokens, List.cons_append, List.append_assoc, List.nil_append, opened]
      rw [build_firstItem item wholeItem, first]
      exact others
  | .object ((key, value) :: later) ending => fun whole => by
      obtain ⟨wholeMembers, rfl⟩ := (whole_object_iff _ _).mp whole
      obtain ⟨⟨passed, wholeValue⟩, wholeLater⟩ := List.forall_mem_cons.mp wholeMembers
      obtain ⟨kept, rfl⟩ := passed_text key passed
      have opened (tokens : List Token) :
          build ⟨.value, stack⟩ (.openBrace :: .string kept :: .colon :: tokens) =
            build ⟨.value, .object [] (.text kept) :: stack⟩ tokens := rfl
      have first := build_tokens (.object [] (.text kept) :: stack)
        (laterMemberTokens later ++ .closeBrace :: rest) value wholeValue
      have others := build_laterMembers stack [(.text kept, value)] rest later wholeLater
      simp only [tokens, memberTokens, Key.tokens, List.cons_append, List.append_assoc,
        List.nil_append, opened]
      rw [first]
      exact others

theorem build_laterItems (stack : List Frame) (before : List Tree) (rest : List Token) :
    (items : List Tree) → (∀ item ∈ items, Whole item) →
    build ⟨.afterItem before, stack⟩ (laterItemTokens items ++ .closeBracket :: rest) =
      build (complete (.array (before.reverse ++ items) none) stack) rest
  | [] => fun _ => by
      rw [List.append_nil]
      rfl
  | item :: later => fun whole => by
      obtain ⟨wholeItem, wholeLater⟩ := List.forall_mem_cons.mp whole
      have comma (tokens : List Token) : build ⟨.afterItem before, stack⟩ (.comma :: tokens) =
          build ⟨.value, .array before :: stack⟩ tokens := rfl
      have first := build_tokens (.array before :: stack)
        (laterItemTokens later ++ .closeBracket :: rest) item wholeItem
      have others := build_laterItems stack (item :: before) rest later wholeLater
      simp only [laterItemTokens, List.cons_append, List.append_assoc, comma]
      rw [List.reverse_cons, List.append_assoc] at others
      rw [first]
      exact others

theorem build_laterMembers (stack : List Frame) (before : List (Key × Tree))
    (rest : List Token) : (members : List (Key × Tree)) →
    (∀ member ∈ members, member.1.passed = .ok () ∧ Whole member.2) →
    build ⟨.afterMember before, stack⟩ (laterMemberTokens members ++ .closeBrace :: rest) =
      build (complete (.object (before.reverse ++ members) none) stack) rest
  | [] => fun _ => by
      rw [List.append_nil]
      rfl
  | (key, value) :: later => fun whole => by
      obtain ⟨⟨passed, wholeValue⟩, wholeLater⟩ := List.forall_mem_cons.mp whole
      obtain ⟨kept, rfl⟩ := passed_text key passed
      have comma (tokens : List Token) :
          build ⟨.afterMember before, stack⟩ (.comma :: .string kept :: .colon :: tokens) =
            build ⟨.value, .object before (.text kept) :: stack⟩ tokens := rfl
      have first := build_tokens (.object before (.text kept) :: stack)
        (laterMemberTokens later ++ .closeBrace :: rest) value wholeValue
      have others := build_laterMembers stack ((.text kept, value) :: before) rest later wholeLater
      simp only [laterMemberTokens, Key.tokens, List.cons_append, List.append_assoc,
        List.nil_append, comma]
      rw [List.reverse_cons, List.append_assoc] at others
      rw [first]
      exact others

end

theorem ofTokens_tokens (tree : Tree) (whole : Whole tree) :
    ofTokens tree.tokens = (tree, false) := by
  have built := build_tokens [] [] tree whole
  rw [List.append_nil] at built
  rw [ofTokens, built]
  rfl

end Completeness

section Soundness

/-- The items, each with the comma behind it. -/
def leadingItemTokens (items : List Tree) : List Token :=
  items.flatMap fun item => item.tokens ++ [.comma]

def leadingMemberTokens (members : List (Key × Tree)) : List Token :=
  members.flatMap fun member => member.1.tokens ++ .colon :: (member.2.tokens ++ [.comma])

def Frame.tokens : Frame → List Token
  | .array items => .openBracket :: leadingItemTokens items.reverse
  | .object members key =>
    .openBrace :: (leadingMemberTokens members.reverse ++ (key.tokens ++ [.colon]))

def stackTokens : List Frame → List Token
  | [] => []
  | frame :: up => stackTokens up ++ frame.tokens

def Expect.tokens : Expect → List Token
  | .value => []
  | .firstItem => [.openBracket]
  | .afterItem items => .openBracket :: itemTokens items.reverse
  | .firstKey => [.openBrace]
  | .key members => .openBrace :: leadingMemberTokens members.reverse
  | .colon members name => .openBrace :: (leadingMemberTokens members.reverse ++ name.tokens)
  | .afterMember members => .openBrace :: memberTokens members.reverse
  | .finished whole | .stopped whole => whole.tokens

def Place.tokens (place : Place) : List Token := stackTokens place.stack ++ place.expect.tokens

def WholeMembers (members : List (Key × Tree)) : Prop :=
  ∀ member ∈ members, member.1.passed = .ok () ∧ Whole member.2

def Frame.Whole : Frame → Prop
  | .array items => ∀ item ∈ items, Tree.Whole item
  | .object members key => WholeMembers members ∧ key.passed = .ok ()

/-- No fault has been met. -/
def Expect.Whole : Expect → Prop
  | .value | .firstItem | .firstKey => True
  | .afterItem items => (∀ item ∈ items, Tree.Whole item) ∧ items ≠ []
  | .key members => WholeMembers members
  | .colon members name => WholeMembers members ∧ name.passed = .ok ()
  | .afterMember members => WholeMembers members ∧ members ≠ []
  | .finished whole => Tree.Whole whole
  | .stopped _ => False

def Expect.isOpen : Expect → Bool
  | .finished _ | .stopped _ => false
  | _ => true

structure Place.Whole (place : Place) : Prop where
  expect : place.expect.Whole
  stack : ∀ frame ∈ place.stack, frame.Whole
  outermost : place.expect.isOpen = false → place.stack = []

/-- The place has been built from these tokens, or a fault has been met among them. -/
def Place.BuiltFrom (place : Place) (tokens : List Token) : Prop :=
  (place.Whole ∧ place.tokens = tokens) ∨ ∃ tree, place.expect = .stopped tree ∧ ¬ Tree.Whole tree

theorem Place.BuiltFrom.cast {place : Place} {tokens tokens' : List Token}
    (built : place.BuiltFrom tokens) (same : tokens = tokens') : place.BuiltFrom tokens' :=
  same ▸ built

theorem laterItemTokens_eq (item : Tree) (rest : List Tree) :
    laterItemTokens (item :: rest) = .comma :: itemTokens (item :: rest) := by
  rw [laterItemTokens, itemTokens]

theorem laterMemberTokens_eq (member : Key × Tree) (rest : List (Key × Tree)) :
    laterMemberTokens (member :: rest) = .comma :: memberTokens (member :: rest) := by
  rw [laterMemberTokens, memberTokens]

theorem itemTokens_concat (items : List Tree) (item : Tree) :
    itemTokens (items ++ [item]) = leadingItemTokens items ++ item.tokens := by
  induction items with
  | nil => simp [itemTokens, laterItemTokens, leadingItemTokens]
  | cons first rest ih =>
      cases rest with
      | nil => simp [itemTokens, laterItemTokens, leadingItemTokens]
      | cons next later =>
          simp only [List.cons_append] at ih ⊢
          rw [itemTokens, laterItemTokens_eq, ih]
          simp [leadingItemTokens]

theorem memberTokens_concat (members : List (Key × Tree)) (member : Key × Tree) :
    memberTokens (members ++ [member]) =
      leadingMemberTokens members ++ (member.1.tokens ++ .colon :: member.2.tokens) := by
  induction members with
  | nil => simp [memberTokens, laterMemberTokens, leadingMemberTokens]
  | cons first rest ih =>
      cases rest with
      | nil => simp [memberTokens, laterMemberTokens, leadingMemberTokens]
      | cons next later =>
          simp only [List.cons_append] at ih ⊢
          rw [memberTokens, laterMemberTokens_eq, ih]
          simp [leadingMemberTokens]

theorem leadingItemTokens_reverse (item : Tree) (items : List Tree) :
    leadingItemTokens (item :: items).reverse = itemTokens (item :: items).reverse ++ [.comma] := by
  rw [List.reverse_cons, itemTokens_concat]
  simp [leadingItemTokens]

theorem leadingMemberTokens_reverse (member : Key × Tree) (members : List (Key × Tree)) :
    leadingMemberTokens (member :: members).reverse =
      memberTokens (member :: members).reverse ++ [.comma] := by
  rw [List.reverse_cons, memberTokens_concat]
  simp [leadingMemberTokens]

theorem wrap_broken (stack : List Frame) (value : Tree) (broken : ¬ Whole value) :
    ¬ Whole (wrap value stack) := by
  induction stack generalizing value with
  | nil => exact broken
  | cons frame up ih =>
      cases frame with
      | array items =>
          apply ih
          intro whole
          exact broken (((whole_array_iff _ _).mp whole).1 value (by simp))
      | object members name =>
          apply ih
          intro whole
          exact broken (((whole_object_iff _ _).mp whole).1 (name, value) (by simp)).2

theorem stopWith_built (value : Tree) (broken : ¬ Whole value) (stack : List Frame)
    (tokens : List Token) : (stopWith value stack).BuiltFrom tokens :=
  .inr ⟨wrap value stack, rfl, wrap_broken stack value broken⟩

theorem unending_broken (items : List Tree) (fault : Fault) :
    ¬ Whole (.array items (some fault)) := by
  intro whole
  cases ((whole_array_iff _ _).mp whole).2

theorem unendingObject_broken (members : List (Key × Tree)) (fault : Fault) :
    ¬ Whole (.object members (some fault)) := by
  intro whole
  cases ((whole_object_iff _ _).mp whole).2

section Steps

variable {stack : List Frame} (wholeStack : ∀ frame ∈ stack, frame.Whole)

include wholeStack

theorem complete_built (value : Tree) (whole : Whole value) :
    (complete value stack).BuiltFrom (stackTokens stack ++ value.tokens) := by
  left
  cases stack with
  | nil => exact ⟨⟨whole, wholeStack, fun _ => rfl⟩, rfl⟩
  | cons frame up =>
      obtain ⟨wholeFrame, wholeUp⟩ := List.forall_mem_cons.mp wholeStack
      cases frame with
      | array items =>
          constructor
          · refine ⟨⟨?_, by simp⟩, wholeUp, nofun⟩
            exact List.forall_mem_cons.mpr ⟨whole, wholeFrame⟩
          · simp [complete, Place.tokens, Expect.tokens, stackTokens, Frame.tokens,
              itemTokens_concat]
      | object members name =>
          constructor
          · refine ⟨⟨?_, by simp⟩, wholeUp, nofun⟩
            exact List.forall_mem_cons.mpr ⟨⟨wholeFrame.2, whole⟩, wholeFrame.1⟩
          · simp [complete, Place.tokens, Expect.tokens, stackTokens, Frame.tokens,
              memberTokens_concat]

theorem startValue_built (token : Token) :
    (startValue token stack).BuiltFrom (stackTokens stack ++ [token]) := by
  cases token with
  | openBracket => exact .inl ⟨⟨trivial, wholeStack, nofun⟩, rfl⟩
  | openBrace => exact .inl ⟨⟨trivial, wholeStack, nofun⟩, rfl⟩
  | null => exact complete_built wholeStack .null rfl
  | bool value => exact complete_built wholeStack (.bool value) rfl
  | number kept => exact complete_built wholeStack (.number kept) rfl
  | string kept => exact complete_built wholeStack (.string kept) rfl
  | closeBrace | closeBracket | comma | colon | brokenString | broken =>
      exact stopWith_built _ (fun whole => by cases whole) stack _

theorem startKey_built (members : List (Key × Tree)) (wholeMembers : WholeMembers members)
    (token : Token) :
    (startKey token members stack).BuiltFrom
      (stackTokens stack ++ .openBrace :: (leadingMemberTokens members.reverse ++ [token])) := by
  have stray (found : Key) : ¬ Whole (.object ((found, unreadable .malformed) :: members).reverse
      none) := by
    intro whole
    have last := ((whole_object_iff _ _).mp whole).1 (found, unreadable .malformed) (by simp)
    cases last.2
  cases token with
  | string kept => exact .inl ⟨⟨⟨wholeMembers, rfl⟩, wholeStack, nofun⟩, rfl⟩
  | openBrace | closeBrace | openBracket | closeBracket | comma | colon | null | bool | number
  | brokenString | broken => exact stopWith_built _ (stray _) stack _

end Steps

section OtherTokens

variable (stack : List Frame) (token : Token)

theorem advance_firstItem (bracket : token ≠ .closeBracket) :
    advance ⟨.firstItem, stack⟩ token = startValue token (.array [] :: stack) := by
  cases token <;> first | rfl | exact absurd rfl bracket

theorem advance_afterItem (items : List Tree) (comma : token ≠ .comma)
    (bracket : token ≠ .closeBracket) :
    advance ⟨.afterItem items, stack⟩ token =
      stopWith (.array items.reverse (some .malformed)) stack := by
  cases token <;> first | rfl | exact absurd rfl comma | exact absurd rfl bracket

theorem advance_firstKey (brace : token ≠ .closeBrace) :
    advance ⟨.firstKey, stack⟩ token = startKey token [] stack := by
  cases token <;> first | rfl | exact absurd rfl brace

theorem advance_colon (members : List (Key × Tree)) (name : Key) (colon : token ≠ .colon) :
    advance ⟨.colon members name, stack⟩ token =
      stopWith (unreadable .malformed) (.object members name :: stack) := by
  cases token <;> first | rfl | exact absurd rfl colon

theorem advance_afterMember (members : List (Key × Tree)) (comma : token ≠ .comma)
    (brace : token ≠ .closeBrace) :
    advance ⟨.afterMember members, stack⟩ token =
      stopWith (.object members.reverse (some .malformed)) stack := by
  cases token <;> first | rfl | exact absurd rfl comma | exact absurd rfl brace

end OtherTokens

/-- One token, wherever no fault has been met. -/
theorem advance_built (place : Place) (whole : place.Whole) (isOpen : place.expect.isOpen = true)
    (token : Token) : (advance place token).BuiltFrom (place.tokens ++ [token]) := by
  obtain ⟨expect, stack⟩ := place
  obtain ⟨wholeExpect, wholeStack, -⟩ := whole
  cases expect with
  | value =>
      apply (startValue_built wholeStack token).cast
      simp [Place.tokens, Expect.tokens]
  | firstItem =>
      by_cases bracket : token = .closeBracket
      · subst bracket
        apply (complete_built wholeStack (.array [] none) rfl).cast
        simp [Place.tokens, Expect.tokens, tokens, itemTokens]
      · have wholeInner : ∀ frame ∈ Frame.array [] :: stack, frame.Whole :=
          List.forall_mem_cons.mpr ⟨List.forall_mem_nil _, wholeStack⟩
        rw [advance_firstItem stack token bracket]
        apply (startValue_built wholeInner token).cast
        simp [Place.tokens, Expect.tokens, stackTokens, Frame.tokens, leadingItemTokens]
  | afterItem items =>
      obtain ⟨wholeItems, nonempty⟩ := wholeExpect
      by_cases comma : token = .comma
      · subst comma
        left
        refine ⟨⟨trivial, List.forall_mem_cons.mpr ⟨wholeItems, wholeStack⟩, nofun⟩, ?_⟩
        cases items with
        | nil => exact absurd rfl nonempty
        | cons item before =>
            simp only [advance, Place.tokens, Expect.tokens, stackTokens, Frame.tokens,
              leadingItemTokens_reverse]
            simp
      · by_cases bracket : token = .closeBracket
        · subst bracket
          have whole : Whole (.array items.reverse none) :=
            (whole_array_iff _ _).mpr ⟨by simpa using wholeItems, rfl⟩
          apply (complete_built wholeStack _ whole).cast
          simp [Place.tokens, Expect.tokens, tokens]
        · rw [advance_afterItem stack token items comma bracket]
          exact stopWith_built _ (unending_broken _ _) stack _
  | firstKey =>
      by_cases brace : token = .closeBrace
      · subst brace
        apply (complete_built wholeStack (.object [] none) rfl).cast
        simp [Place.tokens, Expect.tokens, tokens, memberTokens]
      · rw [advance_firstKey stack token brace]
        apply (startKey_built wholeStack [] (List.forall_mem_nil _) token).cast
        simp [Place.tokens, Expect.tokens, leadingMemberTokens]
  | key members =>
      apply (startKey_built wholeStack members wholeExpect token).cast
      simp [Place.tokens, Expect.tokens]
  | colon members name =>
      by_cases colon : token = .colon
      · subst colon
        left
        refine ⟨⟨trivial, List.forall_mem_cons.mpr ⟨wholeExpect, wholeStack⟩, nofun⟩, ?_⟩
        simp [advance, Place.tokens, Expect.tokens, stackTokens, Frame.tokens]
      · rw [advance_colon stack token members name colon]
        exact stopWith_built _ (fun whole => by cases whole) _ _
  | afterMember members =>
      obtain ⟨wholeMembers, nonempty⟩ := wholeExpect
      by_cases comma : token = .comma
      · subst comma
        left
        refine ⟨⟨wholeMembers, wholeStack, nofun⟩, ?_⟩
        cases members with
        | nil => exact absurd rfl nonempty
        | cons member before =>
            simp only [advance, Place.tokens, Expect.tokens, leadingMemberTokens_reverse]
            simp
      · by_cases brace : token = .closeBrace
        · subst brace
          have whole : Whole (.object members.reverse none) :=
            (whole_object_iff _ _).mpr
              ⟨fun member inside => wholeMembers member (List.mem_reverse.mp inside), rfl⟩
          apply (complete_built wholeStack _ whole).cast
          simp [Place.tokens, Expect.tokens, tokens]
        · rw [advance_afterMember stack token members comma brace]
          exact stopWith_built _ (unendingObject_broken _ _) stack _
  | finished tree | stopped tree => cases isOpen

theorem closeAt_broken (place : Place) (isOpen : place.expect.isOpen = true) :
    ¬ Whole (closeAt place) := by
  obtain ⟨expect, stack⟩ := place
  have unread : ¬ Whole (unreadable .cutShort) := fun whole => by cases whole
  cases expect with
  | value => exact wrap_broken stack _ unread
  | firstItem => exact wrap_broken stack _ (unending_broken _ _)
  | afterItem items => exact wrap_broken stack _ (unending_broken _ _)
  | firstKey => exact wrap_broken stack _ (unendingObject_broken _ _)
  | key members =>
      apply wrap_broken stack
      intro whole
      exact unread (((whole_object_iff _ _).mp whole).1
        (.broken (.both .cutShort), unreadable .cutShort) (by simp)).2
  | colon members name => exact wrap_broken _ _ unread
  | afterMember members => exact wrap_broken stack _ (unendingObject_broken _ _)
  | finished tree | stopped tree => cases isOpen

theorem closeAt_built (place : Place) (before : List Token) (built : place.BuiltFrom before)
    (whole : Whole (closeAt place)) : (closeAt place).tokens = before := by
  rcases built with ⟨sound, rfl⟩ | ⟨stopped, expect, broken⟩
  · cases isOpen : place.expect.isOpen with
    | true => exact absurd whole (closeAt_broken place isOpen)
    | false =>
        obtain ⟨expect, stack⟩ := place
        obtain rfl : stack = [] := sound.outermost isOpen
        cases expect with
        | finished tree => rfl
        | stopped tree => exact absurd sound.expect id
        | value | firstItem | afterItem | firstKey | key | colon | afterMember => cases isOpen
  · rw [closeAt, expect] at whole
    exact absurd whole broken

theorem build_open (place : Place) (isOpen : place.expect.isOpen = true) (token : Token)
    (rest : List Token) : build place (token :: rest) = build (advance place token) rest := by
  obtain ⟨expect, stack⟩ := place
  cases expect with
  | finished tree | stopped tree => cases isOpen
  | value | firstItem | afterItem | firstKey | key | colon | afterMember => rfl

/-- A tree without a fault says what it has been built from. -/
theorem build_read (rest : List Token) (place : Place) (before : List Token)
    (built : place.BuiltFrom before) (tree : Tree) (read : build place rest = (tree, false))
    (whole : Whole tree) : tree.tokens = before ++ rest := by
  induction rest generalizing place before with
  | nil =>
      obtain rfl : closeAt place = tree := congrArg Prod.fst read
      rw [List.append_nil]
      exact closeAt_built place before built whole
  | cons token later ih =>
      rcases built with ⟨sound, rfl⟩ | ⟨stopped, expect, broken⟩
      · cases isOpen : place.expect.isOpen with
        | true =>
            rw [build_open place isOpen] at read
            rw [ih _ _ (advance_built place sound isOpen token) read, List.append_assoc,
              List.singleton_append]
        | false =>
            obtain ⟨expect, stack⟩ := place
            cases expect with
            | finished tree => cases read
            | stopped tree => exact absurd sound.expect id
            | value | firstItem | afterItem | firstKey | key | colon | afterMember => cases isOpen
      · simp only [build, expect] at read
        cases read
        exact absurd whole broken

theorem tokens_of_ofTokens (tokens : List Token) (tree : Tree)
    (read : ofTokens tokens = (tree, false)) (whole : Whole tree) : tree.tokens = tokens := by
  have start : Place.BuiltFrom ⟨.value, []⟩ [] :=
    .inl ⟨⟨trivial, List.forall_mem_nil _, nofun⟩, rfl⟩
  exact build_read tokens ⟨.value, []⟩ [] start tree read whole

end Soundness

end Tree

end SchemaDefaults
