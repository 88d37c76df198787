import SchemaDefaults.Proofs.Lexemes
import SchemaDefaults.Proofs.TreeTokens
/-!
Phrases: JSON values as a text spells them, with every numeral and every letter. A phrase is what
a text says apart from its blanks. Each text of a phrase is read as the tree of the phrase, and
each text whose tree is whole is the text of a phrase.
-/

namespace SchemaDefaults

open Token (Lexeme Letters Numeral Spaced Parted)

inductive Phrase where
  | null
  | bool (value : Bool)
  | number (numeral : Numeral)
  | string (letters : Letters)
  | array (items : List Phrase)
  | object (members : List (Letters × Phrase))

namespace Phrase

mutual

def lexemes : Phrase → List Lexeme
  | .null => [.null]
  | .bool value => [.bool value]
  | .number numeral => [.number numeral]
  | .string letters => [.string letters]
  | .array items => .openBracket :: (itemLexemes items ++ [.closeBracket])
  | .object members => .openBrace :: (memberLexemes members ++ [.closeBrace])

def itemLexemes : List Phrase → List Lexeme
  | [] => []
  | item :: rest => lexemes item ++ laterItemLexemes rest

def laterItemLexemes : List Phrase → List Lexeme
  | [] => []
  | item :: rest => .comma :: (lexemes item ++ laterItemLexemes rest)

def memberLexemes : List (Letters × Phrase) → List Lexeme
  | [] => []
  | (key, value) :: rest => .string key :: .colon :: (lexemes value ++ laterMemberLexemes rest)

def laterMemberLexemes : List (Letters × Phrase) → List Lexeme
  | [] => []
  | (key, value) :: rest =>
    .comma :: .string key :: .colon :: (lexemes value ++ laterMemberLexemes rest)

end

/-- The text says this phrase, with any blanks around the lexemes. -/
def Spells (phrase : Phrase) (text : String) : Prop := Spaced phrase.lexemes text.toList

/-- The text of a phrase without any blanks. -/
def text (phrase : Phrase) : String := String.ofList (phrase.lexemes.flatMap Lexeme.spelling)

theorem spells_text (phrase : Phrase) : phrase.Spells phrase.text := by
  have spaced (lexemes : List Lexeme) : Spaced lexemes (lexemes.flatMap Lexeme.spelling) := by
    induction lexemes with
    | nil => exact .done [] (List.forall_mem_nil _)
    | cons lexeme rest ih => exact .next [] (List.forall_mem_nil _) lexeme ih
  rw [Spells, text, String.toList_ofList]
  exact spaced phrase.lexemes

mutual

def tree : Phrase → Tree
  | .null => .null
  | .bool value => .bool value
  | .number numeral => .number numeral.value
  | .string letters => .string (Letters.value letters)
  | .array items => .array (itemTrees items) none
  | .object members => .object (memberTrees members) none

def itemTrees : List Phrase → List Tree
  | [] => []
  | item :: rest => tree item :: itemTrees rest

def memberTrees : List (Letters × Phrase) → List (Key × Tree)
  | [] => []
  | (key, value) :: rest => (.text (Letters.value key), tree value) :: memberTrees rest

end

open SchemaDefaults.Tree (Whole)

section Trees

mutual

theorem whole_tree : (phrase : Phrase) → Whole phrase.tree
  | .null | .bool _ | .number _ | .string _ => rfl
  | .array items => (Tree.whole_array_iff _ _).mpr ⟨whole_itemTrees items, rfl⟩
  | .object members => (Tree.whole_object_iff _ _).mpr ⟨whole_memberTrees members, rfl⟩

theorem whole_itemTrees : (items : List Phrase) → ∀ item ∈ itemTrees items, Whole item
  | [] => List.forall_mem_nil _
  | item :: rest => List.forall_mem_cons.mpr ⟨whole_tree item, whole_itemTrees rest⟩

theorem whole_memberTrees : (members : List (Letters × Phrase)) →
    ∀ member ∈ memberTrees members, member.1.passed = .ok () ∧ Whole member.2
  | [] => List.forall_mem_nil _
  | (_, value) :: rest =>
    List.forall_mem_cons.mpr ⟨⟨rfl, whole_tree value⟩, whole_memberTrees rest⟩

end

mutual

theorem tokens_lexemes : (phrase : Phrase) →
    phrase.lexemes.map Lexeme.token = phrase.tree.tokens
  | .null | .bool _ | .number _ | .string _ | .array [] | .object [] => rfl
  | .array (item :: rest) => by
      simp [lexemes, itemLexemes, tree, itemTrees, Tree.tokens, Tree.itemTokens, Lexeme.token,
        tokens_lexemes item, tokens_laterItems rest]
  | .object ((key, value) :: rest) => by
      simp [lexemes, memberLexemes, tree, memberTrees, Tree.tokens, Tree.memberTokens, Key.tokens,
        Lexeme.token, tokens_lexemes value, tokens_laterMembers rest]

theorem tokens_laterItems : (items : List Phrase) →
    (laterItemLexemes items).map Lexeme.token = Tree.laterItemTokens (itemTrees items)
  | [] => rfl
  | item :: rest => by
      simp [laterItemLexemes, itemTrees, Tree.laterItemTokens, Lexeme.token, tokens_lexemes item,
        tokens_laterItems rest]

theorem tokens_laterMembers : (members : List (Letters × Phrase)) →
    (laterMemberLexemes members).map Lexeme.token = Tree.laterMemberTokens (memberTrees members)
  | [] => rfl
  | (key, value) :: rest => by
      simp [laterMemberLexemes, memberTrees, Tree.laterMemberTokens, Key.tokens, Lexeme.token,
        tokens_lexemes value, tokens_laterMembers rest]

end

/-- Nothing stands behind, or something that may stand directly behind a number. -/
def Divided (rest : List Lexeme) : Prop :=
  ∀ lexeme, rest.head? = some lexeme → lexeme.isDivider = true

theorem divided_cons (lexeme : Lexeme) (rest : List Lexeme) (divider : lexeme.isDivider = true) :
    Divided (lexeme :: rest) := by
  intro first head
  cases head
  exact divider

theorem divided_laterItems (items : List Phrase) (rest : List Lexeme) (divided : Divided rest) :
    Divided (laterItemLexemes items ++ rest) := by
  cases items with
  | nil => exact divided
  | cons item later => exact divided_cons .comma _ rfl

theorem divided_laterMembers (members : List (Letters × Phrase)) (rest : List Lexeme)
    (divided : Divided rest) : Divided (laterMemberLexemes members ++ rest) := by
  cases members with
  | nil => exact divided
  | cons member later => exact divided_cons .comma _ rfl

theorem parted_number (numeral : Numeral) (rest : List Lexeme) (divided : Divided rest)
    (parted : Parted rest) : Parted (.number numeral :: rest) := by
  cases rest with
  | nil => trivial
  | cons next later => exact ⟨divided next rfl, parted⟩

mutual

theorem parted_lexemes (rest : List Lexeme) (divided : Divided rest) (parted : Parted rest) :
    (phrase : Phrase) → Parted (phrase.lexemes ++ rest)
  | .null | .bool _ | .string _ => parted
  | .number numeral => parted_number numeral rest divided parted
  | .array [] | .object [] => parted
  | .array (item :: later) => by
      have closed : Divided (.closeBracket :: rest) := divided_cons .closeBracket rest rfl
      have others := parted_laterItems (.closeBracket :: rest) closed parted later
      have first := parted_lexemes _ (divided_laterItems later _ closed) others item
      simpa [lexemes, itemLexemes, Parted] using first
  | .object ((key, value) :: later) => by
      have closed : Divided (.closeBrace :: rest) := divided_cons .closeBrace rest rfl
      have others := parted_laterMembers (.closeBrace :: rest) closed parted later
      have first := parted_lexemes _ (divided_laterMembers later _ closed) others value
      simpa [lexemes, memberLexemes, Parted] using first

theorem parted_laterItems (rest : List Lexeme) (divided : Divided rest) (parted : Parted rest) :
    (items : List Phrase) → Parted (laterItemLexemes items ++ rest)
  | [] => parted
  | item :: later => by
      have others := parted_laterItems rest divided parted later
      have first := parted_lexemes _ (divided_laterItems later _ divided) others item
      simpa [laterItemLexemes, Parted] using first

theorem parted_laterMembers (rest : List Lexeme) (divided : Divided rest)
    (parted : Parted rest) : (members : List (Letters × Phrase)) →
    Parted (laterMemberLexemes members ++ rest)
  | [] => parted
  | (key, value) :: later => by
      have others := parted_laterMembers rest divided parted later
      have first := parted_lexemes _ (divided_laterMembers later _ divided) others value
      simpa [laterMemberLexemes, Parted] using first

end

/-- A text of a phrase is read as the tree of the phrase. -/
theorem tree_spelled (phrase : Phrase) (text : String) (spelled : phrase.Spells text) :
    Tree.ofText text.toList = (phrase.tree, false) := by
  have parted : Parted phrase.lexemes := by
    have alone := parted_lexemes [] nofun trivial phrase
    rwa [List.append_nil] at alone
  have scanned := Token.scan_spaced spelled parted []
  rw [List.reverse_nil, List.nil_append, tokens_lexemes] at scanned
  rw [Tree.ofText, Token.scan, scanned]
  exact Tree.ofTokens_tokens phrase.tree phrase.whole_tree

end Trees

section Recognition

open Token (isBroken)

theorem key_unbroken (key : Key) : ∀ token ∈ key.tokens, isBroken token = false := by
  cases key <;> simp [Key.tokens, isBroken]

mutual

theorem tokens_unbroken : (tree : Tree) → ∀ token ∈ tree.tokens, isBroken token = false
  | .null | .bool _ | .number _ | .string _ => by simp [Tree.tokens, isBroken]
  | .stump _ | .broken _ | .array [] _ | .object [] _ => by
      simp [Tree.tokens, Tree.itemTokens, Tree.memberTokens, isBroken]
  | .array (item :: rest) _ => by
      have first := tokens_unbroken item
      have others := laterItems_unbroken rest
      simp only [Tree.tokens, Tree.itemTokens, List.mem_cons, List.mem_append]
      grind [isBroken]
  | .object ((key, value) :: rest) _ => by
      have named := key_unbroken key
      have first := tokens_unbroken value
      have others := laterMembers_unbroken rest
      simp only [Tree.tokens, Tree.memberTokens, List.mem_cons, List.mem_append]
      grind [isBroken]

theorem laterItems_unbroken : (items : List Tree) →
    ∀ token ∈ Tree.laterItemTokens items, isBroken token = false
  | [] => by simp [Tree.laterItemTokens]
  | item :: rest => by
      have first := tokens_unbroken item
      have others := laterItems_unbroken rest
      simp only [Tree.laterItemTokens, List.mem_cons, List.mem_append]
      grind [isBroken]

theorem laterMembers_unbroken : (members : List (Key × Tree)) →
    ∀ token ∈ Tree.laterMemberTokens members, isBroken token = false
  | [] => by simp [Tree.laterMemberTokens]
  | (key, value) :: rest => by
      have named := key_unbroken key
      have first := tokens_unbroken value
      have others := laterMembers_unbroken rest
      simp only [Tree.laterMemberTokens, List.mem_cons, List.mem_append]
      grind [isBroken]

end

/-- Of the lexemes, only numerals and strings share their tokens with others. -/
def isFixed : Token → Bool
  | .number _ | .string _ => false
  | _ => true

theorem lexeme_fixed {lexemes : List Lexeme} {rest : List Token} (fixed : Lexeme)
    (plain : isFixed fixed.token = true)
    (read : lexemes.map Lexeme.token = fixed.token :: rest) :
    ∃ later, lexemes = fixed :: later ∧ later.map Lexeme.token = rest := by
  obtain ⟨lexeme, later, rfl, first, others⟩ := List.map_eq_cons_iff.mp read
  have same : lexeme = fixed := by
    cases fixed with
    | number | string => cases plain
    | bool value => cases lexeme <;> cases first; rfl
    | openBrace | closeBrace | openBracket | closeBracket | comma | colon | null =>
        cases lexeme <;> cases first; rfl
  exact ⟨later, by rw [same], others⟩

theorem lexeme_string {lexemes : List Lexeme} {kept : Except Fault String} {rest : List Token}
    (read : lexemes.map Lexeme.token = .string kept :: rest) :
    ∃ letters later, lexemes = .string letters :: later ∧ Token.Letters.value letters = kept ∧
      later.map Lexeme.token = rest := by
  obtain ⟨lexeme, later, rfl, first, others⟩ := List.map_eq_cons_iff.mp read
  cases lexeme <;> cases first
  exact ⟨_, later, rfl, rfl, others⟩

theorem lexeme_number {lexemes : List Lexeme} {kept : Except Fault JsonNumber}
    {rest : List Token} (read : lexemes.map Lexeme.token = .number kept :: rest) :
    ∃ numeral later, lexemes = .number numeral :: later ∧ numeral.value = kept ∧
      later.map Lexeme.token = rest := by
  obtain ⟨lexeme, later, rfl, first, others⟩ := List.map_eq_cons_iff.mp read
  cases lexeme <;> cases first
  exact ⟨_, later, rfl, rfl, others⟩

mutual

theorem phrase_of_tokens (rest : List Token) : (tree : Tree) → Whole tree →
    ∀ lexemes : List Lexeme, lexemes.map Lexeme.token = tree.tokens ++ rest →
    ∃ (phrase : Phrase) (later : List Lexeme), lexemes = phrase.lexemes ++ later ∧
      later.map Lexeme.token = rest ∧ phrase.tree = tree
  | .null => fun _ lexemes read => by
      obtain ⟨later, rfl, others⟩ := lexeme_fixed .null rfl read
      exact ⟨.null, later, rfl, others, rfl⟩
  | .bool value => fun _ lexemes read => by
      obtain ⟨later, rfl, others⟩ := lexeme_fixed (.bool value) rfl read
      exact ⟨.bool value, later, rfl, others, rfl⟩
  | .number kept => fun _ lexemes read => by
      obtain ⟨numeral, later, rfl, rfl, others⟩ := lexeme_number read
      exact ⟨.number numeral, later, rfl, others, rfl⟩
  | .string kept => fun _ lexemes read => by
      obtain ⟨letters, later, rfl, rfl, others⟩ := lexeme_string read
      exact ⟨.string letters, later, rfl, others, rfl⟩
  | .stump fault | .broken fault => fun whole => by cases whole
  | .array [] ending => fun whole lexemes read => by
      obtain ⟨_, rfl⟩ := (Tree.whole_array_iff [] ending).mp whole
      obtain ⟨behind, rfl, inner⟩ := lexeme_fixed .openBracket rfl read
      obtain ⟨later, rfl, others⟩ := lexeme_fixed .closeBracket rfl inner
      exact ⟨.array [], later, rfl, others, rfl⟩
  | .object [] ending => fun whole lexemes read => by
      obtain ⟨_, rfl⟩ := (Tree.whole_object_iff [] ending).mp whole
      obtain ⟨behind, rfl, inner⟩ := lexeme_fixed .openBrace rfl read
      obtain ⟨later, rfl, others⟩ := lexeme_fixed .closeBrace rfl inner
      exact ⟨.object [], later, rfl, others, rfl⟩
  | .array (item :: items) ending => fun whole lexemes read => by
      obtain ⟨wholeItems, rfl⟩ := (Tree.whole_array_iff _ _).mp whole
      obtain ⟨wholeItem, wholeLater⟩ := List.forall_mem_cons.mp wholeItems
      simp only [Tree.tokens, Tree.itemTokens, List.append_assoc, List.cons_append,
        List.nil_append] at read
      obtain ⟨_, rfl, inner⟩ := lexeme_fixed .openBracket rfl read
      obtain ⟨first, _, rfl, behind, rfl⟩ := phrase_of_tokens _ item wholeItem _ inner
      obtain ⟨phrases, _, rfl, closed, rfl⟩ := phrases_of_tokens _ items wholeLater _ behind
      obtain ⟨later, rfl, others⟩ := lexeme_fixed .closeBracket rfl closed
      exact ⟨.array (first :: phrases), later, by simp [lexemes, itemLexemes], others, rfl⟩
  | .object ((key, value) :: members) ending => fun whole lexemes read => by
      obtain ⟨wholeMembers, rfl⟩ := (Tree.whole_object_iff _ _).mp whole
      obtain ⟨⟨passed, wholeValue⟩, wholeLater⟩ := List.forall_mem_cons.mp wholeMembers
      obtain ⟨kept, rfl⟩ := Tree.passed_text key passed
      simp only [Tree.tokens, Tree.memberTokens, Key.tokens, List.append_assoc,
        List.cons_append, List.nil_append] at read
      obtain ⟨_, rfl, inner⟩ := lexeme_fixed .openBrace rfl read
      obtain ⟨letters, _, rfl, rfl, assigned⟩ := lexeme_string inner
      obtain ⟨_, rfl, said⟩ := lexeme_fixed .colon rfl assigned
      obtain ⟨first, _, rfl, behind, rfl⟩ := phrase_of_tokens _ value wholeValue _ said
      obtain ⟨phrases, _, rfl, closed, rfl⟩ := members_of_tokens _ members wholeLater _ behind
      obtain ⟨later, rfl, others⟩ := lexeme_fixed .closeBrace rfl closed
      exact ⟨.object ((letters, first) :: phrases), later, by simp [lexemes, memberLexemes],
        others, rfl⟩

theorem phrases_of_tokens (rest : List Token) : (items : List Tree) →
    (∀ item ∈ items, Whole item) → ∀ lexemes : List Lexeme,
    lexemes.map Lexeme.token = Tree.laterItemTokens items ++ rest →
    ∃ (phrases : List Phrase) (later : List Lexeme), lexemes = laterItemLexemes phrases ++ later ∧
      later.map Lexeme.token = rest ∧ itemTrees phrases = items
  | [] => fun _ lexemes read => ⟨[], lexemes, rfl, read, rfl⟩
  | item :: items => fun whole lexemes read => by
      obtain ⟨wholeItem, wholeLater⟩ := List.forall_mem_cons.mp whole
      simp only [Tree.laterItemTokens, List.cons_append, List.append_assoc] at read
      obtain ⟨_, rfl, inner⟩ := lexeme_fixed .comma rfl read
      obtain ⟨first, _, rfl, behind, rfl⟩ := phrase_of_tokens _ item wholeItem _ inner
      obtain ⟨phrases, later, rfl, others, rfl⟩ := phrases_of_tokens _ items wholeLater _ behind
      exact ⟨first :: phrases, later, by simp [laterItemLexemes], others, rfl⟩

theorem members_of_tokens (rest : List Token) : (members : List (Key × Tree)) →
    (∀ member ∈ members, member.1.passed = .ok () ∧ Whole member.2) → ∀ lexemes : List Lexeme,
    lexemes.map Lexeme.token = Tree.laterMemberTokens members ++ rest →
    ∃ (phrases : List (Letters × Phrase)) (later : List Lexeme),
      lexemes = laterMemberLexemes phrases ++ later ∧ later.map Lexeme.token = rest ∧
        memberTrees phrases = members
  | [] => fun _ lexemes read => ⟨[], lexemes, rfl, read, rfl⟩
  | (key, value) :: members => fun whole lexemes read => by
      obtain ⟨⟨passed, wholeValue⟩, wholeLater⟩ := List.forall_mem_cons.mp whole
      obtain ⟨kept, rfl⟩ := Tree.passed_text key passed
      simp only [Tree.laterMemberTokens, Key.tokens, List.cons_append, List.append_assoc,
        List.nil_append] at read
      obtain ⟨_, rfl, inner⟩ := lexeme_fixed .comma rfl read
      obtain ⟨letters, _, rfl, rfl, assigned⟩ := lexeme_string inner
      obtain ⟨_, rfl, said⟩ := lexeme_fixed .colon rfl assigned
      obtain ⟨first, _, rfl, behind, rfl⟩ := phrase_of_tokens _ value wholeValue _ said
      obtain ⟨phrases, later, rfl, others, rfl⟩ := members_of_tokens _ members wholeLater _ behind
      exact ⟨(letters, first) :: phrases, later, by simp [laterMemberLexemes], others, rfl⟩

end

/-- A text without a fault is the text of a phrase. -/
theorem spelled_of_whole (text : String) (tree : Tree)
    (read : Tree.ofText text.toList = (tree, false)) (whole : Whole tree) :
    ∃ phrase : Phrase, phrase.Spells text ∧ phrase.tree = tree := by
  have tokens := Tree.tokens_of_ofTokens _ tree read whole
  obtain ⟨lexemes, ⟨spaced, scanned⟩ | ⟨token, broken, scanned⟩⟩ :=
    Token.lexemes_or_broken text.toList
  · rw [Token.scan, scanned [], List.reverse_nil, List.nil_append] at tokens
    obtain ⟨phrase, later, rfl, others, same⟩ :=
      phrase_of_tokens [] tree whole lexemes (by rw [List.append_nil, tokens])
    cases List.map_eq_nil_iff.mp others
    rw [List.append_nil] at spaced
    exact ⟨phrase, spaced, same⟩
  · have unbroken := tokens_unbroken tree token (by rw [tokens, Token.scan, scanned []]; simp)
    rw [broken] at unbroken
    cases unbroken

end Recognition

end Phrase

end SchemaDefaults
