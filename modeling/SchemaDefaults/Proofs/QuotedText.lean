import Mathlib.Data.List.Basic
import SchemaDefaults.Conversion
import SchemaDefaults.Proofs.WrittenTokens
/-!
Quoted texts as string literals. A literal stands on one line between double quotes, and inside
it a backslash always begins an escape. Every string has a quoted text, which denotes that string
and no other.
-/

namespace SchemaDefaults

namespace Text

theorem cut_unique {α : Type} {mark : α} {front front' rest rest' : List α}
    (unmarked : mark ∉ front) (unmarked' : mark ∉ front')
    (same : front ++ mark :: rest = front' ++ mark :: rest') : front = front' ∧ rest = rest' := by
  rcases List.append_eq_append_iff.mp same with ⟨more, longer, tail⟩ | ⟨more, longer, tail⟩
  all_goals
    subst longer
    cases more with
    | nil => simp_all
    | cons c more => simp_all

namespace Quoted

open Token.StringScan (hexValue? hexValue_hexDigit)

section Form

def isControl (c : Char) : Bool := c.toNat < 0x20 || (0x7F ≤ c.toNat && c.toNat ≤ 0x9F)

/-- The letters that make an escape with a backslash, each with what the escape stands for. -/
def shortEscapes : List (Char × Char) :=
  [('t', '\t'), ('r', '\r'), ('n', '\n'), ('"', '"'), ('\\', '\\'), ('0', '\x00')]

def hexCode? (digits : List Char) : Option Nat :=
  digits.foldlM (fun code c => (hexValue? c).map (16 * code + ·)) 0

/-- A text between the quotes of a literal, and the characters that it denotes. -/
inductive Denotes : List Char → List Char → Prop where
  | done : Denotes [] []
  | plain {body text : List Char} (c : Char) (quote : c ≠ '"') (backslash : c ≠ '\\')
      (printed : isControl c = false) (rest : Denotes body text) : Denotes (c :: body) (c :: text)
  | short {body text : List Char} (letter c : Char) (listed : (letter, c) ∈ shortEscapes)
      (rest : Denotes body text) : Denotes ('\\' :: letter :: body) (c :: text)
  | code {body text : List Char} (digits : List Char) (c : Char) (few : digits.length ≤ 6)
      (code : digits ≠ [] ∧ hexCode? digits = some c.toNat) (rest : Denotes body text) :
      Denotes ('\\' :: 'u' :: '\x7b' :: (digits ++ '\x7d' :: body)) (c :: text)

/-- A literal on one line that stands for the string, and cannot be read in another way. -/
structure IsLiteral (literal value : List Char) : Prop where
  quoted : ∃ body, literal = '"' :: (body ++ ['"']) ∧ (∀ c ∈ body, isControl c = false) ∧
    Denotes body value
  unambiguous : ∀ body other, literal = '"' :: (body ++ ['"']) → Denotes body other →
    other = value

end Form

section Unambiguity

theorem hexCode_digits (digits : List Char) (code : Nat) (read : hexCode? digits = some code) :
    ∀ c ∈ digits, (hexValue? c).isSome = true := by
  -- The start is generalized, since each digit hands a code on to the digits behind it.
  have onwards (start code : Nat) (read : digits.foldlM
      (fun code c => (hexValue? c).map (16 * code + ·)) start = some code) :
      ∀ c ∈ digits, (hexValue? c).isSome = true := by
    clear * - read
    induction digits generalizing start with
    | nil => simp
    | cons digit rest ih =>
        rw [List.foldlM_cons] at read
        obtain ⟨next, first, later⟩ := Option.bind_eq_some_iff.mp read
        obtain ⟨value, found, _⟩ := Option.map_eq_some_iff.mp first
        intro c member
        rcases List.mem_cons.mp member with rfl | inside
        · simp [found]
        · exact ih next later c inside
  exact onwards 0 code read

theorem hexCode_closed (digits : List Char) (code : Nat) (read : hexCode? digits = some code) :
    '\x7d' ∉ digits := by
  intro member
  have digit := hexCode_digits digits code read _ member
  exact absurd digit (by decide)

theorem shortEscapes_unique (letter c d : Char) (first : (letter, c) ∈ shortEscapes)
    (second : (letter, d) ∈ shortEscapes) : c = d := by
  have once : ∀ entry ∈ shortEscapes, ∀ other ∈ shortEscapes,
      entry.1 = other.1 → entry.2 = other.2 := by decide
  exact once _ first _ second rfl

theorem shortEscapes_letter (letter c : Char) (listed : (letter, c) ∈ shortEscapes) :
    letter ≠ 'u' ∧ isControl letter = false := by
  have apart : ∀ entry ∈ shortEscapes, entry.1 ≠ 'u' ∧ isControl entry.1 = false := by decide
  exact apart _ listed

theorem Denotes.unique {body first second : List Char} (one : Denotes body first)
    (other : Denotes body second) : first = second := by
  induction one generalizing second with
  | done =>
      cases other
      rfl
  | plain c quote backslash printed rest ih =>
      cases other with
      | plain d quote' backslash' printed' rest' => rw [ih rest']
      | short letter d listed rest' => exact absurd rfl backslash
      | code digits d few code rest' => exact absurd rfl backslash
  | short letter c listed rest ih =>
      cases other with
      | plain d quote' backslash' printed' rest' => exact absurd rfl backslash'
      | short letter' d listed' rest' =>
          rw [ih rest', shortEscapes_unique letter c d listed listed']
      | code digits d few code rest' => exact absurd rfl (shortEscapes_letter _ c listed).1
  | code digits c few code rest ih =>
      generalize whole : '\\' :: 'u' :: '\x7b' :: (digits ++ _) = text at other
      cases other with
      | done => cases whole
      | plain d quote' backslash' printed' rest' =>
          cases whole
          exact absurd rfl backslash'
      | short letter' d listed' rest' =>
          cases whole
          exact absurd rfl (shortEscapes_letter _ d listed').1
      | code digits' d few' code' rest' =>
          simp only [List.cons.injEq, true_and] at whole
          -- The braces enclose the same digits, which have one value.
          obtain ⟨sameDigits, sameRest⟩ := cut_unique (hexCode_closed digits _ code.2)
            (hexCode_closed digits' _ code'.2) whole
          subst sameDigits sameRest
          have value : c.toNat = d.toNat := Option.some.inj (code.2.symm.trans code'.2)
          rw [Char.toNat_inj.mp value, ih rest']

theorem hexDigit_range (c : Char) (digit : (hexValue? c).isSome = true) :
    48 ≤ c.toNat ∧ c.toNat ≤ 102 := by
  unfold hexValue? at digit
  split at digit
  · rename_i range
    change '0'.val.toNat ≤ c.val.toNat ∧ c.val.toNat ≤ '9'.val.toNat at range
    exact ⟨range.1, Nat.le_trans range.2 (by decide)⟩
  · split at digit
    · rename_i range
      change 'a'.val.toNat ≤ c.val.toNat ∧ c.val.toNat ≤ 'f'.val.toNat at range
      exact ⟨Nat.le_trans (by decide) range.1, range.2⟩
    · split at digit
      · rename_i range
        change 'A'.val.toNat ≤ c.val.toNat ∧ c.val.toNat ≤ 'F'.val.toNat at range
        exact ⟨Nat.le_trans (by decide) range.1, Nat.le_trans range.2 (by decide)⟩
      · cases digit

theorem hexDigit_printed (c : Char) (digit : (hexValue? c).isSome = true) :
    isControl c = false := by
  obtain ⟨least, greatest⟩ := hexDigit_range c digit
  simp [isControl]
  omega

theorem Denotes.printed {body text : List Char} (denotes : Denotes body text) :
    ∀ c ∈ body, isControl c = false := by
  induction denotes with
  | done => simp
  | plain c quote backslash printed rest ih => simp [printed]; exact ih
  | short letter c listed rest ih =>
      have letterPrinted := (shortEscapes_letter letter c listed).2
      have mark : isControl '\\' = false := by decide
      simp [letterPrinted, mark]
      exact ih
  | code digits c few code rest ih =>
      have marks : ∀ d ∈ ['\\', 'u', '\x7b', '\x7d'], isControl d = false := by
        simp [isControl]
      intro d member
      simp only [List.mem_cons, List.mem_append] at member
      rcases member with rfl | rfl | rfl | digit | rfl | inside
      · exact marks _ (by decide)
      · exact marks _ (by decide)
      · exact marks _ (by decide)
      · exact hexDigit_printed d (hexCode_digits digits _ code.2 d digit)
      · exact marks _ (by decide)
      · exact ih d inside

end Unambiguity

section Encoding

theorem shortEscape_listed (c letter : Char) (short : shortEscape? c = some letter) :
    (letter, c) ∈ shortEscapes := by
  unfold shortEscape? at short
  repeat' split at short
  all_goals cases short
  all_goals
    rename_i same
    subst same
    decide

theorem visible_printed (c : Char) (visible : isVisible c = true) : isControl c = false := by
  cases control : isControl c with
  | false => rfl
  | true =>
      simp only [isControl, Bool.or_eq_true, Bool.and_eq_true, decide_eq_true_eq] at control
      rcases control with low | ⟨least, greatest⟩
      · rw [control_not_visible c low] at visible
        cases visible
      · -- The first interval of characters without a mark begins with these.
        have inside : (0x7F, 0xA0) ∈ markless := by
          unfold markless
          exact List.mem_cons_self
        have marked : markless.any (fun interval =>
            interval.1 ≤ c.toNat && c.toNat ≤ interval.2) = true := by
          apply List.any_eq_true.mpr
          refine ⟨_, inside, ?_⟩
          simp only [Bool.and_eq_true, decide_eq_true_eq]
          omega
        have high : ¬ c.toNat < 0x7F := by omega
        simp only [isVisible, high, ↓reduceIte, marked] at visible
        cases visible

theorem hexValue_digitChar (value : Nat) (bound : value < 16) :
    hexValue? value.digitChar = some value :=
  hexValue_hexDigit value bound

theorem hexCode_hexText (code : Nat) : hexCode? (hexText code) = some code := by
  induction code using Nat.strong_induction_on with
  | _ code ih =>
      rw [hexText, Nat.toDigits_eq_if (by decide)]
      split
      next small => simp [hexCode?, hexValue_digitChar code small]
      next large =>
          have front := ih (code / 16) (by omega)
          have last := hexValue_digitChar (code % 16) (by omega)
          have whole : 16 * (code / 16) + code % 16 = code := by omega
          rw [hexText, hexCode?] at front
          simp [hexCode?, List.foldlM_append, front, last, whole]

/-- The greatest code of a character has six hexadecimal digits. -/
theorem hexText_length (c : Char) : (hexText c.toNat).length ≤ 6 := by
  have bound : c.toNat < 0x110000 := by
    have valid := c.valid
    unfold UInt32.isValidChar Nat.isValidChar at valid
    change c.val.toNat < _
    omega
  exact (Nat.length_toDigits_le_iff (by decide) (by decide)).mpr (Nat.lt_trans bound (by decide))

theorem encodeChar_denotes (c : Char) {body text : List Char} (rest : Denotes body text) :
    Denotes (encodeChar c ++ body) (c :: text) := by
  unfold encodeChar
  cases short : shortEscape? c with
  | some letter => exact .short letter c (shortEscape_listed c letter short) rest
  | none =>
      -- The quote and the backslash have short escapes.
      have quote : c ≠ '"' := by
        rintro rfl
        exact absurd short (by decide)
      have backslash : c ≠ '\\' := by
        rintro rfl
        exact absurd short (by decide)
      cases visible : isVisible c with
      | true => exact .plain c quote backslash (visible_printed c visible) rest
      | false =>
          have written : ['\\', 'u', '\x7b'] ++ hexText c.toNat ++ ['\x7d'] ++ body =
              '\\' :: 'u' :: '\x7b' :: (hexText c.toNat ++ '\x7d' :: body) := by simp
          simp only [Bool.false_eq_true, ↓reduceIte, written]
          exact .code _ c (hexText_length c) ⟨Nat.toDigits_ne_nil, hexCode_hexText c.toNat⟩ rest

theorem encodeBody_denotes (text : List Char) : Denotes (encodeBody text) text := by
  induction text with
  | nil => exact .done
  | cons c rest ih =>
      rw [encodeBody, List.flatMap_cons]
      exact encodeChar_denotes c ih

theorem encode_isLiteral (text : List Char) : IsLiteral (encode text) text := by
  have denotes := encodeBody_denotes text
  refine ⟨⟨encodeBody text, rfl, denotes.printed, denotes⟩, ?_⟩
  intro body other same read
  obtain rfl : encodeBody text = body :=
    List.append_cancel_right (List.cons.inj same).2
  exact read.unique denotes

theorem IsLiteral.value_unique {literal first second : List Char} (one : IsLiteral literal first)
    (other : IsLiteral literal second) : first = second := by
  obtain ⟨body, quoted, _, denotes⟩ := one.quoted
  exact other.unambiguous body first quoted denotes

end Encoding

end Quoted

theorem quoted_isLiteral (text : String) :
    Quoted.IsLiteral (quoted text).toList text.toList := by
  rw [quoted, String.toList_ofList]
  exact Quoted.encode_isLiteral text.toList

end Text

/-- A string literal stands for its own string. So a lexical text of the type string is rendered
as a literal that stands for just this text, blanks included, and no two texts look the same. -/
theorem string_literal_exact :
    (∀ value : String,
      Text.Quoted.IsLiteral (Literal.string value).text.toList value.toList) ∧
      (∀ lexical : String, ∃ literal, convert lexical .string = .ok literal ∧
        Text.Quoted.IsLiteral literal.text.toList lexical.toList) ∧
      Function.Injective fun lexical => (convert lexical .string).map Literal.text := by
  refine ⟨Text.quoted_isLiteral, ?_, ?_⟩
  · intro lexical
    exact ⟨.string lexical, rfl, Text.quoted_isLiteral lexical⟩
  · intro first second same
    have shown : Text.quoted first = Text.quoted second := Except.ok.inj same
    have other := Text.quoted_isLiteral second
    rw [← shown] at other
    exact String.toList_inj.mp ((Text.quoted_isLiteral first).value_unique other)

/-- What comes behind an escape is not read as a part of it. -/
example : (Literal.string "\\u\t\x000").text = "\"\\\\u\\t\\00\"" := by decide

end SchemaDefaults
