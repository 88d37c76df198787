import SchemaDefaults.Conversion
import SchemaDefaults.Proofs.Digits
/-!
Integers by way of a machine word. Reading digit by digit overflows if and only if the number that
the whole text denotes is no word, and a word is written in the one canonical way. So words and
the digits themselves lead to the same texts.
-/

namespace SchemaDefaults

namespace Number

section Written

theorem integerValue_text (value : Int) : integerValue (Word.text value) = value := by
  have digits := digitsValue_toDigits value.natAbs
  unfold Word.text
  split
  · simp only [integerValue, digits]
    omega
  · rw [(toDigits_isWhole value.natAbs).integerValue, digits]
    omega

theorem text_isInteger (value : Int) : IsInteger (Word.text value) := by
  have whole := toDigits_isWhole value.natAbs
  unfold Word.text
  split
  · rename_i negative
    refine .negative _ whole fun zero => ?_
    have nothing := digitsValue_toDigits value.natAbs
    rw [zero] at nothing
    change 0 = value.natAbs at nothing
    omega
  · exact .natural _ whole

theorem IsInteger.text_eq {text : List Char} (canonical : IsInteger text) :
    Word.text (integerValue text) = text := by
  cases canonical with
  | natural _ whole =>
      rw [whole.integerValue, Word.text, if_neg (by omega), Int.natAbs_natCast, whole.toDigits]
  | negative digits whole nonzero =>
      have positive : digitsValue digits ≠ 0 := by
        intro zero
        have digits := whole.toDigits
        rw [zero, Nat.toDigits_zero] at digits
        exact nonzero digits.symm
      have negative : -(digitsValue digits : Int) < 0 := by omega
      rw [integerValue, Word.text, if_pos negative, Int.natAbs_neg, Int.natAbs_natCast,
        whole.toDigits]

theorem Integer.text_value (n : Integer) (decimal : allDigits n.digits = true) :
    Word.text n.value = n.canonical := by
  rw [← n.integerValue_canonical decimal]
  exact (n.canonical_isInteger decimal).text_eq

end Written

section Reading

namespace Word

def Holds (value : Int) : Prop := least ≤ value ∧ value ≤ greatest

def signed (negative : Bool) (magnitude : Nat) : Int :=
  if negative then -(magnitude : Int) else magnitude

theorem checked_some (value : Int) (held : Holds value) : checked value = some value :=
  if_pos held

theorem checked_none (value : Int) (beyond : ¬ Holds value) : checked value = none :=
  if_neg beyond

theorem Holds.smaller {negative : Bool} {near far : Nat} (held : Holds (signed negative far))
    (between : near ≤ far) : Holds (signed negative near) := by
  cases negative <;>
    simp only [Holds, signed, least, greatest, Bool.false_eq_true, if_true, if_false] at * <;>
    omega

theorem append_signed (negative : Bool) (magnitude : Nat) (c : Char)
    (digit : c.isDigit = true) :
    append? negative (signed negative magnitude) c =
      checked (signed negative (10 * magnitude + digitValue c)) := by
  have shifted : 10 * signed negative magnitude = signed negative (10 * magnitude) := by
    cases negative
    · rfl
    · exact Int.mul_neg 10 magnitude
  have appended : (if negative = true then signed negative (10 * magnitude) - digitValue c
      else signed negative (10 * magnitude) + digitValue c) =
      signed negative (10 * magnitude + digitValue c) := by
    cases negative <;> simp [signed]
    omega
  unfold append?
  rw [if_pos digit, shifted]
  by_cases held : Holds (signed negative (10 * magnitude))
  · rw [checked_some _ held, Option.bind_some, appended]
  · have beyond : ¬ Holds (signed negative (10 * magnitude + digitValue c)) :=
      fun far => held (far.smaller (Nat.le_add_right _ _))
    rw [checked_none _ held, checked_none _ beyond, Option.bind_none]

theorem read_from (negative : Bool) (digits : List Char) (decimal : allDigits digits = true)
    (start : Nat) (held : Holds (signed negative start)) :
    digits.foldlM (append? negative) (signed negative start) =
      checked (signed negative (start * 10 ^ digits.length + digitsValue digits)) := by
  induction digits generalizing start with
  | nil => simpa using (checked_some _ held).symm
  | cons c rest ih =>
      obtain ⟨digit, decimal⟩ := (allDigits_cons c rest).mp decimal
      have total : start * 10 ^ (c :: rest).length + digitsValue (c :: rest) =
          (10 * start + digitValue c) * 10 ^ rest.length + digitsValue rest := by
        rw [digitsValue_cons, List.length_cons, Nat.pow_succ, Nat.add_mul, Nat.add_assoc,
          Nat.mul_comm 10 start, Nat.mul_assoc, Nat.mul_comm 10]
      rw [List.foldlM_cons, append_signed negative start c digit, total]
      by_cases near : Holds (signed negative (10 * start + digitValue c))
      · rw [checked_some _ near]
        exact ih decimal _ near
      · have grown := Nat.le_mul_of_pos_right (10 * start + digitValue c)
          (Nat.pow_pos (n := rest.length) (show 0 < 10 by decide))
        have far : ¬ Holds (signed negative
            ((10 * start + digitValue c) * 10 ^ rest.length + digitsValue rest)) :=
          fun held => near (held.smaller (Nat.le_trans grown (Nat.le_add_right _ _)))
        rw [checked_none _ near, checked_none _ far]
        rfl

/-- A word is read where a word is denoted. -/
theorem read_eq (text : List Char) (n : Integer) (read : Integer.read? text = some n) :
    read? text = checked n.value := by
  have decimal := Integer.read_digits text n read
  unfold Integer.read? at read
  unfold read?
  cases signs : splitSign text with
  | mk negative digits =>
      rw [signs] at read
      simp only at read ⊢
      split at read
      · cases read
      · rename_i accepted
        cases read
        simp only [Bool.or_eq_true, not_or, Bool.not_eq_true] at accepted
        have zero : signed negative 0 = 0 := by cases negative <;> rfl
        have held : Holds (signed negative 0) := by
          rw [zero]
          exact ⟨by decide, by decide⟩
        have whole := read_from negative digits decimal 0 held
        rw [accepted.1, ← zero, if_neg Bool.false_ne_true, whole, Nat.zero_mul, Nat.zero_add]
        rfl

end Word

end Reading

end Number

namespace Conversion

open Number

section Kinds

theorem inBounds_holds (kind : IntegerKind) (bounded : kind ≠ .big) (value : Int)
    (within : inBounds kind value = true) : Word.Holds value := by
  cases kind <;>
    simp [inBounds, IntegerKind.bounds, IntegerKind.bits?, Word.Holds, Word.least,
      Word.greatest] at * <;>
    omega

theorem boundedDigits_eq (kind : IntegerKind) (bounded : kind ≠ .big) (text : List Char) :
    boundedDigits? kind text =
      (Integer.read? text).bind fun n =>
        if inBounds kind n.value then some n.canonical else none := by
  unfold boundedDigits?
  cases read : Integer.read? text with
  | none => rfl
  | some n =>
      have decimal := Integer.read_digits text n read
      rw [Option.bind_some, Option.bind_some, Word.read_eq text n read]
      by_cases within : inBounds kind n.value = true
      · rw [Word.checked_some _ (inBounds_holds kind bounded n.value within), Option.bind_some,
          if_pos within, if_pos within, n.text_value decimal]
      · rw [if_neg within]
        by_cases held : Word.Holds n.value
        · rw [Word.checked_some _ held, Option.bind_some, if_neg within]
        · rw [Word.checked_none _ held, Option.bind_none]

/-- Bounded or not, an integer of the kind comes out as the canonical text of what was read. -/
theorem integer_eq (kind : IntegerKind) (text : List Char) :
    integer? kind text =
      (Integer.read? text).bind fun n =>
        if inBounds kind n.value then some (.integer kind (String.ofList n.canonical))
        else none := by
  have unfolded : integer? kind text =
      ((Integer.read? text).bind fun n =>
        if inBounds kind n.value then some n.canonical else none).map fun digits =>
          .integer kind (String.ofList digits) := by
    by_cases big : kind = .big
    · subst big
      unfold integer? unboundedDigits?
      cases Integer.read? text <;> rfl
    · rw [← boundedDigits_eq kind big text]
      cases kind with
      | big => exact absurd rfl big
      | byte | short | int | long => rfl
  rw [unfolded]
  cases Integer.read? text with
  | none => rfl
  | some n =>
      rw [Option.bind_some, Option.bind_some]
      split <;> rfl

end Kinds

end Conversion

end SchemaDefaults
