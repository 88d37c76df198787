import Mathlib.Algebra.Ring.Nat
import SchemaDefaults.Number.Decimal
/-!
Digits and the numbers they denote. A run of digits that does not start with a zero is the one
text in which its number is written, and of runs of one length no two denote the same number. In
canonical texts a whole number has no zero in front of another digit, a fraction has none behind
the others, and a sign is a minus in front of a number that is not zero. The texts that numbers
are written as are of this form, and they denote what has been read.
-/

namespace SchemaDefaults.Number

section Digit

theorem isDigit_toNat (c : Char) (digit : c.isDigit = true) : 48 ≤ c.toNat ∧ c.toNat ≤ 57 := by
  simpa [Char.isDigit, UInt32.le_iff_toNat_le] using digit

theorem digitValue_lt (c : Char) (digit : c.isDigit = true) : digitValue c < 10 := by
  have bounds := isDigit_toNat c digit
  change c.toNat - 48 < 10
  omega

theorem digitChar_digitValue (c : Char) (digit : c.isDigit = true) :
    (digitValue c).digitChar = c := by
  have bounds := isDigit_toNat c digit
  apply Char.toNat_inj.mp
  rw [Nat.toNat_digitChar_of_lt_ten (digitValue_lt c digit)]
  change 48 + (c.toNat - 48) = c.toNat
  omega

theorem digitValue_pos (c : Char) (digit : c.isDigit = true) (nonzero : c ≠ '0') :
    0 < digitValue c := by
  apply Nat.pos_of_ne_zero
  intro zero
  apply nonzero
  rw [← digitChar_digitValue c digit, zero]
  rfl

theorem allDigits_cons (c : Char) (rest : List Char) :
    allDigits (c :: rest) = true ↔ c.isDigit = true ∧ allDigits rest = true := by
  simp [allDigits]

theorem allDigits_append (front back : List Char) :
    allDigits (front ++ back) = true ↔ allDigits front = true ∧ allDigits back = true := by
  simp [allDigits]

theorem allDigits_zeros (count : Nat) : allDigits (List.replicate count '0') = true := by
  apply List.all_eq_true.mpr
  intro c member
  rw [List.eq_of_mem_replicate member]
  rfl

theorem allDigits_toDigits (value : Nat) : allDigits (Nat.toDigits 10 value) = true :=
  List.all_eq_true.mpr fun _ member => Nat.isDigit_of_mem_toDigits (by decide) (by decide) member

end Digit

section Value

theorem digitsValue_eq (digits : List Char) : digitsValue digits = Nat.ofDigitChars 10 digits 0 :=
  Nat.ofDigitChars_eq_foldl.symm

@[simp] theorem digitsValue_nil : digitsValue [] = 0 := rfl

theorem digitsValue_append (front back : List Char) :
    digitsValue (front ++ back) =
      digitsValue front * 10 ^ back.length + digitsValue back := by
  rw [digitsValue_eq, Nat.ofDigitChars_append, Nat.ofDigitChars_eq_ofDigitChars_zero,
    ← digitsValue_eq, ← digitsValue_eq, Nat.mul_comm]

theorem digitsValue_cons (c : Char) (rest : List Char) :
    digitsValue (c :: rest) = digitValue c * 10 ^ rest.length + digitsValue rest := by
  have single : digitsValue [c] = digitValue c := by simp [digitsValue]
  rw [← List.singleton_append, digitsValue_append, single]

theorem digitsValue_zeros (count : Nat) : digitsValue (List.replicate count '0') = 0 := by
  rw [digitsValue_eq, Nat.ofDigitChars_replicate_zero, Nat.mul_zero]

theorem digitsValue_lt (digits : List Char) (decimal : allDigits digits = true) :
    digitsValue digits < 10 ^ digits.length := by
  induction digits with
  | nil => decide
  | cons c rest ih =>
      obtain ⟨digit, decimal⟩ := (allDigits_cons c rest).mp decimal
      have first := Nat.mul_le_mul_right (10 ^ rest.length)
        (Nat.le_of_lt_succ (digitValue_lt c digit))
      have later := ih decimal
      rw [digitsValue_cons, List.length_cons, Nat.pow_succ]
      omega

/-- The first digit, if it is not zero, decides how large a number is. -/
theorem le_digitsValue (c : Char) (rest : List Char) (digit : c.isDigit = true)
    (nonzero : c ≠ '0') : 10 ^ rest.length ≤ digitsValue (c :: rest) := by
  rw [digitsValue_cons]
  have first := Nat.mul_le_mul_right (10 ^ rest.length) (digitValue_pos c digit nonzero)
  omega

/-- Within one length the number determines the digits. -/
theorem digitsValue_injective (left right : List Char) (decimal : allDigits left = true)
    (decimal' : allDigits right = true) (length : left.length = right.length)
    (same : digitsValue left = digitsValue right) : left = right := by
  induction left generalizing right with
  | nil =>
      cases right with
      | nil => rfl
      | cons _ _ => cases length
  | cons c rest ih =>
      cases right with
      | nil => cases length
      | cons c' rest' =>
          obtain ⟨digit, decimal⟩ := (allDigits_cons c rest).mp decimal
          obtain ⟨digit', decimal'⟩ := (allDigits_cons c' rest').mp decimal'
          have length : rest.length = rest'.length := Nat.succ.inj length
          rw [digitsValue_cons, digitsValue_cons, length] at same
          have low := digitsValue_lt rest decimal
          have low' := digitsValue_lt rest' decimal'
          rw [length] at low
          -- What is behind the first digit is the remainder by its place.
          have behind : digitsValue rest = digitsValue rest' := by
            have remainder := congrArg (· % 10 ^ rest'.length) same
            simpa [Nat.mod_eq_of_lt low, Nat.mod_eq_of_lt low'] using remainder
          have first : digitValue c = digitValue c' := by
            rw [behind] at same
            exact Nat.eq_of_mul_eq_mul_right (Nat.pow_pos (by decide))
              (Nat.add_right_cancel same)
          rw [← digitChar_digitValue c digit, ← digitChar_digitValue c' digit', first,
            ih rest' decimal decimal' length behind]

end Value

section Written

theorem digitsValue_toDigits (value : Nat) : digitsValue (Nat.toDigits 10 value) = value := by
  rw [digitsValue_eq, Nat.ofDigitChars_ten_toDigits]

theorem toDigits_head (value : Nat) (positive : 0 < value) :
    ∃ c later, Nat.toDigits 10 value = c :: later ∧ c ≠ '0' := by
  induction value using Nat.strongRecOn with
  | ind value ih =>
      rw [Nat.toDigits_eq_if (by decide)]
      split
      · refine ⟨_, _, rfl, ?_⟩
        rw [ne_eq, Nat.digitChar_eq_zero]
        omega
      · obtain ⟨c, later, digits, nonzero⟩ := ih (value / 10) (by omega) (by omega)
        exact ⟨c, later ++ [(value % 10).digitChar], by rw [digits]; rfl, nonzero⟩

/-- A run that does not start with a zero is as long as the number it denotes requires. -/
theorem toDigits_digitsValue (c : Char) (rest : List Char)
    (decimal : allDigits (c :: rest) = true) (nonzero : c ≠ '0') :
    Nat.toDigits 10 (digitsValue (c :: rest)) = c :: rest := by
  have digit := ((allDigits_cons c rest).mp decimal).1
  have low := le_digitsValue c rest digit nonzero
  have high := digitsValue_lt (c :: rest) decimal
  have short := (Nat.length_toDigits_le_iff (by decide) (Nat.succ_pos rest.length)).mpr high
  have long : rest.length < (Nat.toDigits 10 (digitsValue (c :: rest))).length := by
    apply Nat.lt_of_not_le
    intro shorter
    cases length : rest.length with
    | zero =>
        rw [length] at shorter
        exact absurd Nat.length_toDigits_pos (Nat.not_lt.mpr shorter)
    | succ count =>
        rw [length] at shorter low
        have bound := (Nat.length_toDigits_le_iff (by decide) (Nat.succ_pos count)).mp shorter
        exact absurd low (Nat.not_le.mpr bound)
  apply digitsValue_injective _ _ (allDigits_toDigits _) decimal
  · rw [List.length_cons]
    omega
  · exact digitsValue_toDigits _

end Written

section Forms

structure IsWhole (digits : List Char) : Prop where
  decimal : allDigits digits = true
  nonempty : digits ≠ []
  unpadded : digits.head? = some '0' → digits = ['0']

structure IsFraction (digits : List Char) : Prop where
  decimal : allDigits digits = true
  nonempty : digits ≠ []
  unpadded : digits.getLast? ≠ some '0'

inductive IsInteger : List Char → Prop where
  | natural (digits : List Char) (whole : IsWhole digits) : IsInteger digits
  | negative (digits : List Char) (whole : IsWhole digits) (nonzero : digits ≠ ['0']) :
      IsInteger ('-' :: digits)

inductive IsDecimal : List Char → Prop where
  | integer (text : List Char) (integer : IsInteger text) : IsDecimal text
  | positive (digits fraction : List Char) (whole : IsWhole digits)
      (broken : IsFraction fraction) : IsDecimal (digits ++ '.' :: fraction)
  | negative (digits fraction : List Char) (whole : IsWhole digits)
      (broken : IsFraction fraction) : IsDecimal ('-' :: (digits ++ '.' :: fraction))

/-- What an integer text denotes. -/
def integerValue : List Char → Int
  | '-' :: digits => -(digitsValue digits : Int)
  | digits => digitsValue digits

theorem IsWhole.integerValue {digits : List Char} (whole : IsWhole digits) :
    integerValue digits = digitsValue digits := by
  unfold Number.integerValue
  split
  · -- A minus is no digit.
    rename_i rest
    have first := List.all_eq_true.mp whole.decimal '-' List.mem_cons_self
    exact absurd first (by decide)
  · rfl

end Forms

section Digits

theorem allDigits_dropZeros (digits : List Char) (decimal : allDigits digits = true) :
    allDigits (digits.dropWhile (· == '0')) = true := by
  apply List.all_eq_true.mpr
  intro c member
  exact List.all_eq_true.mp decimal c ((List.dropWhile_sublist _).mem member)

theorem head_dropZeros (digits : List Char) (first : Char)
    (head : (digits.dropWhile (· == '0')).head? = some first) : first ≠ '0' := by
  rintro rfl
  have kept := List.head?_dropWhile_not (· == '0') digits
  rw [head] at kept
  exact absurd kept (by decide)

theorem digitsValue_dropZeros (digits : List Char) :
    digitsValue (digits.dropWhile (· == '0')) = digitsValue digits := by
  induction digits with
  | nil => rfl
  | cons c rest ih =>
      by_cases zero : c = '0'
      · subst zero
        exact ih
      · rw [List.dropWhile_cons_of_neg (by simpa using zero)]

theorem wholeDigits_isWhole (digits : List Char) (decimal : allDigits digits = true) :
    IsWhole (wholeDigits digits) := by
  have kept := allDigits_dropZeros digits decimal
  have nonzero := head_dropZeros digits
  unfold wholeDigits
  cases stripped : digits.dropWhile (· == '0') with
  | nil => exact ⟨by decide, by decide, fun _ => rfl⟩
  | cons first rest =>
      rw [stripped] at kept nonzero
      refine ⟨kept, List.cons_ne_nil first rest, ?_⟩
      intro head
      exact absurd rfl (nonzero '0' head)

theorem digitsValue_wholeDigits (digits : List Char) :
    digitsValue (wholeDigits digits) = digitsValue digits := by
  rw [← digitsValue_dropZeros digits]
  unfold wholeDigits
  cases digits.dropWhile (· == '0') <;> rfl

theorem toDigits_isWhole (value : Nat) : IsWhole (Nat.toDigits 10 value) := by
  refine ⟨allDigits_toDigits value, Nat.toDigits_ne_nil, ?_⟩
  intro head
  rcases Nat.eq_zero_or_pos value with rfl | positive
  · exact Nat.toDigits_zero 10
  · obtain ⟨c, later, digits, nonzero⟩ := toDigits_head value positive
    rw [digits, List.head?_cons, Option.some.injEq] at head
    exact absurd head nonzero

/-- A number is written without redundant zeros in one way only. -/
theorem IsWhole.toDigits {digits : List Char} (whole : IsWhole digits) :
    Nat.toDigits 10 (digitsValue digits) = digits := by
  cases digits with
  | nil => exact absurd rfl whole.nonempty
  | cons c rest =>
      by_cases zero : c = '0'
      · have single := whole.unpadded (by rw [zero, List.head?_cons])
        rw [single]
        exact Nat.toDigits_zero 10
      · exact toDigits_digitsValue c rest whole.decimal zero

theorem wholeDigits_toDigits (digits : List Char) (decimal : allDigits digits = true) :
    wholeDigits digits = Nat.toDigits 10 (digitsValue digits) := by
  rw [← digitsValue_wholeDigits digits]
  exact (wholeDigits_isWhole digits decimal).toDigits.symm

theorem fractionDigits_isFraction (digits : List Char) (decimal : allDigits digits = true)
    (nonempty : fractionDigits digits ≠ []) : IsFraction (fractionDigits digits) := by
  refine ⟨?_, nonempty, ?_⟩
  · have reversed : allDigits digits.reverse = true := by simpa [allDigits] using decimal
    have kept := allDigits_dropZeros digits.reverse reversed
    simpa [allDigits, fractionDigits] using kept
  · -- The last digit is the first one in reverse.
    intro last
    rw [fractionDigits, List.getLast?_reverse] at last
    exact head_dropZeros digits.reverse '0' last rfl

end Digits

section Written

namespace Integer

theorem read_digits (text : List Char) (n : Integer) (read : read? text = some n) :
    allDigits n.digits = true := by
  unfold read? at read
  simp only at read
  split at read
  · cases read
  · rename_i accepted
    cases read
    simp only [Bool.or_eq_true, Bool.not_eq_true', not_or, Bool.not_eq_false] at accepted
    exact accepted.2

theorem canonical_isInteger (n : Integer) (decimal : allDigits n.digits = true) :
    IsInteger n.canonical := by
  have whole := wholeDigits_isWhole n.digits decimal
  unfold canonical
  simp only
  split
  · rename_i signed
    simp only [Bool.and_eq_true, bne_iff_ne] at signed
    exact .negative _ whole signed.2
  · exact .natural _ whole

theorem integerValue_canonical (n : Integer) (decimal : allDigits n.digits = true) :
    integerValue n.canonical = n.value := by
  have whole := wholeDigits_isWhole n.digits decimal
  have same := digitsValue_wholeDigits n.digits
  unfold canonical value
  cases n.negative with
  | false => simp [whole.integerValue, same]
  | true =>
      by_cases zero : wholeDigits n.digits = ['0']
      · have nothing : digitsValue n.digits = 0 := by
          rw [← same, zero]
          rfl
        have unsigned : integerValue ['0'] = 0 := rfl
        simp [zero, nothing, unsigned]
      · simp [zero, integerValue, same]

end Integer

namespace Decimal

theorem read_digits (text : List Char) (d : Decimal) (read : read? text = some d) :
    allDigits d.whole = true ∧ allDigits d.fraction = true := by
  unfold read? at read
  simp only at read
  split at read
  · cases read
  · split at read
    · rename_i decimal
      cases read
      exact Bool.and_eq_true_iff.mp decimal
    · cases read

theorem canonical_isDecimal (d : Decimal) (whole : allDigits d.whole = true)
    (fraction : allDigits d.fraction = true) : IsDecimal d.canonical := by
  have digits := wholeDigits_isWhole d.whole whole
  cases broken : fractionDigits d.fraction with
  | nil =>
      -- Without a fraction this is an integer, whose sign depends on its digits.
      have same : d.canonical = (⟨d.negative, d.whole⟩ : Integer).canonical := by
        cases sign : d.negative <;> by_cases zero : wholeDigits d.whole = ['0'] <;>
          simp [canonical, Integer.canonical, broken, sign, zero]
      rw [same]
      exact .integer _ (Integer.canonical_isInteger ⟨d.negative, d.whole⟩ whole)
  | cons first rest =>
      have behind := fractionDigits_isFraction d.fraction fraction (by simp [broken])
      rw [broken] at behind
      cases sign : d.negative with
      | false => simpa [canonical, broken, sign] using IsDecimal.positive _ _ digits behind
      | true => simpa [canonical, broken, sign] using IsDecimal.negative _ _ digits behind

end Decimal

end Written

end SchemaDefaults.Number
