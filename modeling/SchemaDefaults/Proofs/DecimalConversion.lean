import Mathlib.Data.List.TakeWhile
import Mathlib.Tactic.FieldSimp
import Mathlib.Tactic.Linarith
import Mathlib.Tactic.Positivity
import SchemaDefaults.Conversion
import SchemaDefaults.Proofs.NumberForms
/-!
Conversion of decimals. A text converts if it is a decimal, and the result is the canonical text
of the number it denotes. Canonical texts differ where the numbers differ: the digits in front of
the point are those of the whole part, the digits behind it those of the rest, and a sign stands
only where the number is not zero.
-/

namespace SchemaDefaults

namespace Number

section Fractions

def fractionValue (digits : List Char) : ℚ := digitsValue digits / 10 ^ digits.length

theorem digitsValue_padded (digits : List Char) (count : Nat) :
    digitsValue (digits ++ List.replicate count '0') = digitsValue digits * 10 ^ count := by
  rw [digitsValue_append, digitsValue_zeros, List.length_replicate, Nat.add_zero]

theorem fractionDigits_padded (digits : List Char) (count : Nat) :
    fractionDigits (digits ++ List.replicate count '0') = fractionDigits digits := by
  unfold fractionDigits
  rw [List.reverse_append, List.reverse_replicate, List.dropWhile_append_of_pos]
  intro c member
  rw [List.eq_of_mem_replicate member]
  rfl

theorem fractionDigits_zeros (digits : List Char) :
    ∃ count, fractionDigits digits ++ List.replicate count '0' = digits := by
  have joined := List.takeWhile_append_dropWhile (p := (· == '0')) (l := digits.reverse)
  have zeros : digits.reverse.takeWhile (· == '0') =
      List.replicate (digits.reverse.takeWhile (· == '0')).length '0' := by
    apply List.eq_replicate_of_mem
    intro c member
    simpa using List.mem_takeWhile_imp member
  refine ⟨(digits.reverse.takeWhile (· == '0')).length, ?_⟩
  rw [fractionDigits, ← List.reverse_replicate, ← List.reverse_append, ← zeros, joined,
    List.reverse_reverse]

theorem fractionValue_padded (digits : List Char) (count : Nat) :
    fractionValue (digits ++ List.replicate count '0') = fractionValue digits := by
  unfold fractionValue
  rw [digitsValue_padded, List.length_append, List.length_replicate, pow_add]
  push_cast
  field_simp

theorem fractionValue_fractionDigits (digits : List Char) :
    fractionValue (fractionDigits digits) = fractionValue digits := by
  obtain ⟨count, padded⟩ := fractionDigits_zeros digits
  rw [← fractionValue_padded _ count, padded]

theorem fractionValue_lt (digits : List Char) (decimal : allDigits digits = true) :
    fractionValue digits < 1 := by
  have bound : (digitsValue digits : ℚ) < 10 ^ digits.length := by
    exact_mod_cast digitsValue_lt digits decimal
  rw [fractionValue, div_lt_one (by positivity)]
  exact bound

theorem fractionValue_nonneg (digits : List Char) : 0 ≤ fractionValue digits := by
  unfold fractionValue
  positivity

/-- Of two fractions of one value the shorter one is the longer one less some zeros. -/
theorem fractionDigits_of_length_le (short long : List Char) (decimal : allDigits short = true)
    (decimal' : allDigits long = true) (length : short.length ≤ long.length)
    (same : fractionValue short = fractionValue long) :
    fractionDigits short = fractionDigits long := by
  have padded : short ++ List.replicate (long.length - short.length) '0' = long := by
    apply digitsValue_injective _ _ _ decimal'
    · rw [List.length_append, List.length_replicate]
      omega
    · rw [digitsValue_padded]
      unfold fractionValue at same
      rw [div_eq_div_iff (by positivity) (by positivity)] at same
      have scaled : digitsValue short * 10 ^ long.length =
          digitsValue long * 10 ^ short.length := by exact_mod_cast same
      rw [← Nat.sub_add_cancel length, Nat.pow_add, ← Nat.mul_assoc] at scaled
      exact Nat.eq_of_mul_eq_mul_right (by positivity) scaled
    · exact (allDigits_append _ _).mpr ⟨decimal, allDigits_zeros _⟩
  rw [← padded, fractionDigits_padded]

theorem fractionDigits_unique (left right : List Char) (decimal : allDigits left = true)
    (decimal' : allDigits right = true) (same : fractionValue left = fractionValue right) :
    fractionDigits left = fractionDigits right := by
  rcases Nat.le_total left.length right.length with shorter | longer
  · exact fractionDigits_of_length_le left right decimal decimal' shorter same
  · exact (fractionDigits_of_length_le right left decimal' decimal longer same.symm).symm

theorem fractionDigits_eq_nil_iff (digits : List Char) (decimal : allDigits digits = true) :
    fractionDigits digits = [] ↔ fractionValue digits = 0 := by
  constructor
  · intro nothing
    rw [← fractionValue_fractionDigits, nothing]
    simp [fractionValue]
  · intro zero
    exact fractionDigits_unique digits [] decimal rfl (by rw [zero]; simp [fractionValue])

end Fractions

section Canonical

namespace DecimalForm

def parts (d : DecimalForm) : Decimal := ⟨d.sign.negative, d.whole, d.fraction⟩

theorem magnitude_eq (d : DecimalForm) :
    d.magnitude = digitsValue d.whole + fractionValue d.fraction := by
  unfold magnitude digits fractionValue
  rw [digitsValue_append]
  push_cast
  field_simp

theorem magnitude_nonneg (d : DecimalForm) : 0 ≤ d.magnitude := by
  unfold magnitude
  positivity

/-- The whole part and the fraction are determined by the magnitude. -/
theorem magnitude_split (d e : DecimalForm) (same : d.magnitude = e.magnitude) :
    digitsValue d.whole = digitsValue e.whole ∧
      fractionValue d.fraction = fractionValue e.fraction := by
  rw [d.magnitude_eq, e.magnitude_eq] at same
  have low := fractionValue_nonneg d.fraction
  have low' := fractionValue_nonneg e.fraction
  have high := fractionValue_lt d.fraction d.fraction_decimal
  have high' := fractionValue_lt e.fraction e.fraction_decimal
  have whole : digitsValue d.whole = digitsValue e.whole := by
    have le : (digitsValue d.whole : ℚ) < digitsValue e.whole + 1 := by linarith
    have ge : (digitsValue e.whole : ℚ) < digitsValue d.whole + 1 := by linarith
    exact Nat.le_antisymm (Nat.lt_succ_iff.mp (by exact_mod_cast le))
      (Nat.lt_succ_iff.mp (by exact_mod_cast ge))
  rw [whole] at same
  exact ⟨whole, add_left_cancel same⟩

theorem zero_iff (d : DecimalForm) :
    (wholeDigits d.whole == ['0'] && (fractionDigits d.fraction).isEmpty) = true ↔
      d.magnitude = 0 := by
  have low := fractionValue_nonneg d.fraction
  have whole : wholeDigits d.whole = ['0'] ↔ digitsValue d.whole = 0 := by
    constructor
    · intro zero
      rw [← digitsValue_wholeDigits, zero]
      rfl
    · intro zero
      rw [wholeDigits_toDigits d.whole d.whole_decimal, zero]
      rfl
  rw [Bool.and_eq_true, beq_iff_eq, List.isEmpty_iff, whole,
    fractionDigits_eq_nil_iff _ d.fraction_decimal, d.magnitude_eq]
  constructor
  · rintro ⟨whole, fraction⟩
    rw [whole, fraction]
    simp
  · intro zero
    have part : (0 : ℚ) ≤ digitsValue d.whole := by positivity
    have whole : (digitsValue d.whole : ℚ) = 0 := by linarith
    exact ⟨by exact_mod_cast whole, by linarith⟩

def writtenSign (d : DecimalForm) : Sign :=
  if d.sign.negative = true ∧ d.magnitude ≠ 0 then .minus else .absent

theorem signed_writtenSign (d : DecimalForm) :
    signed d.writtenSign.negative d.magnitude = d.value := by
  unfold writtenSign value signed
  by_cases zero : d.magnitude = 0
  · simp [zero]
  · cases d.sign.negative <;> simp [zero, Sign.negative]

theorem canonical_eq (d : DecimalForm) :
    d.parts.canonical = d.writtenSign.text ++ wholeDigits d.whole ++
      (if (fractionDigits d.fraction).isEmpty then [] else '.' :: fractionDigits d.fraction) := by
  have zero := d.zero_iff
  unfold Decimal.canonical parts writtenSign
  by_cases nothing : d.magnitude = 0
  · simp [zero.mpr nothing, nothing, Sign.text]
  · have something := mt zero.mp nothing
    rw [Bool.not_eq_true] at something
    cases d.sign.negative <;> simp [something, nothing, Sign.text]

/-- Decimals of one value differ in the sign of zero at most. -/
theorem magnitude_of_value (d e : DecimalForm) (same : d.value = e.value) :
    d.magnitude = e.magnitude ∧ d.writtenSign = e.writtenSign := by
  have low := d.magnitude_nonneg
  have low' := e.magnitude_nonneg
  have magnitudes : d.magnitude = e.magnitude ∧
      (d.magnitude ≠ 0 → d.sign.negative = e.sign.negative) := by
    unfold value signed at same
    cases sign : d.sign.negative <;> cases sign' : e.sign.negative <;>
      simp only [sign, sign', Bool.false_eq_true, if_true, if_false] at same
    · exact ⟨same, fun _ => rfl⟩
    · exact ⟨by linarith, fun nonzero => absurd (by linarith) nonzero⟩
    · exact ⟨by linarith, fun nonzero => absurd (by linarith) nonzero⟩
    · exact ⟨neg_inj.mp same, fun _ => rfl⟩
  obtain ⟨magnitude, sign⟩ := magnitudes
  refine ⟨magnitude, ?_⟩
  unfold writtenSign
  rw [← magnitude]
  by_cases zero : d.magnitude = 0
  · simp [zero]
  · rw [sign zero]

theorem canonical_of_value (d e : DecimalForm) (same : d.value = e.value) :
    d.parts.canonical = e.parts.canonical := by
  obtain ⟨magnitude, sign⟩ := d.magnitude_of_value e same
  obtain ⟨whole, fraction⟩ := d.magnitude_split e magnitude
  have front : wholeDigits d.whole = wholeDigits e.whole := by
    rw [wholeDigits_toDigits _ d.whole_decimal, wholeDigits_toDigits _ e.whole_decimal, whole]
  have back := fractionDigits_unique _ _ d.fraction_decimal e.fraction_decimal fraction
  rw [d.canonical_eq, e.canonical_eq, sign, front, back]

theorem canonical_form (d : DecimalForm) :
    ∃ written : DecimalForm, written.text = d.parts.canonical ∧ written.value = d.value := by
  have whole := wholeDigits_isWhole d.whole d.whole_decimal
  have value : d.magnitude = digitsValue (wholeDigits d.whole) +
      fractionValue (fractionDigits d.fraction) := by
    rw [d.magnitude_eq, digitsValue_wholeDigits, fractionValue_fractionDigits]
  rw [d.canonical_eq, ← d.signed_writtenSign, value]
  cases broken : fractionDigits d.fraction with
  | nil =>
      refine ⟨⟨d.writtenSign, wholeDigits d.whole, none, ?_, ?_⟩, ?_, ?_⟩
      · simpa using whole.decimal
      · simpa using whole.nonempty
      · simp [text, body, pointText]
      · rw [DecimalForm.value, magnitude_eq]
        rfl
  | cons first rest =>
      have behind := fractionDigits_isFraction d.fraction d.fraction_decimal (by simp [broken])
      rw [broken] at behind
      refine ⟨⟨d.writtenSign, wholeDigits d.whole, some (first :: rest), ?_, ?_⟩, ?_, ?_⟩
      · exact (allDigits_append _ _).mpr ⟨whole.decimal, behind.decimal⟩
      · simp
      · simp [text, body, pointText]
      · rw [DecimalForm.value, magnitude_eq]
        rfl

theorem value_of_text (d e : DecimalForm) (same : d.text = e.text) : d.value = e.value := by
  have parts := d.read_text
  rw [same, e.read_text, Option.some.injEq, Decimal.mk.injEq] at parts
  obtain ⟨sign, whole, fraction⟩ := parts
  simp only [value, magnitude, digits, sign, whole, fraction]

theorem canonical_iff (d e : DecimalForm) :
    d.parts.canonical = e.parts.canonical ↔ d.value = e.value := by
  constructor
  · intro same
    obtain ⟨left, canonical, value⟩ := d.canonical_form
    obtain ⟨right, canonical', value'⟩ := e.canonical_form
    rw [← value, ← value']
    apply left.value_of_text right
    rw [canonical, canonical', same]
  · exact d.canonical_of_value e

end DecimalForm

end Canonical

end Number

open Number

namespace Conversion

theorem decimal_form (d : DecimalForm) :
    decimal? d.text = some (.decimal (String.ofList d.parts.canonical)) := by
  rw [decimal?, d.read_text]
  rfl

theorem form_of_decimal (text : List Char) (literal : Literal)
    (converted : decimal? text = some literal) : ∃ d : DecimalForm, d.text = text := by
  obtain ⟨d, read, -⟩ := Option.map_eq_some_iff.mp converted
  obtain ⟨form, whole, -⟩ := DecimalForm.of_read text d read
  exact ⟨form, whole⟩

theorem convert_decimal (lexical : String) (d : DecimalForm)
    (whole : d.text = Text.trim lexical.toList) :
    convert lexical .decimal = .ok (.decimal (String.ofList d.parts.canonical)) := by
  rw [convert_ok_iff]
  change decimal? (Text.trim lexical.toList) = _
  rw [← whole]
  exact decimal_form d

theorem convert_canonical (d : DecimalForm) :
    convert (String.ofList d.parts.canonical) .decimal =
      .ok (.decimal (String.ofList d.parts.canonical)) := by
  obtain ⟨written, canonical, value⟩ := d.canonical_form
  rw [← written.canonical_of_value d value] at canonical ⊢
  apply convert_decimal
  rw [String.toList_ofList, ← canonical, written.trim_text]

end Conversion

/-- A decimal text converts if and only if it is an optional sign with digits, a point possibly
among them. The result is the canonical text of the number that is denoted, so texts of one
number have one result, texts of different numbers different ones, and the result converts to
itself. -/
theorem decimal_conversion (lexical : String) :
    let text := Text.trim lexical.toList
    ((∃ literal, convert lexical .decimal = .ok literal) ↔ ∃ d : DecimalForm, d.text = text) ∧
    (∀ d : DecimalForm, d.text = text →
      ∃ canonical, convert lexical .decimal = .ok (.decimal canonical) ∧
        IsDecimal canonical.toList ∧
        (∃ written : DecimalForm, written.text = canonical.toList ∧ written.value = d.value) ∧
        convert canonical .decimal = .ok (.decimal canonical)) ∧
    (∀ (other : String) (d e : DecimalForm), d.text = text → e.text = Text.trim other.toList →
      (convert lexical .decimal = convert other .decimal ↔ d.value = e.value)) := by
  intro text
  refine ⟨⟨?_, ?_⟩, ?_, ?_⟩
  · rintro ⟨literal, accepted⟩
    exact Conversion.form_of_decimal text literal ((convert_ok_iff _ _ _).mp accepted)
  · rintro ⟨d, whole⟩
    exact ⟨_, Conversion.convert_decimal lexical d whole⟩
  · intro d whole
    obtain ⟨written, canonical, value⟩ := d.canonical_form
    refine ⟨_, Conversion.convert_decimal lexical d whole, ?_, ⟨written, ?_, value⟩,
      Conversion.convert_canonical d⟩
    · rw [String.toList_ofList]
      exact Decimal.canonical_isDecimal d.parts d.whole_decimal d.fraction_decimal
    · rw [String.toList_ofList]
      exact canonical
  · intro other d e whole whole'
    rw [Conversion.convert_decimal lexical d whole, Conversion.convert_decimal other e whole']
    simpa [String.ofList_inj] using d.canonical_iff e

theorem half_converted : convert " -.50" .decimal = convert "-0.5" .decimal := by
  let short : DecimalForm := ⟨.minus, [], some ['5', '0'], by decide, by decide⟩
  let long : DecimalForm := ⟨.minus, ['0'], some ['5'], by decide, by decide⟩
  apply ((decimal_conversion " -.50").2.2 "-0.5" short long (by decide) (by decide)).mpr
  have left : short.value = -(((50 : Nat) : ℚ) / 10 ^ 2) := rfl
  have right : long.value = -(((5 : Nat) : ℚ) / 10 ^ 1) := rfl
  rw [left, right]
  norm_num

end SchemaDefaults
