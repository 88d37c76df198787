import SchemaDefaults.Proofs.DecimalConversion
import SchemaDefaults.Proofs.ShortestDecimal
/-!
The texts of floats. Whether a decimal is written in positions or with an exponent, the text is a
scientific form that denotes it, with no digits of its own but zeros at the ends. How many digits
a form has is counted without those zeros, so the text of a magnitude has no more of them than any
form that is rounded to it.
-/

namespace SchemaDefaults.Number

section Significance

/-- How many digits there are from the first to the last that is not zero. -/
def significant (digits : List Char) : Nat :=
  (fractionDigits (digits.dropWhile (· == '0'))).length

theorem toDigits_padded (value power : Nat) (positive : 0 < value) :
    Nat.toDigits 10 (value * 10 ^ power) = Nat.toDigits 10 value ++ List.replicate power '0' := by
  obtain ⟨c, later, digits, nonzero⟩ := toDigits_head value positive
  have decimal : allDigits (Nat.toDigits 10 value ++ List.replicate power '0') = true :=
    (allDigits_append _ _).mpr ⟨allDigits_toDigits value, allDigits_zeros power⟩
  have padded := digitsValue_padded (Nat.toDigits 10 value) power
  rw [digitsValue_toDigits] at padded
  rw [← padded, digits]
  rw [digits] at decimal
  exact toDigits_digitsValue c _ decimal nonzero

theorem dropZeros_toDigits (digits : List Char) (decimal : allDigits digits = true)
    (positive : 0 < digitsValue digits) :
    digits.dropWhile (· == '0') = Nat.toDigits 10 (digitsValue digits) := by
  have kept := allDigits_dropZeros digits decimal
  have nonzero := head_dropZeros digits
  rw [← digitsValue_dropZeros] at positive ⊢
  cases stripped : digits.dropWhile (· == '0') with
  | nil =>
      rw [stripped] at positive
      exact absurd positive (Nat.lt_irrefl 0)
  | cons c rest =>
      rw [stripped] at kept nonzero
      exact (toDigits_digitsValue c rest kept (nonzero c rfl)).symm

theorem dropZeros_of_zero (digits : List Char) (decimal : allDigits digits = true)
    (zero : digitsValue digits = 0) : digits.dropWhile (· == '0') = [] := by
  have kept := allDigits_dropZeros digits decimal
  have nonzero := head_dropZeros digits
  rw [← digitsValue_dropZeros] at zero
  cases stripped : digits.dropWhile (· == '0') with
  | nil => rfl
  | cons c rest =>
      rw [stripped] at kept nonzero zero
      have low := le_digitsValue c rest ((allDigits_cons c rest).mp kept).1 (nonzero c rfl)
      have positive : 0 < 10 ^ rest.length := by positivity
      omega

theorem fractionDigits_length_le (digits : List Char) :
    (fractionDigits digits).length ≤ digits.length := by
  unfold fractionDigits
  rw [List.length_reverse, ← digits.length_reverse]
  exact (List.dropWhile_sublist _).length_le

theorem significant_le_iff (digits : List Char) (decimal : allDigits digits = true) (count : Nat) :
    significant digits ≤ count ↔ FewDigits count (digitsValue digits) := by
  unfold significant
  constructor
  · intro short
    have kept := allDigits_dropZeros digits decimal
    obtain ⟨power, padded⟩ := fractionDigits_zeros (digits.dropWhile (· == '0'))
    rw [← padded] at kept
    have bound := digitsValue_lt _ ((allDigits_append _ _).mp kept).1
    refine ⟨_, power, ?_, lt_of_lt_of_le bound (Nat.pow_le_pow_right (by decide) short)⟩
    rw [← digitsValue_padded, padded, digitsValue_dropZeros]
  · rintro ⟨front, power, same, few⟩
    rcases Nat.eq_zero_or_pos front with rfl | positive
    · rw [Nat.zero_mul] at same
      rw [dropZeros_of_zero digits decimal same]
      exact Nat.zero_le count
    · have value_pos : 0 < digitsValue digits := by
        rw [same]
        positivity
      have digits_pos : 0 < count := by
        apply Nat.pos_of_ne_zero
        rintro rfl
        omega
      rw [dropZeros_toDigits digits decimal value_pos, same, toDigits_padded front power positive,
        fractionDigits_padded]
      exact le_trans (fractionDigits_length_le _)
        ((Nat.length_toDigits_le_iff (by decide) digits_pos).mpr few)

def ScientificForm.significant (n : ScientificForm) : Nat := Number.significant n.mantissa.digits

theorem ScientificForm.magnitude_eq (n : ScientificForm) :
    n.magnitude = n.parts.coefficient * 10 ^ n.parts.scale := by
  have scale : n.parts.scale = n.exponent - n.mantissa.fraction.length := rfl
  have coefficient : n.parts.coefficient = digitsValue n.mantissa.digits := rfl
  rw [magnitude, DecimalForm.magnitude, scale, coefficient, zpow_sub₀ (by norm_num), zpow_natCast]
  ring

theorem ScientificForm.significant_le_iff (n : ScientificForm) (count : Nat) :
    n.significant ≤ count ↔ FewDigits count n.parts.coefficient :=
  Number.significant_le_iff _ n.mantissa.decimal count

/-- A form denotes a number of as many digits as it has, times a power of ten. -/
theorem ScientificForm.magnitude_short (n : ScientificForm) :
    ∃ (front : Nat) (scale : Int), front < 10 ^ n.significant ∧
      n.magnitude = (front : ℚ) * 10 ^ scale := by
  obtain ⟨front, power, coefficient, few⟩ :=
    (n.significant_le_iff n.significant).mp (Nat.le_refl _)
  refine ⟨front, power + n.parts.scale, few, ?_⟩
  rw [n.magnitude_eq, coefficient, zpow_add₀ (by norm_num), zpow_natCast]
  push_cast
  ring

end Significance

section Ways

/-- A form that denotes some digits times a power of ten and has no further ones but zeros. -/
structure ScientificForm.Shows (n : ScientificForm) (sign : Sign) (digits : List Char)
    (scale : Int) : Prop where
  negative : n.negative = sign.negative
  magnitude : n.magnitude = digitsValue digits * 10 ^ scale
  padded : ∃ count, n.parts.coefficient = digitsValue digits * 10 ^ count

theorem digitsValue_padded_front (digits : List Char) (count : Nat) :
    digitsValue (List.replicate count '0' ++ digits) = digitsValue digits := by
  rw [digitsValue_append, digitsValue_zeros, Nat.zero_mul, Nat.zero_add]

variable {digits : List Char} {scale : Int}

/-- Digits in positions, zeros around them and a point among all of these. -/
theorem pointed_form (sign : Sign) (whole fraction : List Char)
    (decimal : allDigits (whole ++ fraction) = true) (nonempty : whole ++ fraction ≠ [])
    (count : Nat) (padded : digitsValue (whole ++ fraction) = digitsValue digits * 10 ^ count)
    (place : (count : Int) - fraction.length = scale) :
    ∃ n : ScientificForm, n.text = sign.text ++ (whole ++ '.' :: fraction) ∧
      n.Shows sign digits scale := by
  let form : ScientificForm := ⟨⟨sign, whole, some fraction, decimal, nonempty⟩, none⟩
  have text : form.text = sign.text ++ (whole ++ '.' :: fraction) := List.append_nil _
  have magnitude : form.magnitude = digitsValue digits * 10 ^ scale := by
    have parts : form.magnitude =
        digitsValue (whole ++ fraction) / 10 ^ fraction.length * 10 ^ (0 : Int) := rfl
    rw [parts, padded, ← place, zpow_sub₀ (by norm_num), zpow_natCast, zpow_natCast, zpow_zero]
    push_cast
    ring
  exact ⟨form, text, rfl, magnitude, count, padded⟩

theorem positional_form (sign : Sign) (decimal : allDigits digits = true) (nonempty : digits ≠ [])
    (point : Int) :
    ∃ n : ScientificForm, n.text = sign.text ++ positional digits point ∧
      n.Shows sign digits (point - digits.length) := by
  unfold positional
  split
  · rename_i small
    have front : allDigits (['0'] ++ (zeros (-point).toNat ++ digits)) = true :=
      (allDigits_append _ _).mpr ⟨rfl, (allDigits_append _ _).mpr ⟨allDigits_zeros _, decimal⟩⟩
    have value : digitsValue (['0'] ++ (zeros (-point).toNat ++ digits)) =
        digitsValue digits * 10 ^ 0 := by
      have single : ['0'] = List.replicate 1 '0' := rfl
      rw [single, digitsValue_padded_front, zeros, digitsValue_padded_front, Nat.pow_zero,
        Nat.mul_one]
    have place : ((0 : Nat) : Int) - (zeros (-point).toNat ++ digits).length =
        point - digits.length := by
      simp only [zeros, List.length_append, List.length_replicate]
      omega
    have shown := pointed_form sign _ _ front (by simp) 0 value place
    simpa only [List.cons_append, List.nil_append, List.append_assoc] using shown
  · split
    · rename_i large whole
      have behind : allDigits (digits ++ zeros (point.toNat - digits.length) ++ ['0']) = true :=
        (allDigits_append _ _).mpr ⟨(allDigits_append _ _).mpr ⟨decimal, allDigits_zeros _⟩, rfl⟩
      have value : digitsValue (digits ++ zeros (point.toNat - digits.length) ++ ['0']) =
          digitsValue digits * 10 ^ (point.toNat - digits.length + 1) := by
        have single : ['0'] = List.replicate 1 '0' := rfl
        rw [single, digitsValue_padded, zeros, digitsValue_padded, Nat.pow_add, Nat.mul_assoc]
      exact pointed_form sign _ _ behind (by simp) _ value
        (by simp only [List.length_singleton]; omega)
    · rename_i large broken
      have joined := List.take_append_drop point.toNat digits
      apply pointed_form sign (digits.take point.toNat) (digits.drop point.toNat) _ _ 0
      · rw [joined, Nat.pow_zero, Nat.mul_one]
      · rw [List.length_drop]
        omega
      · rwa [joined]
      · rwa [joined]

theorem exponent_form (style : FloatStyle) (exponent : Int) :
    ∃ e : ExponentForm, e.power.value = exponent ∧ e.mark :: e.power.text =
      'e' :: ((if exponent < 0 then ['-'] else if style.plusSign then ['+'] else []) ++
        Nat.toDigits 10 exponent.natAbs) := by
  let power (sign : Sign) : ExponentForm := ⟨'e', rfl,
    ⟨sign, Nat.toDigits 10 exponent.natAbs, allDigits_toDigits _, Nat.toDigits_ne_nil⟩⟩
  have value (sign : Sign) : (power sign).power.value =
      if sign.negative then -(exponent.natAbs : Int) else exponent.natAbs := by
    change (if sign.negative then -(digitsValue (Nat.toDigits 10 exponent.natAbs) : Int)
      else digitsValue (Nat.toDigits 10 exponent.natAbs)) = _
    rw [digitsValue_toDigits]
  by_cases below : exponent < 0
  · refine ⟨power .minus, ?_, by rw [if_pos below]; rfl⟩
    rw [value]
    change -(exponent.natAbs : Int) = exponent
    omega
  · have natural : (exponent.natAbs : Int) = exponent := by omega
    rw [if_neg below]
    cases style.plusSign with
    | true => exact ⟨power .plus, (value .plus).trans natural, rfl⟩
    | false => exact ⟨power .absent, (value .absent).trans natural, rfl⟩

theorem exponential_form (style : FloatStyle) (sign : Sign) (decimal : allDigits digits = true)
    (nonempty : digits ≠ []) (exponent : Int) :
    ∃ n : ScientificForm, n.text = sign.text ++ exponential style digits exponent ∧
      n.Shows sign digits (exponent + 1 - digits.length) := by
  obtain ⟨power, value, written⟩ := exponent_form style exponent
  cases digits with
  | nil => exact absurd rfl nonempty
  | cons c rest =>
      let behind? : Option (List Char) := if rest.isEmpty then none else some rest
      have behind : behind?.getD [] = rest := by
        cases rest <;> rfl
      have point : pointText behind? = if rest.isEmpty then [] else '.' :: rest := by
        cases rest <;> rfl
      let form : ScientificForm := ⟨⟨sign, [c], behind?, by rwa [behind], by simp⟩, some power⟩
      have text : form.text = sign.text ++ exponential style (c :: rest) exponent := by
        have parts : form.text =
            sign.text ++ ([c] ++ pointText behind?) ++ power.mark :: power.power.text := rfl
        rw [parts, written, point]
        simp [exponential]
      have magnitude : form.magnitude =
          digitsValue (c :: rest) * 10 ^ (exponent + 1 - ((c :: rest).length : Int)) := by
        have parts : form.magnitude = digitsValue ([c] ++ behind?.getD []) /
            10 ^ (behind?.getD []).length * 10 ^ power.power.value := rfl
        have scale : exponent + 1 - ((c :: rest).length : Int) = exponent - rest.length := by
          rw [List.length_cons]
          omega
        rw [parts, value, behind, scale, zpow_sub₀ (by norm_num), zpow_natCast,
          List.singleton_append]
        ring
      have coefficient : form.parts.coefficient = digitsValue (c :: rest) * 10 ^ 0 := by
        have parts : form.parts.coefficient = digitsValue ([c] ++ behind?.getD []) := rfl
        rw [parts, behind, Nat.pow_zero, Nat.mul_one, List.singleton_append]
      exact ⟨form, text, rfl, magnitude, 0, coefficient⟩

end Ways

section Written

theorem fractionDigits_toDigits (value : Nat) (positive : 0 < value) :
    ∃ count, value = digitsValue (fractionDigits (Nat.toDigits 10 value)) * 10 ^ count ∧
      (Nat.toDigits 10 value).length = (fractionDigits (Nat.toDigits 10 value)).length + count ∧
      allDigits (fractionDigits (Nat.toDigits 10 value)) = true ∧
      fractionDigits (Nat.toDigits 10 value) ≠ [] := by
  obtain ⟨count, padded⟩ := fractionDigits_zeros (Nat.toDigits 10 value)
  have same : value = digitsValue (fractionDigits (Nat.toDigits 10 value)) * 10 ^ count := by
    rw [← digitsValue_padded, padded, digitsValue_toDigits]
  have decimal := allDigits_toDigits value
  rw [← padded] at decimal
  refine ⟨count, same, ?_, ((allDigits_append _ _).mp decimal).1, ?_⟩
  · have length := congrArg List.length padded
    rw [List.length_append, List.length_replicate] at length
    exact length.symm
  · intro nothing
    rw [nothing, digitsValue_nil, Nat.zero_mul] at same
    omega

theorem ShortDecimal.text_form (d : ShortDecimal) (style : FloatStyle) (sign : Sign)
    (positive : 0 < d.coefficient) :
    ∃ n : ScientificForm, n.text = sign.text ++ d.text style ∧ n.negative = sign.negative ∧
      n.magnitude = d.coefficient * 10 ^ d.scale ∧
      ∀ count, n.significant ≤ count ↔ FewDigits count d.coefficient := by
  obtain ⟨zeros, coefficient, length, decimal, nonempty⟩ :=
    fractionDigits_toDigits d.coefficient positive
  have shown : ∃ n : ScientificForm, n.text = sign.text ++ d.text style ∧
      n.Shows sign (fractionDigits (Nat.toDigits 10 d.coefficient)) (zeros + d.scale) := by
    have place : (zeros : Int) + d.scale = (Nat.toDigits 10 d.coefficient).length + d.scale -
        (fractionDigits (Nat.toDigits 10 d.coefficient)).length := by omega
    unfold text
    simp only
    split
    · rw [place]
      exact positional_form sign decimal nonempty _
    · have ways := exponential_form style sign decimal nonempty
        ((Nat.toDigits 10 d.coefficient).length + d.scale - 1)
      rw [Int.sub_add_cancel, ← place] at ways
      exact ways
  obtain ⟨n, text, negative, magnitude, count, digits⟩ := shown
  generalize fractionDigits (Nat.toDigits 10 d.coefficient) = written at *
  refine ⟨n, text, negative, ?_, fun few => ?_⟩
  · have whole : (d.coefficient : ℚ) = digitsValue written * 10 ^ zeros := by
      exact_mod_cast coefficient
    rw [magnitude, whole, zpow_add₀ (by norm_num), zpow_natCast, mul_assoc]
  · rw [n.significant_le_iff, digits, fewDigits_mul_iff, ← fewDigits_mul_iff _ _ zeros,
      ← coefficient]

/-- The text of a magnitude is rounded to it and has no more digits than any form that is. -/
theorem Format.text_form (f : Format) (style : FloatStyle) (negative : Bool) (n : Nat) :
    ∃ written : ScientificForm, written.text = f.text style negative n ∧
      written.negative = negative ∧ f.Covers n written.magnitude ∧
      ∀ other : ScientificForm, f.Covers n other.magnitude →
        written.significant ≤ other.significant := by
  obtain ⟨sign, rfl, text⟩ : ∃ sign : Sign, sign.negative = negative ∧
      f.text style negative n =
        sign.text ++ if n = 0 then ['0', '.', '0'] else (f.shortest n).text style := by
    cases negative with
    | true => exact ⟨.minus, rfl, rfl⟩
    | false => exact ⟨.absent, rfl, rfl⟩
  rw [text]
  by_cases zero : n = 0
  · subst zero
    rw [if_pos rfl]
    let form : ScientificForm := ⟨⟨sign, ['0'], some ['0'], rfl, by simp⟩, none⟩
    have magnitude : form.magnitude = f.value 0 := by
      rw [form.magnitude_eq, f.value_zero]
      exact zero_mul _
    refine ⟨form, List.append_nil _, rfl, ?_, fun other _ => Nat.zero_le _⟩
    rw [magnitude]
    exact f.covers_value 0
  · obtain ⟨positive, covered, fewest⟩ := f.shortest_spec n (Nat.pos_of_ne_zero zero)
    obtain ⟨form, written, negative, magnitude, digits⟩ :=
      (f.shortest n).text_form style sign positive
    rw [if_neg zero]
    refine ⟨form, written, negative, by rwa [magnitude], ?_⟩
    intro other covered'
    obtain ⟨front, scale, few, same⟩ := other.magnitude_short
    rw [same] at covered'
    exact (digits _).mpr (fewest _ front scale few covered')

end Written

end SchemaDefaults.Number
