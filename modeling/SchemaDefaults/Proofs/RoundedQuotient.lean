import Mathlib.Data.Nat.Log
import SchemaDefaults.Proofs.Rounding
/-!
The computed number of a quotient and of a decimal is that of the magnitude it is rounded to. The
quotient is scaled so that its whole part has the bits of a significand; rounding may carry it to
the first significand of the next band, which has the next number.
-/

namespace SchemaDefaults.Number

section Quotients

theorem roundQuotient_cases (num den : Nat) :
    (roundQuotient num den = num / den ∧
        (2 * (num % den) < den ∨ 2 * (num % den) = den ∧ num / den % 2 = 0)) ∨
      roundQuotient num den = num / den + 1 ∧
        (den < 2 * (num % den) ∨ 2 * (num % den) = den ∧ num / den % 2 = 1) := by
  unfold roundQuotient
  generalize num / den = whole
  generalize num % den = part
  simp only
  split_ifs <;> omega

/-- The quotient is at most half a step away, and less where the result is odd. -/
theorem roundQuotient_near (num den : Nat) (positive : 0 < den) :
    2 * num ≤ (2 * roundQuotient num den + 1) * den ∧
      2 * roundQuotient num den * den ≤ 2 * num + den ∧
      (roundQuotient num den % 2 = 1 →
        2 * num < (2 * roundQuotient num den + 1) * den ∧
          2 * roundQuotient num den * den < 2 * num + den) := by
  have split := Nat.div_add_mod num den
  have small := Nat.mod_lt num positive
  have cases := roundQuotient_cases num den
  generalize num / den = whole at *
  generalize num % den = part at *
  have below : 2 * whole * den = 2 * (den * whole) := by ring
  have middle : (2 * whole + 1) * den = 2 * (den * whole) + den := by ring
  have above : 2 * (whole + 1) * den = 2 * (den * whole) + 2 * den := by ring
  have beyond : (2 * (whole + 1) + 1) * den = 2 * (den * whole) + 3 * den := by ring
  rcases cases with ⟨same, down⟩ | ⟨same, up⟩
  · rw [same, below, middle]
    omega
  · rw [same, above, beyond]
    omega

end Quotients

namespace Format

section Nearest

variable (f : Format)

/-- The exponent at which a scaled quotient has the bits of a significand. -/
def exponentOf (num den : Nat) : Nat :=
  Nat.log2 (num * 2 ^ f.unitBits / den) + 1 - f.precision

def significandOf (num den : Nat) : Nat :=
  roundQuotient (num * 2 ^ f.unitBits) (den * 2 ^ f.exponentOf num den)

theorem nearestQuotient_eq (num den : Nat) :
    f.nearestQuotient num den =
      min f.infinite (f.exponentOf num den * f.band + f.significandOf num den) := rfl

variable {f : Format} {num den : Nat}

namespace Regular

variable (regular : f.Regular) (positive : 0 < den)

include regular positive

theorem scaled_lt : num * 2 ^ f.unitBits < den * 2 ^ f.exponentOf num den * (2 * f.band) := by
  have precision := regular.precision
  have bits : num * 2 ^ f.unitBits / den <
      2 ^ (f.exponentOf num den + f.precision) := by
    apply lt_of_lt_of_le Nat.lt_log2_self
    apply Nat.pow_le_pow_right (by decide)
    unfold exponentOf
    omega
  rw [Nat.div_lt_iff_lt_mul positive, Nat.pow_add] at bits
  rw [regular.two_band]
  linarith

theorem le_scaled (normal : f.exponentOf num den ≠ 0) :
    den * 2 ^ f.exponentOf num den * f.band ≤ num * 2 ^ f.unitBits := by
  have precision := regular.precision
  have log : Nat.log2 (num * 2 ^ f.unitBits / den) =
      f.exponentOf num den + (f.precision - 1) := by
    unfold exponentOf at *
    omega
  have nonzero : num * 2 ^ f.unitBits / den ≠ 0 := by
    intro zero
    rw [zero, Nat.log2_zero] at log
    omega
  have bits := Nat.log2_self_le nonzero
  rw [log, Nat.le_div_iff_mul_le positive, Nat.pow_add, ← band_eq] at bits
  linarith

theorem significandOf_le : f.significandOf num den ≤ 2 * f.band := by
  have step : 0 < den * 2 ^ f.exponentOf num den := by positivity
  have near := (roundQuotient_near (num * 2 ^ f.unitBits) _ step).2.1
  have bound : num * 2 ^ f.unitBits < den * 2 ^ f.exponentOf num den * (2 * f.band) :=
    regular.scaled_lt positive
  by_contra greater
  have more : 2 * f.band + 1 ≤ f.significandOf num den := by omega
  have scaled := Nat.mul_le_mul_right (den * 2 ^ f.exponentOf num den) more
  unfold significandOf at scaled
  nlinarith

theorem le_significandOf (normal : f.exponentOf num den ≠ 0) :
    f.band ≤ f.significandOf num den := by
  have step : 0 < den * 2 ^ f.exponentOf num den := by positivity
  have near := (roundQuotient_near (num * 2 ^ f.unitBits) _ step).1
  have bound := regular.le_scaled positive normal
  by_contra less
  have fewer : f.significandOf num den + 1 ≤ f.band := by omega
  have scaled := Nat.mul_le_mul_right (den * 2 ^ f.exponentOf num den) fewer
  unfold significandOf at scaled
  nlinarith

theorem normal : f.exponentOf num den = 0 ∨ f.band ≤ f.significandOf num den :=
  or_iff_not_imp_left.mpr (regular.le_significandOf positive)

end Regular

end Nearest

section Computed

/-- A quotient with a significand for it that is off by half a step at most. -/
structure Scaled (f : Format) (num den exponent significand : Nat) : Prop where
  positive : 0 < den
  normal : exponent = 0 ∨ f.band ≤ significand
  bound : significand ≤ 2 * f.band
  reach : exponent ≠ 0 → den * 2 ^ exponent * f.band ≤ num * 2 ^ f.unitBits
  low : 2 * significand * (den * 2 ^ exponent) ≤ 2 * (num * 2 ^ f.unitBits) + den * 2 ^ exponent
  high : 2 * (num * 2 ^ f.unitBits) ≤ (2 * significand + 1) * (den * 2 ^ exponent)
  odd : significand % 2 = 1 →
    2 * significand * (den * 2 ^ exponent) <
        2 * (num * 2 ^ f.unitBits) + den * 2 ^ exponent ∧
      2 * (num * 2 ^ f.unitBits) < (2 * significand + 1) * (den * 2 ^ exponent)

theorem quotient_le_iff {num den : Nat} (positive : 0 < den) (bits exponent count : Nat) :
    (num : ℚ) / den ≤ count * (2 ^ exponent / 2 ^ bits) / 2 ↔
      2 * (num * 2 ^ bits) ≤ count * (den * 2 ^ exponent) := by
  have bottom : (0 : ℚ) < den := by exact_mod_cast positive
  rw [← mul_div_assoc, div_div, div_le_div_iff₀ bottom (by positivity)]
  constructor
  · intro order
    have natural : num * (2 ^ bits * 2) ≤ count * 2 ^ exponent * den := by exact_mod_cast order
    linarith
  · intro order
    have natural : num * (2 ^ bits * 2) ≤ count * 2 ^ exponent * den := by linarith
    exact_mod_cast natural

theorem le_quotient_iff {num den : Nat} (positive : 0 < den) (bits exponent count : Nat) :
    (count : ℚ) * (2 ^ exponent / 2 ^ bits) / 2 ≤ num / den ↔
      count * (den * 2 ^ exponent) ≤ 2 * (num * 2 ^ bits) := by
  have bottom : (0 : ℚ) < den := by exact_mod_cast positive
  rw [← mul_div_assoc, div_div, div_le_div_iff₀ (by positivity) bottom]
  constructor
  · intro order
    have natural : count * 2 ^ exponent * den ≤ num * (2 ^ bits * 2) := by exact_mod_cast order
    linarith
  · intro order
    have natural : count * 2 ^ exponent * den ≤ num * (2 ^ bits * 2) := by linarith
    exact_mod_cast natural

theorem value_step (f : Format) (exponent significand : Nat)
    (normal : exponent = 0 ∨ f.band ≤ significand) (bound : significand ≤ 2 * f.band) :
    f.value (exponent * f.band + significand) =
      significand * (2 ^ exponent / 2 ^ f.unitBits) := by
  rw [f.value_number exponent significand normal bound, mul_div_assoc]

/-- The next number is at least a step away, two where the significand has been carried. -/
theorem step_le_value (f : Format) (exponent significand : Nat)
    (normal : exponent = 0 ∨ f.band ≤ significand) (bound : significand ≤ 2 * f.band) :
    (significand + 1) * (2 ^ exponent / 2 ^ f.unitBits) ≤
      f.value (exponent * f.band + significand + 1) := by
  have magnitudes : (significand + 1) * 2 ^ exponent ≤
      f.magnitude (exponent * f.band + significand + 1) := by
    rcases Nat.lt_or_eq_of_le bound with less | rfl
    · rw [f.magnitude_succ exponent significand normal less,
        f.magnitude_number exponent significand normal bound]
      exact Nat.le_of_eq (Nat.succ_mul significand (2 ^ exponent))
    · have carried : exponent * f.band + 2 * f.band = (exponent + 1) * f.band + f.band := by ring
      have inside := f.band_pos
      rw [carried, f.magnitude_succ _ _ (.inr (Nat.le_refl _)) (by omega), ← carried,
        f.magnitude_number exponent _ normal bound, Nat.pow_succ, Nat.succ_mul]
      have step : 0 < 2 ^ exponent := by positivity
      omega
  rw [value, ← mul_div_assoc]
  exact div_le_div_of_nonneg_right (by exact_mod_cast magnitudes) (by positivity)

namespace Scaled

variable {f : Format} {num den exponent significand : Nat}

theorem upper_near (scaled : f.Scaled num den exponent significand) :
    (num : ℚ) / den ≤ f.upper (exponent * f.band + significand) ∧
      (significand % 2 = 1 → (num : ℚ) / den < f.upper (exponent * f.band + significand)) := by
  have middle : ((2 * significand + 1 : Nat) : ℚ) * (2 ^ exponent / 2 ^ f.unitBits) / 2 ≤
      f.upper (exponent * f.band + significand) := by
    have next := f.step_le_value exponent significand scaled.normal scaled.bound
    rw [upper, f.value_step exponent significand scaled.normal scaled.bound]
    generalize (2 : ℚ) ^ exponent / 2 ^ f.unitBits = step at next
    push_cast
    linarith
  constructor
  · exact le_trans ((quotient_le_iff scaled.positive _ _ _).mpr scaled.high) middle
  · intro odd
    apply lt_of_lt_of_le _ middle
    rw [← not_le, le_quotient_iff scaled.positive]
    exact Nat.not_le.mpr (scaled.odd odd).2

theorem lower_inside (scaled : f.Scaled num den exponent significand) (nonzero : significand ≠ 0)
    (inside : exponent = 0 ∨ f.band < significand) :
    f.lower (exponent * f.band + significand) ≤ (num : ℚ) / den ∧
      (significand % 2 = 1 → f.lower (exponent * f.band + significand) < (num : ℚ) / den) := by
  obtain ⟨previous, rfl⟩ := Nat.exists_eq_succ_of_ne_zero nonzero
  have bound := scaled.bound
  have middle : f.lower (exponent * f.band + (previous + 1)) =
      ((2 * previous + 1 : Nat) : ℚ) * (2 ^ exponent / 2 ^ f.unitBits) / 2 := by
    rw [lower, f.value_step exponent (previous + 1) scaled.normal bound, ← Nat.add_assoc,
      Nat.add_sub_cancel,
      f.value_step exponent previous (inside.imp_right Nat.lt_succ_iff.mp) (by omega)]
    generalize (2 : ℚ) ^ exponent / 2 ^ f.unitBits = step
    push_cast
    ring
  have halves : 2 * (previous + 1) * (den * 2 ^ exponent) =
      (2 * previous + 1) * (den * 2 ^ exponent) + den * 2 ^ exponent := by ring
  rw [Nat.succ_eq_add_one, middle]
  constructor
  · have low := scaled.low
    rw [Nat.succ_eq_add_one, halves] at low
    exact (le_quotient_iff scaled.positive _ _ _).mpr (Nat.le_of_add_le_add_right low)
  · intro odd
    have low := (scaled.odd odd).1
    rw [Nat.succ_eq_add_one, halves] at low
    rw [← not_le, quotient_le_iff scaled.positive]
    exact Nat.not_le.mpr (Nat.lt_of_add_lt_add_right low)

theorem lower_first (scaled : f.Scaled num den exponent significand) (nonzero : exponent ≠ 0)
    (first : significand = f.band) :
    f.lower (exponent * f.band + significand) < (num : ℚ) / den := by
  have band := f.band_pos
  have reach := scaled.reach nonzero
  have value : f.value (exponent * f.band + significand) ≤ (num : ℚ) / den := by
    have whole : 2 * significand * (den * 2 ^ exponent) ≤ 2 * (num * 2 ^ f.unitBits) := by
      rw [first]
      linarith
    have halves := (le_quotient_iff scaled.positive f.unitBits exponent _).mpr whole
    rw [f.value_step exponent significand scaled.normal scaled.bound]
    generalize (2 : ℚ) ^ exponent / 2 ^ f.unitBits = step at halves
    push_cast at halves
    linarith
  exact lt_of_lt_of_le (f.lower_lt (by omega)) value

theorem lower_near (scaled : f.Scaled num den exponent significand) :
    f.lower (exponent * f.band + significand) ≤ (num : ℚ) / den ∧
      (significand % 2 = 1 → f.lower (exponent * f.band + significand) < (num : ℚ) / den) := by
  have band := f.band_pos
  have normal := scaled.normal
  by_cases zero : significand = 0
  · -- Nothing lies below zero.
    have exponent_zero : exponent = 0 := by omega
    rw [zero, exponent_zero, Nat.zero_mul, Nat.zero_add, f.lower_zero]
    exact ⟨by positivity, by omega⟩
  · by_cases inside : exponent = 0 ∨ f.band < significand
    · exact scaled.lower_inside zero inside
    · have strict := scaled.lower_first (by omega) (by omega)
      exact ⟨le_of_lt strict, fun _ => strict⟩

theorem covers (scaled : f.Scaled num den exponent significand) (regular : f.Regular) :
    f.Covers (exponent * f.band + significand) ((num : ℚ) / den) := by
  refine ⟨scaled.lower_near.1, scaled.upper_near.1, fun odd => ?_⟩
  rw [regular.number_parity] at odd
  exact ⟨scaled.lower_near.2 odd, scaled.upper_near.2 odd⟩

end Scaled

namespace Regular

variable {f : Format} (regular : f.Regular)

include regular

theorem scaled (num : Nat) {den : Nat} (positive : 0 < den) :
    f.Scaled num den (f.exponentOf num den) (f.significandOf num den) := by
  have near := roundQuotient_near (num * 2 ^ f.unitBits) (den * 2 ^ f.exponentOf num den)
    (by positivity)
  exact
    { positive := positive
      normal := regular.normal positive
      bound := regular.significandOf_le positive
      reach := regular.le_scaled positive
      low := near.2.1
      high := near.1
      odd := fun odd => (near.2.2 odd).symm }

theorem nearestQuotient_covers (num : Nat) {den : Nat} (positive : 0 < den) :
    ∃ n, f.Covers n ((num : ℚ) / den) ∧ f.nearestQuotient num den = min f.infinite n :=
  ⟨_, (regular.scaled num positive).covers regular, nearestQuotient_eq f num den⟩

theorem nearestQuotient_exact (num : Nat) {den : Nat} (positive : 0 < den) (n : Nat)
    (finite : n ≤ f.infinite) (exact : (num : ℚ) / den = f.value n) :
    f.nearestQuotient num den = n := by
  obtain ⟨m, covered, number⟩ := regular.nearestQuotient_covers num positive
  rw [exact] at covered
  rw [number, covered.unique (f.covers_value n), Nat.min_eq_right finite]

end Regular

end Computed

section Decimals

theorem datum_min (f : Format) (n : Nat) : f.datum (min f.infinite n) = f.datum n := by
  unfold datum
  by_cases finite : n < f.infinite
  · rw [Nat.min_eq_right (Nat.le_of_lt finite)]
  · rw [Nat.min_eq_left (Nat.not_lt.mp finite), if_neg (Nat.lt_irrefl _), if_neg finite]

namespace Regular

variable {f : Format} (regular : f.Regular)

include regular

theorem overflow_lt (power : Nat) (large : 400 < power) : f.overflow < 10 ^ power := by
  have reach := regular.reach
  have bands := regular.bands
  have bits : (2 : ℚ) ^ f.precision * 2 ^ (f.bands - 2) ≤ 10 ^ power * 2 ^ f.unitBits := by
    calc (2 : ℚ) ^ f.precision * 2 ^ (f.bands - 2)
        = 2 ^ (f.precision + (f.bands - 2)) := (pow_add 2 _ _).symm
      _ ≤ 2 ^ (3 * power + f.unitBits) := pow_le_pow_right₀ (by norm_num) (by omega)
      _ = 8 ^ power * 2 ^ f.unitBits := by rw [pow_add, pow_mul]; norm_num
      _ ≤ 10 ^ power * 2 ^ f.unitBits := by gcongr; norm_num
  have half : (0 : ℚ) < 1 / 2 * 2 ^ (f.bands - 2) := by positivity
  rw [overflow, div_lt_iff₀ (by positivity), sub_mul]
  linarith

theorem value_one : f.value 1 = 1 / 2 ^ f.unitBits := by
  have precision := regular.precision
  have inside : 1 < f.band := by
    rw [band_eq]
    exact Nat.one_lt_two_pow (by omega)
  rw [value, f.magnitude_low 1 inside, Nat.cast_one]

/-- Whatever is at least such a power of ten is rounded to infinity. -/
theorem infinite_le {n : Nat} {q : ℚ} (covered : f.Covers n q) (power : Nat)
    (large : 400 < power) (huge : 10 ^ power ≤ q) : f.infinite ≤ n := by
  by_contra finite
  have order := f.upper_mono (show n ≤ f.infinite - 1 by omega)
  rw [← regular.overflow_eq] at order
  linarith [regular.overflow_lt power large, covered.high]

/-- A decimal that is too small for its bits is rounded to zero. -/
theorem tiny_covers (coefficient power : Nat)
    (tiny : Nat.log2 coefficient + 1400 < 3 * (power + 1)) :
    f.Covers 0 ((coefficient : ℚ) / (10 ^ (power + 1) : Nat)) := by
  have unit := regular.unit
  have small : coefficient * 2 ^ (f.unitBits + 1) ≤ 10 ^ (power + 1) := by
    calc coefficient * 2 ^ (f.unitBits + 1)
        ≤ 2 ^ (Nat.log2 coefficient + 1) * 2 ^ (f.unitBits + 1) :=
          Nat.mul_le_mul_right _ (Nat.le_of_lt Nat.lt_log2_self)
      _ = 2 ^ (Nat.log2 coefficient + 1 + (f.unitBits + 1)) := (Nat.pow_add 2 _ _).symm
      _ ≤ 2 ^ (3 * (power + 1)) := Nat.pow_le_pow_right (by decide) (by omega)
      _ = 8 ^ (power + 1) := Nat.pow_mul 2 3 (power + 1)
      _ ≤ 10 ^ (power + 1) := Nat.pow_le_pow_left (by decide) _
  refine ⟨?_, ?_, fun odd => absurd odd (by decide)⟩
  · rw [f.lower_zero]
    positivity
  · rw [upper, f.value_zero, regular.value_one, zero_add, div_div, ← pow_succ,
      div_le_div_iff₀ (by positivity) (by positivity), one_mul]
    exact_mod_cast small

theorem nearestDecimal_whole (coefficient power : Nat) (nonzero : coefficient ≠ 0) :
    ∃ n, f.Covers n ((coefficient : ℚ) * 10 ^ Int.ofNat power) ∧
      f.nearestDecimal coefficient (.ofNat power) = min f.infinite n := by
  obtain ⟨n, covered, number⟩ :=
    regular.nearestQuotient_covers (coefficient * Nat.pow 10 power) Nat.one_pos
  have whole : (coefficient : ℚ) * 10 ^ Int.ofNat power =
      ((coefficient * Nat.pow 10 power : Nat) : ℚ) / (1 : Nat) := by
    rw [Int.ofNat_eq_natCast, zpow_natCast, Nat.cast_one, div_one]
    exact_mod_cast rfl
  rw [← whole] at covered
  refine ⟨n, covered, ?_⟩
  unfold nearestDecimal
  simp only [if_neg nonzero]
  by_cases large : 400 < power
  · have huge : (10 : ℚ) ^ power ≤ coefficient * 10 ^ Int.ofNat power := by
      have one : (1 : ℚ) ≤ coefficient := by exact_mod_cast Nat.pos_of_ne_zero nonzero
      rw [Int.ofNat_eq_natCast, zpow_natCast]
      exact le_mul_of_one_le_left (by positivity) one
    rw [if_pos large, Nat.min_eq_left (regular.infinite_le covered power large huge)]
  · rw [if_neg large]
    exact number

theorem nearestDecimal_broken (coefficient power : Nat) (nonzero : coefficient ≠ 0) :
    ∃ n, f.Covers n ((coefficient : ℚ) * 10 ^ Int.negSucc power) ∧
      f.nearestDecimal coefficient (.negSucc power) = min f.infinite n := by
  have broken : (coefficient : ℚ) * 10 ^ Int.negSucc power =
      (coefficient : ℚ) / (10 ^ (power + 1) : Nat) := by
    rw [zpow_negSucc, ← div_eq_mul_inv]
    push_cast
    rfl
  rw [broken]
  unfold nearestDecimal
  simp only [if_neg nonzero]
  by_cases tiny : Nat.log2 coefficient + 1400 < 3 * (power + 1)
  · rw [if_pos tiny]
    exact ⟨0, regular.tiny_covers coefficient power tiny, (Nat.min_zero _).symm⟩
  · rw [if_neg tiny]
    exact regular.nearestQuotient_covers coefficient (by positivity)

theorem nearestDecimal_covers (coefficient : Nat) (scale : Int) :
    ∃ n, f.Covers n ((coefficient : ℚ) * 10 ^ scale) ∧
      f.nearestDecimal coefficient scale = min f.infinite n := by
  by_cases zero : coefficient = 0
  · refine ⟨0, ?_, ?_⟩
    · rw [zero, Nat.cast_zero, zero_mul, ← f.value_zero]
      exact f.covers_value 0
    · rw [Nat.min_zero]
      exact if_pos zero
  · cases scale with
    | ofNat power => exact regular.nearestDecimal_whole coefficient power zero
    | negSucc power => exact regular.nearestDecimal_broken coefficient power zero

theorem nearestDecimal_le (coefficient : Nat) (scale : Int) :
    f.nearestDecimal coefficient scale ≤ f.infinite := by
  obtain ⟨n, -, number⟩ := regular.nearestDecimal_covers coefficient scale
  rw [number]
  exact Nat.min_le_left _ _

/-- The computed number is that of the magnitude to which the decimal is rounded. -/
theorem nearestDecimal_rounds (coefficient : Nat) (scale : Int) :
    f.RoundsTo ((coefficient : ℚ) * 10 ^ scale)
      (f.datum (f.nearestDecimal coefficient scale)) := by
  obtain ⟨n, covered, number⟩ := regular.nearestDecimal_covers coefficient scale
  rw [number, f.datum_min]
  exact regular.covers_rounds covered

end Regular

end Decimals

end Format

end SchemaDefaults.Number
