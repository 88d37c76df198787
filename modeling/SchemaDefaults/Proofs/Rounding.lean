import Mathlib.Algebra.Order.Field.Power
import Mathlib.Algebra.Order.Field.Rat
import Mathlib.Algebra.Ring.Parity
import Mathlib.Order.Monotone.Basic
import Mathlib.Tactic.FieldSimp
import Mathlib.Tactic.Linarith
import Mathlib.Tactic.Positivity
import Mathlib.Tactic.Ring
import SchemaDefaults.Number.Float
/-!
Magnitudes of a binary format and rounding to them. A finite value is a significand of limited
precision times a power of two of limited range. Counted from zero upwards these values have the
numbers by which the library refers to them, and the parity of the number is that of the
significand.

A magnitude is rounded to the nearest finite value, from the middle between two of them to the one
with the even significand, and to infinity from half a step above the largest finite value on. The
values that are rounded to one magnitude lie between the middles to its neighbours. The library
computes the number of the magnitude where the value lies.
-/

namespace SchemaDefaults.Number

namespace Format

/-- What both formats have in common: there is more than one bit and more than one band, and no
decimal outside the reach of `10 ^ 401` and `2 ^ -1399` is among the values. -/
structure Regular (f : Format) : Prop where
  precision : 2 ≤ f.precision
  bands : 2 ≤ f.bands
  reach : f.precision + f.bands ≤ f.unitBits + 1205
  unit : f.unitBits ≤ 1398

theorem binary32_regular : binary32.Regular := by constructor <;> decide

theorem binary64_regular : binary64.Regular := by constructor <;> decide

section Numbers

variable (f : Format)

theorem band_eq : f.band = 2 ^ (f.precision - 1) := rfl

theorem band_pos : 0 < f.band := Nat.pow_pos (by decide)

theorem magnitude_low (n : Nat) (low : n < f.band) : f.magnitude n = n := if_pos low

theorem magnitude_high (exponent place : Nat) (inside : place < f.band) :
    f.magnitude ((exponent + 1) * f.band + place) = (f.band + place) * 2 ^ exponent := by
  have beyond : ¬ (exponent + 1) * f.band + place < f.band := by
    have whole : f.band ≤ (exponent + 1) * f.band :=
      Nat.le_mul_of_pos_left f.band (Nat.succ_pos exponent)
    omega
  have quotient : ((exponent + 1) * f.band + place) / f.band = exponent + 1 := by
    rw [Nat.mul_comm, Nat.mul_add_div f.band_pos, Nat.div_eq_of_lt inside, Nat.add_zero]
  have remainder : ((exponent + 1) * f.band + place) % f.band = place := by
    rw [Nat.mul_comm, Nat.mul_add_mod, Nat.mod_eq_of_lt inside]
  rw [magnitude, if_neg beyond, quotient, remainder]
  rfl

/-- The number of a significand at an exponent. From the second band on the significand has its
highest bit; the bound may be reached, where the next band begins. -/
theorem magnitude_number (exponent significand : Nat)
    (normal : exponent = 0 ∨ f.band ≤ significand) (bound : significand ≤ 2 * f.band) :
    f.magnitude (exponent * f.band + significand) = significand * 2 ^ exponent := by
  by_cases low : significand < f.band
  · have zero : exponent = 0 := normal.resolve_right (Nat.not_le.mpr low)
    subst zero
    rw [Nat.zero_mul, Nat.zero_add, f.magnitude_low _ low, Nat.pow_zero, Nat.mul_one]
  · obtain ⟨place, rfl⟩ := Nat.exists_eq_add_of_le (Nat.not_lt.mp low)
    by_cases inside : place < f.band
    · have number : exponent * f.band + (f.band + place) = (exponent + 1) * f.band + place := by
        ring
      rw [number, f.magnitude_high exponent place inside]
    · have full : place = f.band := by omega
      subst full
      have number : exponent * f.band + (f.band + f.band) = (exponent + 1 + 1) * f.band + 0 := by
        ring
      rw [number, f.magnitude_high (exponent + 1) 0 f.band_pos, Nat.pow_succ]
      ring

theorem number_parts (n : Nat) :
    ∃ exponent significand, (exponent = 0 ∨ f.band ≤ significand) ∧ significand < 2 * f.band ∧
      n = exponent * f.band + significand := by
  have split := Nat.div_add_mod n f.band
  have place := Nat.mod_lt n f.band_pos
  cases band : n / f.band with
  | zero =>
      rw [band, Nat.mul_zero, Nat.zero_add] at split
      refine ⟨0, n, .inl rfl, ?_, by omega⟩
      omega
  | succ exponent =>
      rw [band] at split
      refine ⟨exponent, f.band + n % f.band, .inr (Nat.le_add_right _ _), by omega, ?_⟩
      rw [← split, Nat.mul_add_mod, Nat.mod_mod]
      ring

theorem magnitude_succ (exponent significand : Nat)
    (normal : exponent = 0 ∨ f.band ≤ significand) (bound : significand < 2 * f.band) :
    f.magnitude (exponent * f.band + significand + 1) =
      f.magnitude (exponent * f.band + significand) + 2 ^ exponent := by
  rw [f.magnitude_number exponent significand normal (Nat.le_of_lt bound), Nat.add_assoc,
    f.magnitude_number exponent (significand + 1) (normal.imp_right (by omega)) bound]
  ring

theorem magnitude_strictMono : StrictMono f.magnitude := by
  apply strictMono_nat_of_lt_succ
  intro n
  obtain ⟨exponent, significand, normal, bound, rfl⟩ := f.number_parts n
  rw [f.magnitude_succ exponent significand normal bound]
  exact Nat.lt_add_of_pos_right (by positivity)

theorem number_lt_infinite (exponent significand : Nat) (bound : significand < 2 * f.band)
    (inside : exponent + 1 < f.bands) : exponent * f.band + significand < f.infinite := by
  have rows : (exponent + 2) * f.band ≤ f.bands * f.band := Nat.mul_le_mul_right _ inside
  rw [infinite]
  nlinarith

/-- A significand without its highest bit can be doubled at the next lower exponent. -/
theorem normalized (significand exponent : Nat) (bound : significand < 2 * f.band) :
    ∃ e s, (e = 0 ∨ f.band ≤ s) ∧ s < 2 * f.band ∧ e ≤ exponent ∧
      s * 2 ^ e = significand * 2 ^ exponent := by
  induction exponent generalizing significand with
  | zero => exact ⟨0, significand, .inl rfl, bound, Nat.le_refl 0, rfl⟩
  | succ exponent ih =>
      by_cases normal : f.band ≤ significand
      · exact ⟨exponent + 1, significand, .inr normal, bound, Nat.le_refl _, rfl⟩
      · obtain ⟨e, s, normal, bound, lower, same⟩ := ih (2 * significand) (by omega)
        refine ⟨e, s, normal, bound, by omega, ?_⟩
        rw [same, Nat.pow_succ]
        ring

theorem magnitude_zero : f.magnitude 0 = 0 := f.magnitude_low 0 f.band_pos

end Numbers

section Values

def value (f : Format) (n : Nat) : ℚ := f.magnitude n / 2 ^ f.unitBits

def IsFinite (f : Format) (x : ℚ) : Prop :=
  ∃ significand exponent : Nat, significand < 2 ^ f.precision ∧ exponent + 1 < f.bands ∧
    x = significand * 2 ^ exponent / 2 ^ f.unitBits

/-- The significand is even where it is as large as can be, or where the exponent is the least. -/
def IsEven (f : Format) (x : ℚ) : Prop :=
  ∃ significand exponent : Nat, Even significand ∧ significand < 2 ^ f.precision ∧
    (exponent = 0 ∨ 2 ^ (f.precision - 1) ≤ significand) ∧
    x = significand * 2 ^ exponent / 2 ^ f.unitBits

variable {f : Format}

theorem value_strictMono (f : Format) : StrictMono f.value := by
  intro n m less
  have magnitudes : (f.magnitude n : ℚ) < f.magnitude m := by
    exact_mod_cast f.magnitude_strictMono less
  exact div_lt_div_of_pos_right magnitudes (by positivity)

theorem value_zero (f : Format) : f.value 0 = 0 := by
  rw [value, f.magnitude_zero, Nat.cast_zero, zero_div]

theorem value_number (f : Format) (exponent significand : Nat)
    (normal : exponent = 0 ∨ f.band ≤ significand) (bound : significand ≤ 2 * f.band) :
    f.value (exponent * f.band + significand) =
      significand * 2 ^ exponent / 2 ^ f.unitBits := by
  rw [value, f.magnitude_number exponent significand normal bound]
  push_cast
  rfl

namespace Regular

variable (regular : f.Regular)

include regular

theorem two_band : 2 * f.band = 2 ^ f.precision := by
  have precision := regular.precision
  rw [band_eq, ← Nat.pow_succ']
  congr 1
  omega

theorem band_even : f.band % 2 = 0 := by
  have precision := regular.precision
  have split : f.precision - 1 = (f.precision - 2) + 1 := by omega
  rw [band_eq, split, Nat.pow_succ, Nat.mul_mod_left]

theorem number_parity (exponent significand : Nat) :
    (exponent * f.band + significand) % 2 = significand % 2 := by
  have even := regular.band_even
  rw [Nat.add_mod, Nat.mul_mod, even, Nat.mul_zero, Nat.zero_mod, Nat.zero_add, Nat.mod_mod]

theorem isFinite_iff (x : ℚ) : f.IsFinite x ↔ ∃ n < f.infinite, f.value n = x := by
  constructor
  · rintro ⟨significand, exponent, bound, inside, rfl⟩
    rw [← regular.two_band] at bound
    obtain ⟨e, s, normal, bound, lower, same⟩ := f.normalized significand exponent bound
    refine ⟨e * f.band + s, f.number_lt_infinite e s bound (by omega), ?_⟩
    rw [f.value_number e s normal (Nat.le_of_lt bound)]
    exact_mod_cast congrArg (fun magnitude : Nat => (magnitude : ℚ) / 2 ^ f.unitBits) same
  · rintro ⟨n, finite, rfl⟩
    obtain ⟨exponent, significand, normal, bound, rfl⟩ := f.number_parts n
    refine ⟨significand, exponent, ?_, ?_, ?_⟩
    · rw [← regular.two_band]
      exact bound
    · -- Beyond the last exponent only the significands of the first band would be left.
      rcases normal with rfl | normal
      · exact regular.bands
      · have rows : (exponent + 1) * f.band < f.bands * f.band := by
          rw [infinite] at finite
          nlinarith
        exact Nat.lt_of_mul_lt_mul_right rows
    · exact f.value_number exponent significand normal (Nat.le_of_lt bound)

theorem isEven_iff (n : Nat) : f.IsEven (f.value n) ↔ n % 2 = 0 := by
  constructor
  · rintro ⟨significand, exponent, even, bound, normal, same⟩
    rw [← regular.two_band] at bound
    rw [← f.value_number exponent significand normal (Nat.le_of_lt bound)] at same
    rw [f.value_strictMono.injective same, regular.number_parity]
    exact Nat.even_iff.mp even
  · intro even
    obtain ⟨exponent, significand, normal, bound, rfl⟩ := f.number_parts n
    rw [regular.number_parity] at even
    refine ⟨significand, exponent, Nat.even_iff.mpr even, ?_, normal, ?_⟩
    · rw [← regular.two_band]
      exact bound
    · exact f.value_number exponent significand normal (Nat.le_of_lt bound)

end Regular

end Values

end Format

section Reference

inductive Rounded where
  | finite (value : ℚ)
  | infinite

namespace Format

/-- Half a step above the largest finite value. -/
def overflow (f : Format) : ℚ :=
  (2 ^ f.precision - 1 / 2) * 2 ^ (f.bands - 2) / 2 ^ f.unitBits

inductive RoundsTo (f : Format) (q : ℚ) : Rounded → Prop where
  | finite (x : ℚ) (below : q < f.overflow) (finite : f.IsFinite x)
      (nearest : ∀ y, f.IsFinite y → |q - x| ≤ |q - y|)
      (even : ∀ y, f.IsFinite y → y ≠ x → |q - x| = |q - y| → f.IsEven x) :
      RoundsTo f q (.finite x)
  | infinite (beyond : f.overflow ≤ q) : RoundsTo f q .infinite

def datum (f : Format) (n : Nat) : Rounded :=
  if n < f.infinite then .finite (f.value n) else .infinite

end Format

end Reference

section Intervals

theorem nearer_low_iff {a b : ℚ} (less : a < b) (q : ℚ) :
    |q - a| ≤ |q - b| ↔ q ≤ (a + b) / 2 := by
  rw [← sq_le_sq]
  constructor
  · intro nearer
    nlinarith
  · intro below
    nlinarith

theorem nearer_high_iff {a b : ℚ} (less : a < b) (q : ℚ) :
    |q - b| ≤ |q - a| ↔ (a + b) / 2 ≤ q := by
  rw [← sq_le_sq]
  constructor
  · intro nearer
    nlinarith
  · intro above
    nlinarith

namespace Format

/-- The middle to the neighbour below; zero has none. -/
def lower (f : Format) (n : Nat) : ℚ := (f.value (n - 1) + f.value n) / 2

/-- The middle to the neighbour above. -/
def upper (f : Format) (n : Nat) : ℚ := (f.value n + f.value (n + 1)) / 2

/-- The ends of the interval belong to the even numbers. -/
structure Covers (f : Format) (n : Nat) (q : ℚ) : Prop where
  low : f.lower n ≤ q
  high : q ≤ f.upper n
  odd : n % 2 = 1 → f.lower n < q ∧ q < f.upper n

variable {f : Format} {n m : Nat} {q : ℚ}

theorem lower_succ (f : Format) (n : Nat) : f.lower (n + 1) = f.upper n := rfl

theorem lower_zero (f : Format) : f.lower 0 = 0 := by simp [lower, f.value_zero]

theorem lower_le (f : Format) (n : Nat) : f.lower n ≤ f.value n := by
  have order := (f.value_strictMono.monotone (Nat.sub_le n 1))
  unfold lower
  linarith

theorem lt_upper (f : Format) (n : Nat) : f.value n < f.upper n := by
  have order := f.value_strictMono (Nat.lt_succ_self n)
  unfold upper
  linarith

theorem lower_lt (f : Format) (positive : 0 < n) : f.lower n < f.value n := by
  have order := f.value_strictMono (Nat.sub_lt positive Nat.one_pos)
  unfold lower
  linarith

theorem upper_mono (f : Format) (le : n ≤ m) : f.upper n ≤ f.upper m := by
  have low := f.value_strictMono.monotone le
  have high := f.value_strictMono.monotone (Nat.succ_le_succ le)
  unfold upper
  linarith

theorem upper_le_lower (f : Format) (less : n < m) : f.upper n ≤ f.lower m := by
  obtain ⟨more, rfl⟩ := Nat.exists_eq_add_of_lt less
  rw [f.lower_succ]
  exact f.upper_mono (Nat.le_add_right n more)

theorem covers_value (f : Format) (n : Nat) : f.Covers n (f.value n) := by
  refine ⟨f.lower_le n, le_of_lt (f.lt_upper n), fun odd => ⟨f.lower_lt ?_, f.lt_upper n⟩⟩
  omega

theorem Covers.le (covered : f.Covers n q) (covered' : f.Covers m q) : n ≤ m := by
  by_contra greater
  have less : m < n := Nat.not_le.mp greater
  have meet := f.upper_le_lower less
  -- Of two intervals at most the ends meet, and of two neighbours one is odd.
  have equal : f.upper m = f.lower n :=
    le_antisymm meet (le_trans covered.low covered'.high)
  have neighbours : n = m + 1 := by
    obtain ⟨more, rfl⟩ := Nat.exists_eq_add_of_lt less
    cases more with
    | zero => rfl
    | succ more =>
        have apart : f.upper m < f.upper (m + (more + 1)) := by
          have low := f.value_strictMono (show m < m + (more + 1) by omega)
          have high := f.value_strictMono (show m + 1 < m + (more + 1) + 1 by omega)
          unfold upper
          linarith
        rw [f.lower_succ] at equal
        exact absurd equal (ne_of_lt apart)
  rcases Nat.mod_two_eq_zero_or_one n with even | odd
  · have strict := (covered'.odd (by omega)).2
    linarith [covered.low]
  · have strict := (covered.odd odd).1
    linarith [covered'.high]

theorem Covers.unique (covered : f.Covers n q) (covered' : f.Covers m q) : n = m :=
  Nat.le_antisymm (covered.le covered') (covered'.le covered)

/-- Between two values of one interval there are only values of that interval. -/
theorem Covers.between {p r : ℚ} (covered : f.Covers n p) (covered' : f.Covers n r)
    (low : p ≤ q) (high : q ≤ r) : f.Covers n q :=
  ⟨le_trans covered.low low, le_trans high covered'.high,
    fun odd => ⟨lt_of_lt_of_le (covered.odd odd).1 low, lt_of_le_of_lt high (covered'.odd odd).2⟩⟩

theorem Covers.nearest (covered : f.Covers n q) (m : Nat) :
    |q - f.value n| ≤ |q - f.value m| := by
  rcases Nat.lt_trichotomy m n with less | rfl | greater
  · rw [nearer_high_iff (f.value_strictMono less)]
    have order := f.value_strictMono.monotone (Nat.le_sub_one_of_lt less)
    have low := covered.low
    unfold lower at low
    linarith
  · exact le_refl _
  · rw [nearer_low_iff (f.value_strictMono greater)]
    have order := f.value_strictMono.monotone (show n + 1 ≤ m from greater)
    have high := covered.high
    unfold upper at high
    linarith

theorem Covers.even (covered : f.Covers n q) (other : m ≠ n)
    (tie : |q - f.value n| = |q - f.value m|) : n % 2 = 0 := by
  by_contra odd
  obtain ⟨low, high⟩ := covered.odd (by omega)
  rcases Nat.lt_or_gt_of_ne other with less | greater
  · have reach := (nearer_low_iff (f.value_strictMono less) q).mp (le_of_eq tie.symm)
    have order := f.value_strictMono.monotone (Nat.le_sub_one_of_lt less)
    unfold lower at low
    linarith
  · have reach := (nearer_high_iff (f.value_strictMono greater) q).mp (le_of_eq tie.symm)
    have order := f.value_strictMono.monotone (show n + 1 ≤ m from greater)
    unfold upper at high
    linarith

namespace Regular

variable (regular : f.Regular)

include regular

theorem infinite_eq : f.infinite = (f.bands - 2) * f.band + 2 * f.band := by
  have bands := regular.bands
  rw [← Nat.add_mul, Nat.sub_add_cancel bands]
  rfl

theorem infinite_even : f.infinite % 2 = 0 := by
  rw [regular.infinite_eq, regular.number_parity, Nat.mul_mod_right]

theorem infinite_pos : 0 < f.infinite := by
  have positive := f.band_pos
  rw [regular.infinite_eq]
  omega

theorem overflow_eq : f.overflow = f.upper (f.infinite - 1) := by
  have positive := f.band_pos
  have last : f.infinite - 1 = (f.bands - 2) * f.band + (2 * f.band - 1) := by
    rw [regular.infinite_eq]
    omega
  have next : f.infinite - 1 + 1 = (f.bands - 2) * f.band + 2 * f.band := by
    rw [← regular.infinite_eq]
    exact Nat.sub_add_cancel regular.infinite_pos
  rw [upper, next, last, f.value_number _ _ (.inr (by omega)) (by omega),
    f.value_number _ _ (.inr (by omega)) (Nat.le_refl _), regular.two_band, overflow,
    Nat.cast_pred (by positivity)]
  push_cast
  ring

theorem covers_below (finite : n < f.infinite) (covered : f.Covers n q) : q < f.overflow := by
  rw [regular.overflow_eq]
  rcases Nat.lt_or_ge n (f.infinite - 1) with less | last
  · have step := f.upper_le_lower less
    have inside := f.lower_le (f.infinite - 1)
    have above := f.lt_upper (f.infinite - 1)
    linarith [covered.high]
  · -- The last finite number is odd.
    have even := regular.infinite_even
    have strict := (covered.odd (by omega)).2
    exact lt_of_lt_of_le strict (f.upper_mono (Nat.le_sub_one_of_lt finite))

theorem covers_finite (finite : n < f.infinite) (covered : f.Covers n q) :
    f.RoundsTo q (.finite (f.value n)) := by
  apply RoundsTo.finite
  · exact regular.covers_below finite covered
  · exact (regular.isFinite_iff _).mpr ⟨n, finite, rfl⟩
  · intro y finite'
    obtain ⟨m, -, rfl⟩ := (regular.isFinite_iff y).mp finite'
    exact covered.nearest m
  · intro y finite' other tie
    obtain ⟨m, -, rfl⟩ := (regular.isFinite_iff y).mp finite'
    rw [regular.isEven_iff]
    exact covered.even (fun same => other (congrArg f.value same)) tie

theorem covers_infinite (infinite : f.infinite ≤ n) (covered : f.Covers n q) :
    f.RoundsTo q .infinite := by
  have positive := regular.infinite_pos
  apply RoundsTo.infinite
  rw [regular.overflow_eq]
  exact le_trans (f.upper_le_lower (by omega)) covered.low

theorem covers_rounds (covered : f.Covers n q) : f.RoundsTo q (f.datum n) := by
  unfold datum
  by_cases finite : n < f.infinite
  · rw [if_pos finite]
    exact regular.covers_finite finite covered
  · rw [if_neg finite]
    exact regular.covers_infinite (Nat.not_lt.mp finite) covered

theorem finite_covers {x : ℚ} (nonneg : 0 ≤ q) (rounds : f.RoundsTo q (.finite x)) :
    ∃ n < f.infinite, f.value n = x ∧ f.Covers n q := by
  cases rounds with
  | finite _ below finite nearest even =>
      obtain ⟨n, bound, rfl⟩ := (regular.isFinite_iff x).mp finite
      have member (m : Nat) (bound : m < f.infinite) : f.IsFinite (f.value m) :=
        (regular.isFinite_iff _).mpr ⟨m, bound, rfl⟩
      have odd_strict (m : Nat) (bound : m < f.infinite) (other : m ≠ n) (odd : n % 2 = 1) :
          |q - f.value n| ≠ |q - f.value m| := by
        intro tie
        have apart : f.value m ≠ f.value n := fun same =>
          other (f.value_strictMono.injective same)
        have evenness := (regular.isEven_iff n).mp (even _ (member m bound) apart tie)
        omega
      have low : f.lower n ≤ q ∧ (n % 2 = 1 → f.lower n < q) := by
        rcases Nat.eq_zero_or_pos n with rfl | positive
        · rw [f.lower_zero]
          exact ⟨nonneg, by omega⟩
        · have less := f.value_strictMono (Nat.sub_lt positive Nat.one_pos)
          have reach := (nearer_high_iff less q).mp (nearest _ (member (n - 1) (by omega)))
          refine ⟨reach, fun odd => lt_of_le_of_ne reach fun same => ?_⟩
          apply odd_strict (n - 1) (by omega) (by omega) odd
          exact le_antisymm ((nearer_high_iff less q).mpr reach)
            ((nearer_low_iff less q).mpr (le_of_eq same.symm))
      have high : q ≤ f.upper n ∧ (n % 2 = 1 → q < f.upper n) := by
        by_cases last : n + 1 < f.infinite
        · have less := f.value_strictMono (Nat.lt_succ_self n)
          have reach := (nearer_low_iff less q).mp (nearest _ (member (n + 1) last))
          refine ⟨reach, fun odd => lt_of_le_of_ne reach fun same => ?_⟩
          apply odd_strict (n + 1) last (by omega) odd
          exact le_antisymm ((nearer_low_iff less q).mpr reach)
            ((nearer_high_iff less q).mpr (le_of_eq same.symm))
        · have same : f.infinite - 1 = n := by omega
          rw [regular.overflow_eq, same] at below
          exact ⟨le_of_lt below, fun _ => below⟩
      exact ⟨n, bound, rfl, low.1, high.1, fun odd => ⟨low.2 odd, high.2 odd⟩⟩

theorem roundsTo_unique {v w : Rounded} (nonneg : 0 ≤ q) (rounds : f.RoundsTo q v)
    (rounds' : f.RoundsTo q w) : v = w := by
  cases v with
  | infinite =>
      cases w with
      | infinite => rfl
      | finite y =>
          cases rounds with
          | infinite beyond =>
              cases rounds' with
              | finite _ below _ _ _ => exact absurd beyond (not_le.mpr below)
  | finite x =>
      obtain ⟨n, -, rfl, covered⟩ := regular.finite_covers nonneg rounds
      cases w with
      | infinite =>
          cases rounds with
          | finite _ below _ _ _ =>
              cases rounds' with
              | infinite beyond => exact absurd beyond (not_le.mpr below)
      | finite y =>
          obtain ⟨m, -, rfl, covered'⟩ := regular.finite_covers nonneg rounds'
          rw [covered.unique covered']

end Regular

end Format

end Intervals

end SchemaDefaults.Number
