import SchemaDefaults.Number.Float
import SchemaDefaults.Proofs.RoundedQuotient
/-!
The decimal that stands for a magnitude. It is rounded to that magnitude, and no decimal with
fewer digits is. The grids are tried from the coarsest that can matter, and what is found on one
has at most one digit more than the grids above it leave room for. A competitor with fewer digits
lies on a grid above, or below a power of ten that does.
-/

namespace SchemaDefaults.Number

section Grids

namespace Rounding

variable {r : Rounding}

theorem contains_between {low point high : Nat} (inside : r.contains low = true)
    (inside' : r.contains high = true) (above : low ≤ point) (below : point ≤ high) :
    r.contains point = true := by
  unfold contains at *
  by_cases closed : r.closed = true
  · simp only [closed, if_true, Bool.and_eq_true, decide_eq_true_eq] at *
    omega
  · simp only [closed, if_false, Bool.and_eq_true, decide_eq_true_eq, Bool.false_eq_true] at *
    omega

theorem onGrid_some {power multiple : Nat} (found : r.onGrid? power = some multiple) :
    r.contains (multiple * 10 ^ power) = true ∧ multiple ≤ r.value / 10 ^ power + 1 := by
  unfold onGrid? at found
  simp only [Nat.pow_eq] at found
  split at found
  · rename_i below above
    cases found
    split
    · exact ⟨below, Nat.le_succ _⟩
    · exact ⟨above, Nat.le_refl _⟩
  · rename_i below _
    cases found
    exact ⟨below, Nat.le_succ _⟩
  · rename_i _ above
    cases found
    exact ⟨above, Nat.le_refl _⟩
  · cases found

/-- The two neighbours of the value are the first points of a grid to lie in the interval. -/
theorem onGrid_none (inside : r.contains r.value = true) {power : Nat}
    (nothing : r.onGrid? power = none) (multiple : Nat) :
    r.contains (multiple * 10 ^ power) = false := by
  have step : 0 < 10 ^ power := by positivity
  have outside : r.contains (r.value / 10 ^ power * 10 ^ power) = false ∧
      r.contains ((r.value / 10 ^ power + 1) * 10 ^ power) = false := by
    unfold onGrid? at nothing
    simp only [Nat.pow_eq] at nothing
    split at nothing
    · cases nothing
    · cases nothing
    · cases nothing
    · rename_i below above
      exact ⟨by simpa using below, by simpa using above⟩
  rw [← Bool.not_eq_true]
  intro member
  rcases Nat.lt_or_ge (r.value / 10 ^ power) multiple with above | below
  · have beyond : r.value ≤ (r.value / 10 ^ power + 1) * 10 ^ power  := by
      rw [Nat.mul_comm]
      exact Nat.le_of_lt (Nat.lt_mul_div_succ _ step)
    have within : (r.value / 10 ^ power + 1) * 10 ^ power ≤ multiple * 10 ^ power :=
      Nat.mul_le_mul_right _ above
    rw [contains_between inside member beyond within] at outside
    cases outside.2
  · have within : multiple * 10 ^ power ≤ r.value / 10 ^ power * 10 ^ power :=
      Nat.mul_le_mul_right _ below
    rw [contains_between member inside within (Nat.div_mul_le_self _ _)] at outside
    cases outside.1

/-- What the search ends with: a point next to the value, and none on a coarser grid. -/
structure Found (r : Rounding) (start multiple power : Nat) : Prop where
  le : power ≤ start
  inside : r.contains (multiple * 10 ^ power) = true
  near : multiple ≤ r.value / 10 ^ power + 1
  coarsest : ∀ coarser other, power < coarser → coarser ≤ start →
    r.contains (other * 10 ^ coarser) = false

theorem firstOnGrid_found (inside : r.contains r.value = true) (start : Nat) :
    r.Found start (r.firstOnGrid start).1 (r.firstOnGrid start).2 := by
  induction start with
  | zero =>
      constructor
      · exact Nat.le_refl 0
      · rw [firstOnGrid, Nat.pow_zero, Nat.mul_one]
        exact inside
      · rw [firstOnGrid, Nat.pow_zero, Nat.div_one]
        exact Nat.le_succ r.value
      · intro coarser _ above below
        exact absurd below (Nat.not_le.mpr above)
  | succ start ih =>
      unfold firstOnGrid
      cases grid : r.onGrid? (start + 1) with
      | some multiple =>
          obtain ⟨member, near⟩ := onGrid_some grid
          exact ⟨Nat.le_refl _, member, near, fun coarser _ above below =>
            absurd below (Nat.not_le.mpr above)⟩
      | none =>
          refine ⟨Nat.le_succ_of_le ih.le, ih.inside, ih.near, ?_⟩
          intro coarser other above below
          rcases Nat.lt_or_eq_of_le below with lower | rfl
          · exact ih.coarsest coarser other above (Nat.le_of_lt_succ lower)
          · exact onGrid_none inside grid other

end Rounding

end Grids

section Counts

/-- A number that can be written with some digits and zeros behind them. -/
def FewDigits (count value : Nat) : Prop :=
  ∃ front power, value = front * 10 ^ power ∧ front < 10 ^ count

theorem FewDigits.mono {few more value : Nat} (digits : FewDigits few value) (le : few ≤ more) :
    FewDigits more value := by
  obtain ⟨front, power, same, bound⟩ := digits
  exact ⟨front, power, same, lt_of_lt_of_le bound (Nat.pow_le_pow_right (by decide) le)⟩

theorem fewDigits_of_le {count value : Nat} (positive : 0 < count) (le : value ≤ 10 ^ count) :
    FewDigits count value := by
  rcases Nat.lt_or_eq_of_le le with less | rfl
  · exact ⟨value, 0, by rw [Nat.pow_zero, Nat.mul_one], less⟩
  · exact ⟨1, count, by rw [Nat.one_mul], Nat.one_lt_pow (by omega) (by decide)⟩

theorem fewDigits_mul_iff (count value power : Nat) :
    FewDigits count (value * 10 ^ power) ↔ FewDigits count value := by
  constructor
  · rintro ⟨front, behind, same, bound⟩
    rcases Nat.le_total power behind with more | fewer
    · refine ⟨front, behind - power, ?_, bound⟩
      apply Nat.eq_of_mul_eq_mul_right (show 0 < 10 ^ power by positivity)
      rw [same, Nat.mul_assoc, ← Nat.pow_add, Nat.sub_add_cancel more]
    · refine ⟨value, 0, by rw [Nat.pow_zero, Nat.mul_one], ?_⟩
      have shifted : value * 10 ^ (power - behind) = front := by
        apply Nat.eq_of_mul_eq_mul_right (show 0 < 10 ^ behind by positivity)
        rw [← same, Nat.mul_assoc, ← Nat.pow_add, Nat.sub_add_cancel fewer]
      have le : value ≤ value * 10 ^ (power - behind) :=
        Nat.le_mul_of_pos_right _ (by positivity)
      omega
  · rintro ⟨front, behind, rfl, bound⟩
    exact ⟨front, behind + power, by rw [Nat.mul_assoc, Nat.pow_add], bound⟩

end Counts

namespace Format

section Scaling

variable (f : Format)

theorem ten_pow_unitBits : (10 : ℚ) ^ f.unitBits = 2 ^ f.unitBits * 5 ^ f.unitBits := by
  rw [← mul_pow]
  norm_num

theorem middle_le_iff (sum point : Nat) :
    (sum : ℚ) / 2 ^ f.unitBits / 2 ≤ point / 10 ^ f.unitBits ↔
      sum * 5 ^ f.unitBits ≤ 2 * point := by
  rw [ten_pow_unitBits, div_div, div_le_div_iff₀ (by positivity) (by positivity)]
  have step : (0 : ℚ) < 2 ^ f.unitBits := by positivity
  constructor
  · intro order
    have scaled : (sum : ℚ) * 5 ^ f.unitBits ≤ 2 * point := by nlinarith
    exact_mod_cast scaled
  · intro order
    have scaled : (sum : ℚ) * 5 ^ f.unitBits ≤ 2 * point := by exact_mod_cast order
    nlinarith

theorem le_middle_iff (sum point : Nat) :
    (point : ℚ) / 10 ^ f.unitBits ≤ sum / 2 ^ f.unitBits / 2 ↔
      2 * point ≤ sum * 5 ^ f.unitBits := by
  rw [ten_pow_unitBits, div_div, div_le_div_iff₀ (by positivity) (by positivity)]
  have step : (0 : ℚ) < 2 ^ f.unitBits := by positivity
  constructor
  · intro order
    have scaled : 2 * (point : ℚ) ≤ sum * 5 ^ f.unitBits := by nlinarith
    exact_mod_cast scaled
  · intro order
    have scaled : 2 * (point : ℚ) ≤ sum * 5 ^ f.unitBits := by exact_mod_cast order
    nlinarith

theorem middle_eq (n m : Nat) :
    (f.value n + f.value m) / 2 =
      ((f.magnitude n + f.magnitude m : Nat) : ℚ) / 2 ^ f.unitBits / 2 := by
  unfold value
  push_cast
  ring

theorem contains_iff (n point : Nat) :
    (f.rounding n).contains point = true ↔ f.Covers n ((point : ℚ) / 10 ^ f.unitBits) := by
  have low : f.lower n ≤ (point : ℚ) / 10 ^ f.unitBits ↔ (f.rounding n).twiceLow ≤ 2 * point := by
    rw [lower, f.middle_eq]
    exact f.middle_le_iff _ point
  have high : (point : ℚ) / 10 ^ f.unitBits ≤ f.upper n ↔
      2 * point ≤ (f.rounding n).twiceHigh := by
    rw [upper, f.middle_eq]
    exact f.le_middle_iff _ point
  have strict_low : f.lower n < (point : ℚ) / 10 ^ f.unitBits ↔
      (f.rounding n).twiceLow < 2 * point := by
    rw [lower, f.middle_eq, ← not_le, ← Nat.not_le]
    exact not_congr (f.le_middle_iff _ point)
  have strict_high : (point : ℚ) / 10 ^ f.unitBits < f.upper n ↔
      2 * point < (f.rounding n).twiceHigh := by
    rw [upper, f.middle_eq, ← not_le, ← Nat.not_le]
    exact not_congr (f.middle_le_iff _ point)
  have closed : (f.rounding n).closed = (n % 2 == 0) := rfl
  unfold Rounding.contains
  rcases Nat.mod_two_eq_zero_or_one n with even | odd
  · simp only [closed, even, beq_self_eq_true, if_true, Bool.and_eq_true, decide_eq_true_eq]
    rw [← low, ← high]
    exact ⟨fun ends => ⟨ends.1, ends.2, by omega⟩, fun covered => ⟨covered.low, covered.high⟩⟩
  · have opened : (n % 2 == 0) = false := by rw [odd]; rfl
    simp only [closed, opened, Bool.false_eq_true, if_false, Bool.and_eq_true, decide_eq_true_eq]
    rw [← strict_low, ← strict_high]
    exact ⟨fun ends => ⟨le_of_lt ends.1, le_of_lt ends.2, fun _ => ends⟩,
      fun covered => covered.odd odd⟩

theorem rounding_value (n : Nat) :
    ((f.rounding n).value : ℚ) / 10 ^ f.unitBits = f.value n := by
  have scaled : ((f.rounding n).value : ℚ) = f.magnitude n * 5 ^ f.unitBits := by
    exact_mod_cast rfl
  rw [scaled, ten_pow_unitBits, value, mul_div_mul_right _ _ (by positivity)]

theorem contains_value (n : Nat) : (f.rounding n).contains (f.rounding n).value = true := by
  rw [f.contains_iff, f.rounding_value]
  exact f.covers_value n

theorem not_covers_zero {n : Nat} (positive : 0 < n) : ¬ f.Covers n 0 := by
  intro covered
  have zero := f.covers_value 0
  rw [f.value_zero] at zero
  exact absurd (covered.unique zero) (Nat.ne_of_gt positive)

end Scaling

section Fewest

theorem grid_point (f : Format) (multiple power : Nat) :
    ((multiple * 10 ^ power : Nat) : ℚ) / 10 ^ f.unitBits =
      multiple * 10 ^ ((power : Int) - f.unitBits) := by
  rw [zpow_sub₀ (by norm_num), zpow_natCast, zpow_natCast]
  push_cast
  ring

theorem rounding_value_lt (f : Format) (n : Nat) :
    (f.rounding n).value < 10 ^ ((Nat.toDigits 10 (f.rounding n).value).length - 1 + 1) := by
  have digits := Nat.length_toDigits_pos (b := 10) (n := (f.rounding n).value)
  rw [Nat.sub_add_cancel digits]
  exact (Nat.length_toDigits_le_iff (by decide) digits).mp (Nat.le_refl _)

end Fewest

end Format

section Competitors

namespace Rounding.Found

variable {f : Format} {n start multiple power : Nat}
  (found : (f.rounding n).Found start multiple power)

include found

theorem covers : f.Covers n ((multiple : ℚ) * 10 ^ ((power : Int) - f.unitBits)) := by
  rw [← f.grid_point, ← f.contains_iff]
  exact found.inside

theorem absent (coarser other : Nat) (above : power < coarser) (below : coarser ≤ start) :
    ¬ f.Covers n ((other : ℚ) * 10 ^ ((coarser : Int) - f.unitBits)) := by
  rw [← f.grid_point, ← f.contains_iff, found.coarsest coarser other above below]
  exact Bool.false_ne_true

theorem few_of_start (bound : (f.rounding n).value < 10 ^ (start + 1)) :
    FewDigits (start + 1 - power) multiple := by
  have quotient : (f.rounding n).value / 10 ^ power < 10 ^ (start + 1 - power) := by
    rw [Nat.div_lt_iff_lt_mul (by positivity), ← Nat.pow_add]
    rwa [Nat.sub_add_cancel (Nat.le_succ_of_le found.le)]
  have near := found.near
  apply fewDigits_of_le
  · exact Nat.sub_pos_of_lt (Nat.lt_succ_of_le found.le)
  · omega

variable {count front : Nat} {scale : Int}

/-- A competitor on the same grid or a finer one has as many digits: otherwise a power of ten on
a coarser grid would lie between it and the point that was found. -/
theorem few_of_finer (room : count + power ≤ start) (digits : 0 < count) (few : front < 10 ^ count)
    (finer : scale + f.unitBits ≤ power) (covered : f.Covers n ((front : ℚ) * 10 ^ scale)) :
    FewDigits count multiple := by
  by_cases small : multiple < 10 ^ count
  · exact ⟨multiple, 0, by rw [Nat.pow_zero, Nat.mul_one], small⟩
  · have between := found.absent (count + power) 1 (by omega) room
    rw [Nat.cast_one, one_mul, Nat.cast_add, add_sub_assoc, zpow_add₀ (by norm_num),
      zpow_natCast] at between
    refine absurd (covered.between found.covers ?_ ?_) between
    · have front_le : (front : ℚ) ≤ 10 ^ count := by exact_mod_cast Nat.le_of_lt few
      have scale_le : (10 : ℚ) ^ scale ≤ 10 ^ ((power : Int) - f.unitBits) :=
        zpow_le_zpow_right₀ (by norm_num) (by omega)
      exact mul_le_mul front_le scale_le (by positivity) (by positivity)
    · have multiple_ge : (10 : ℚ) ^ count ≤ multiple := by exact_mod_cast Nat.not_lt.mp small
      exact mul_le_mul_of_nonneg_right multiple_ge (by positivity)

theorem not_coarser (room : power < start) (coarse : (power : Int) < scale + f.unitBits) :
    ¬ f.Covers n ((front : ℚ) * 10 ^ scale) := by
  obtain ⟨coarser, above, below, finer⟩ : ∃ coarser : Nat, power < coarser ∧
      coarser ≤ start ∧ (coarser : Int) ≤ scale + f.unitBits := by
    refine ⟨min start (scale + f.unitBits).toNat, ?_, Nat.min_le_left _ _, ?_⟩ <;> omega
  obtain ⟨behind, split⟩ := Int.le.dest finer
  have scales : scale = (behind : Int) + ((coarser : Int) - f.unitBits) := by omega
  have same : (front : ℚ) * 10 ^ scale =
      ((front * 10 ^ behind : Nat) : ℚ) * 10 ^ ((coarser : Int) - f.unitBits) := by
    rw [scales, zpow_add₀ (by norm_num), zpow_natCast]
    push_cast
    ring
  rw [same]
  exact found.absent coarser _ above below

theorem fewest (bound : (f.rounding n).value < 10 ^ (start + 1)) (positive : 0 < front)
    (few : front < 10 ^ count) (covered : f.Covers n ((front : ℚ) * 10 ^ scale)) :
    FewDigits count multiple := by
  have digits : 0 < count := by
    apply Nat.pos_of_ne_zero
    rintro rfl
    omega
  by_cases room : count + power ≤ start
  · by_cases finer : scale + f.unitBits ≤ power
    · exact found.few_of_finer room digits few finer covered
    · exact absurd covered (found.not_coarser (by omega) (by omega))
  · exact (found.few_of_start bound).mono (by omega)

end Rounding.Found

/-- The decimal for a magnitude is rounded to it, and it has as few digits as any that is. -/
theorem Format.shortest_spec (f : Format) (n : Nat) (positive : 0 < n) :
    0 < (f.shortest n).coefficient ∧
      f.Covers n (((f.shortest n).coefficient : ℚ) * 10 ^ (f.shortest n).scale) ∧
      ∀ (count front : Nat) (scale : Int), front < 10 ^ count →
        f.Covers n ((front : ℚ) * 10 ^ scale) → FewDigits count (f.shortest n).coefficient := by
  have found := Rounding.firstOnGrid_found (f.contains_value n)
    ((Nat.toDigits 10 (f.rounding n).value).length - 1)
  have nonzero {front : Nat} {scale : Int} (covered : f.Covers n ((front : ℚ) * 10 ^ scale)) :
      0 < front := by
    apply Nat.pos_of_ne_zero
    rintro rfl
    rw [Nat.cast_zero, zero_mul] at covered
    exact f.not_covers_zero positive covered
  refine ⟨nonzero found.covers, found.covers, ?_⟩
  intro count front scale few covered
  exact found.fewest (f.rounding_value_lt n) (nonzero covered) few covered

end Competitors

end SchemaDefaults.Number
