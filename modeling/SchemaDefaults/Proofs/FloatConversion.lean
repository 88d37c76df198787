import SchemaDefaults.Proofs.FloatReading
import SchemaDefaults.Proofs.FloatTexts
/-!
Conversion of floats. A form is rounded once, to the format of its kind: the larger format, in
which values of the smaller one are held, has each of these values, so nothing is rounded on the
way there and back. What is written is rounded to the same value again, and so is converted to
itself.
-/

namespace SchemaDefaults

namespace Number

section Widening

namespace Format

structure Within (f g : Format) : Prop where
  precision : f.precision ≤ g.precision
  unit : f.unitBits ≤ g.unitBits
  bands : f.bands + (g.unitBits - f.unitBits) ≤ g.bands

theorem binary32_within : binary32.Within binary64 := by constructor <;> decide

variable {f g : Format}

theorem Within.isFinite (within : f.Within g) (x : ℚ) (finite : f.IsFinite x) : g.IsFinite x := by
  obtain ⟨significand, exponent, bound, inside, rfl⟩ := finite
  have unit := Nat.sub_add_cancel within.unit
  have bands := within.bands
  refine ⟨significand, exponent + (g.unitBits - f.unitBits), ?_, by omega, ?_⟩
  · exact lt_of_lt_of_le bound (Nat.pow_le_pow_right (by decide) within.precision)
  · have units : (2 : ℚ) ^ g.unitBits = 2 ^ (g.unitBits - f.unitBits) * 2 ^ f.unitBits := by
      rw [← pow_add, unit]
    rw [units, pow_add, ← mul_assoc, mul_comm (2 ^ (g.unitBits - f.unitBits) : ℚ),
      mul_div_mul_right _ _ (by positivity)]

/-- A number between the formats: where the values agree, moving is exact. -/
theorem Regular.nearestQuotient_value (regular : g.Regular) (n m : Nat) (finite : m < g.infinite)
    (same : g.value m = f.value n) :
    g.nearestQuotient (f.magnitude n) (Nat.pow 2 f.unitBits) = m := by
  apply regular.nearestQuotient_exact _ (Nat.pow_pos (by decide)) m (Nat.le_of_lt finite)
  rw [same, value, Nat.cast_pow, Nat.cast_ofNat]

end Format

namespace FloatValue

theorem moved_infinite (f g : Format) (negative : Bool) :
    (FloatValue.signed negative f.infinite).moved f g = .signed negative g.infinite :=
  congrArg (FloatValue.signed negative) (if_pos rfl)

theorem moved_finite {f g : Format} (regular : g.Regular) (negative : Bool) (n m : Nat)
    (finite : n < f.infinite) (finite' : m < g.infinite) (same : g.value m = f.value n) :
    (FloatValue.signed negative n).moved f g = .signed negative m := by
  have exact := regular.nearestQuotient_value n m finite' same
  exact congrArg (FloatValue.signed negative) ((if_neg (Nat.ne_of_lt finite)).trans exact)

theorem text_finite (f : Format) (style : FloatStyle) (negative : Bool) (n : Nat)
    (finite : n ≠ f.infinite) :
    (FloatValue.signed negative n).text f style = f.text style negative n := if_neg finite

/-- What is held in a larger format is infinite there only if it was infinite, and comes back as
what it was. -/
theorem moved_back {f g : Format} (regular : f.Regular) (regular' : g.Regular)
    (within : f.Within g) (negative : Bool) (n : Nat) (bound : n ≤ f.infinite) :
    ∃ wide, (FloatValue.signed negative n).moved f g = .signed negative wide ∧
      (wide = g.infinite ↔ n = f.infinite) ∧
      (FloatValue.signed negative wide).moved g f = .signed negative n := by
  rcases Nat.lt_or_eq_of_le bound with finite | rfl
  · have value := within.isFinite _ ((regular.isFinite_iff _).mpr ⟨n, finite, rfl⟩)
    obtain ⟨wide, finite', same⟩ := (regular'.isFinite_iff _).mp value
    exact ⟨wide, moved_finite regular' negative n wide finite finite' same,
      iff_of_false (Nat.ne_of_lt finite') (Nat.ne_of_lt finite),
      moved_finite regular negative wide n finite' finite same.symm⟩
  · exact ⟨g.infinite, moved_infinite f g negative, iff_of_true rfl rfl,
      moved_infinite g f negative⟩

end FloatValue

end Widening

section Reading

namespace ScientificForm

def number (n : ScientificForm) (f : Format) : Nat :=
  f.nearestDecimal n.parts.coefficient n.parts.scale

def ReadAs (n : ScientificForm) (f : Format) (negative : Bool) (v : Rounded) : Prop :=
  n.negative = negative ∧ f.RoundsTo n.magnitude v

theorem magnitude_nonneg (n : ScientificForm) : 0 ≤ n.magnitude := by
  rw [n.magnitude_eq]
  positivity

theorem read_number (n : ScientificForm) (f : Format) :
    f.read? n.text = some (.signed n.negative (n.number f)) := f.read_form n

variable {f : Format} (regular : f.Regular) (n : ScientificForm)

include regular

theorem number_le : n.number f ≤ f.infinite := regular.nearestDecimal_le _ _

theorem number_rounds : f.RoundsTo n.magnitude (f.datum (n.number f)) := by
  rw [n.magnitude_eq]
  exact regular.nearestDecimal_rounds _ _

theorem number_finite (finite : n.number f < f.infinite) :
    f.RoundsTo n.magnitude (.finite (f.value (n.number f))) := by
  have rounds := n.number_rounds regular
  rwa [Format.datum, if_pos finite] at rounds

theorem number_infinite (infinite : n.number f = f.infinite) :
    f.RoundsTo n.magnitude .infinite := by
  have rounds := n.number_rounds regular
  rwa [Format.datum, if_neg (Nat.not_lt.mpr (Nat.le_of_eq infinite.symm))] at rounds

theorem number_of_covers (number : Nat) (bound : number ≤ f.infinite)
    (covered : f.Covers number n.magnitude) : n.number f = number := by
  obtain ⟨other, covered', computed⟩ :=
    regular.nearestDecimal_covers n.parts.coefficient n.parts.scale
  rw [← n.magnitude_eq] at covered'
  have same : n.number f = min f.infinite other := computed
  rw [same, covered'.unique covered, Nat.min_eq_right bound]

theorem covers_of_rounds (number : Nat) (rounds : f.RoundsTo n.magnitude (.finite (f.value number))) :
    f.Covers number n.magnitude := by
  obtain ⟨other, -, same, covered⟩ := regular.finite_covers n.magnitude_nonneg rounds
  rwa [f.value_strictMono.injective same] at covered

end ScientificForm

end Reading

end Number

open Number

def FloatKind.format : FloatKind → Format
  | .float => binary32
  | .double => binary64

theorem FloatKind.format_regular (kind : FloatKind) : kind.format.Regular := by
  cases kind with
  | float => exact Format.binary32_regular
  | double => exact Format.binary64_regular

namespace Conversion

section Names

def numberName (f : Format) (negative : Bool) (number : Nat) : String :=
  if number = f.infinite then if negative then "-INF" else "INF"
  else String.ofList (f.text literalStyle negative number)

theorem floatName_signed (infinite : Nat) (text : FloatValue → List Char) (negative : Bool)
    (number : Nat) :
    floatName infinite text (.signed negative number) =
      if number = infinite then if negative then "-INF" else "INF"
      else String.ofList (text (.signed negative number)) := by
  unfold floatName
  by_cases same : number = infinite
  · cases negative <;> simp [same]
  · simp [same]

theorem floatText_number (kind : FloatKind) (n : ScientificForm) :
    floatText? kind n.text =
      some (numberName kind.format n.negative (n.number kind.format)) := by
  cases kind with
  | double =>
      change _ = some (numberName binary64 n.negative (n.number binary64))
      rw [floatText?, n.read_number, Option.map_some, floatName_signed, numberName]
      by_cases infinite : n.number binary64 = binary64.infinite
      · rw [if_pos infinite, if_pos infinite]
      · rw [if_neg infinite, if_neg infinite, FloatValue.text_finite _ _ _ _ infinite]
  | float =>
      obtain ⟨wide, held, infinite_iff, back⟩ :=
        FloatValue.moved_back Format.binary32_regular Format.binary64_regular
          Format.binary32_within n.negative _ (n.number_le Format.binary32_regular)
      change _ = some (numberName binary32 n.negative (n.number binary32))
      rw [floatText?, n.read_number, Option.map_some, held, floatName_signed, back, numberName]
      by_cases infinite : n.number binary32 = binary32.infinite
      · rw [if_pos infinite, if_pos (infinite_iff.mpr infinite)]
      · rw [if_neg infinite, if_neg (mt infinite_iff.mp infinite),
          FloatValue.text_finite _ _ _ _ infinite]

theorem convert_form (kind : FloatKind) (lexical : String) (n : ScientificForm)
    (whole : n.text = Text.trim lexical.toList) :
    convert lexical (.float kind) =
      .ok (.float kind (numberName kind.format n.negative (n.number kind.format))) := by
  rw [convert_ok_iff]
  change float? kind (Text.trim lexical.toList) = _
  rw [← whole, float_form, floatText_number, Option.map_some]

theorem convert_infinite (kind : FloatKind) (negative : Bool) :
    convert (if negative then "-INF" else "INF") (.float kind) =
      .ok (.float kind (if negative then "-INF" else "INF")) := by
  rw [convert_ok_iff]
  cases negative <;> rfl

theorem form_name (written : ScientificForm) (name : String) (whole : written.text = name.toList) :
    name ≠ "INF" ∧ name ≠ "-INF" := by
  constructor <;> rintro rfl
  · exact Special.not_form (show Special "INF".toList by decide) written whole
  · exact Special.not_form (show Special "-INF".toList by decide) written whole

end Names

section Results

/-- A text for a form that is rounded to some value. It is an infinity by name where the value is
infinite. Otherwise it is a form that is read as the value, and no form with fewer digits is. -/
structure FloatResult (kind : FloatKind) (n : ScientificForm) (v : Rounded) (text : String) :
    Prop where
  positive : text = "INF" ↔ v = .infinite ∧ n.negative = false
  negative : text = "-INF" ↔ v = .infinite ∧ n.negative = true
  shortest : v ≠ .infinite → ∃ written : ScientificForm, written.text = text.toList ∧
    written.ReadAs kind.format n.negative v ∧
    ∀ other : ScientificForm, other.ReadAs kind.format n.negative v →
      written.significant ≤ other.significant
  again : convert text (.float kind) = .ok (.float kind text)

variable (kind : FloatKind) (n : ScientificForm)

theorem infinite_result (infinite : n.number kind.format = kind.format.infinite) :
    FloatResult kind n .infinite
      (numberName kind.format n.negative (n.number kind.format)) := by
  rw [numberName, if_pos infinite]
  constructor
  · cases n.negative <;> simp
  · cases n.negative <;> simp
  · intro finite
    exact absurd rfl finite
  · exact convert_infinite kind n.negative

theorem finite_result (finite : n.number kind.format < kind.format.infinite) :
    FloatResult kind n (.finite (kind.format.value (n.number kind.format)))
      (numberName kind.format n.negative (n.number kind.format)) := by
  have regular := kind.format_regular
  obtain ⟨written, text, negative, covered, fewest⟩ :=
    kind.format.text_form literalStyle n.negative (n.number kind.format)
  have name : written.text =
      (numberName kind.format n.negative (n.number kind.format)).toList := by
    rw [numberName, if_neg (Nat.ne_of_lt finite), text, String.toList_ofList]
  have names := form_name written _ name
  constructor
  · exact iff_of_false names.1 fun infinite => by cases infinite.1
  · exact iff_of_false names.2 fun infinite => by cases infinite.1
  · intro _
    refine ⟨written, name, ⟨negative, regular.covers_finite finite covered⟩, ?_⟩
    rintro other ⟨-, rounds⟩
    exact fewest other (other.covers_of_rounds regular _ rounds)
  · have again := convert_form kind _ written (by rw [← name, written.trim_text])
    rw [again, negative, written.number_of_covers regular _ (Nat.le_of_lt finite) covered]

end Results

end Conversion

/-- What converts to a float, the special names apart, is a form. It is rounded to one value, and
the text is what is required of a text for it, the one that converts to itself included. -/
theorem float_conversion (kind : FloatKind) (lexical : String) (literal : Literal)
    (accepted : convert lexical (.float kind) = .ok literal)
    (other : ¬ Conversion.Special (Text.trim lexical.toList)) :
    (∃ n : ScientificForm, n.text = Text.trim lexical.toList) ∧
    ∀ n : ScientificForm, n.text = Text.trim lexical.toList →
      ∃ (v : Rounded) (text : String), literal = .float kind text ∧
        (∀ w, n.ReadAs kind.format n.negative w ↔ w = v) ∧
        Conversion.FloatResult kind n v text := by
  constructor
  · have forms := (Conversion.float_accepts_iff kind _).mp
      ⟨literal, (convert_ok_iff _ _ _).mp accepted⟩
    exact forms.resolve_left other
  · intro n whole
    have regular := kind.format_regular
    have converted := Conversion.convert_form kind lexical n whole
    rw [accepted, Except.ok.injEq] at converted
    have one (v : Rounded) (rounds : kind.format.RoundsTo n.magnitude v) (w : Rounded) :
        n.ReadAs kind.format n.negative w ↔ w = v := by
      constructor
      · rintro ⟨-, rounds'⟩
        exact regular.roundsTo_unique n.magnitude_nonneg rounds' rounds
      · rintro rfl
        exact ⟨rfl, rounds⟩
    rcases Nat.lt_or_eq_of_le (n.number_le regular) with finite | infinite
    · exact ⟨_, _, converted, one _ (n.number_finite regular finite),
        Conversion.finite_result kind n finite⟩
    · exact ⟨_, _, converted, one _ (n.number_infinite regular infinite),
        Conversion.infinite_result kind n infinite⟩

/-- A form in the middle between two values of the smaller format. -/
theorem middle_converted :
    convert "16777217" (.float .float) = .ok (.float .float "16777216.0") ∧
      convert "16777216.0" (.float .float) = .ok (.float .float "16777216.0") := by
  have accepted : convert "16777217" (.float .float) = .ok (.float .float "16777216.0") := by
    decide +kernel
  obtain ⟨⟨n, whole⟩, results⟩ := float_conversion .float "16777217" _ accepted (by decide)
  obtain ⟨_, text, same, _, result⟩ := results n whole
  cases same
  exact ⟨accepted, result.again⟩

end SchemaDefaults
