import SchemaDefaults.Proofs.NumberForms
import SchemaDefaults.Proofs.Typing
/-!
Conversion of integers. A text converts if it is an integer that its kind admits, and the result
is the one canonical text of that integer, whether it went through a machine word or not.
-/

namespace SchemaDefaults

open Number

namespace Conversion

section Kinds

theorem inBounds_iff (kind : IntegerKind) (value : Int) :
    inBounds kind value = true ↔ kind.Fits value := by
  constructor
  · exact inBounds_fits kind value
  · intro fits
    cases width : kind.bits? with
    | none => simp [inBounds, IntegerKind.bounds, width]
    | some bits =>
        obtain ⟨low, high⟩ := fits bits width
        have half : ((Nat.pow 2 (bits - 1) : Nat) : Int) = 2 ^ (bits - 1) :=
          Int.natCast_pow 2 (bits - 1)
        simp only [inBounds, IntegerKind.bounds, width, Option.map_some, Bool.and_eq_true,
          decide_eq_true_eq, half]
        omega

theorem integer_form (kind : IntegerKind) (n : IntegerForm) (fits : kind.Fits n.value) :
    integer? kind n.text = some (.integer kind (String.ofList (Word.text n.value))) := by
  have canonical := Integer.text_value ⟨n.sign.negative, n.digits⟩ n.decimal
  have within := (inBounds_iff kind n.value).mpr fits
  rw [integer_eq, n.read_text, Option.bind_some, ← canonical]
  exact if_pos within

theorem form_of_integer (kind : IntegerKind) (text : List Char) (literal : Literal)
    (converted : integer? kind text = some literal) :
    ∃ n : IntegerForm, n.text = text ∧ kind.Fits n.value := by
  rw [integer_eq] at converted
  obtain ⟨n, read, converted⟩ := Option.bind_eq_some_iff.mp converted
  obtain ⟨form, whole, value, -⟩ := IntegerForm.of_read text n read
  refine ⟨form, whole, ?_⟩
  split at converted
  · rename_i within
    rw [value]
    exact inBounds_fits kind n.value within
  · cases converted

theorem convert_integer (kind : IntegerKind) (lexical : String) (n : IntegerForm)
    (whole : n.text = Text.trim lexical.toList) (fits : kind.Fits n.value) :
    convert lexical (.integer kind) =
      .ok (.integer kind (String.ofList (Word.text n.value))) := by
  rw [convert_ok_iff]
  change integer? kind (Text.trim lexical.toList) = _
  rw [← whole]
  exact integer_form kind n fits

theorem form_of_convert (kind : IntegerKind) (lexical : String) (literal : Literal)
    (accepted : convert lexical (.integer kind) = .ok literal) :
    ∃ n : IntegerForm, n.text = Text.trim lexical.toList ∧ kind.Fits n.value :=
  form_of_integer kind _ literal ((convert_ok_iff _ _ _).mp accepted)

/-- Kinds that accept one text read one number from it: the reader takes the two forms apart in
the same way. -/
theorem convert_integers (kind other : IntegerKind) (lexical digits digits' : String)
    (accepted : convert lexical (.integer kind) = .ok (.integer kind digits))
    (accepted' : convert lexical (.integer other) = .ok (.integer other digits')) :
    digits = digits' := by
  obtain ⟨n, whole, fits⟩ := form_of_convert kind lexical _ accepted
  obtain ⟨n', whole', fits'⟩ := form_of_convert other lexical _ accepted'
  have same : n.value = n'.value := by
    have parts := n.read_text
    rw [whole, ← whole', n'.read_text] at parts
    have parts := Option.some.inj parts
    exact (congrArg Integer.value parts).symm
  have result := convert_integer kind lexical n whole fits
  have result' := convert_integer other lexical n' whole' fits'
  rw [accepted] at result
  rw [accepted', ← same] at result'
  cases result
  cases result'
  rfl

end Kinds

end Conversion

/-- An integer text converts if and only if it is an optional sign with digits behind it and
denotes a number that the kind admits. The result has the digits of the only canonical text of
that number, and a text that is refused is reported as it was given. So two kinds that both
accept a text give it the same digits. -/
theorem integer_conversion (kind : IntegerKind) (lexical : String) :
    let text := Text.trim lexical.toList
    ((∃ literal, convert lexical (.integer kind) = .ok literal) ↔
      ∃ n : IntegerForm, n.text = text ∧ kind.Fits n.value) ∧
    (∀ n : IntegerForm, n.text = text → kind.Fits n.value →
      ∃ digits, convert lexical (.integer kind) = .ok (.integer kind digits) ∧
        IsInteger digits.toList ∧ integerValue digits.toList = n.value ∧
        ∀ other : String, IsInteger other.toList → integerValue other.toList = n.value →
          other = digits) ∧
    (∀ e, convert lexical (.integer kind) = .error e →
      e.text = lexical ∧ e.type = .integer kind) ∧
    (∀ other digits digits',
      convert lexical (.integer kind) = .ok (.integer kind digits) →
      convert lexical (.integer other) = .ok (.integer other digits') → digits = digits') := by
  intro text
  refine ⟨⟨?_, ?_⟩, ?_, ?_, ?_⟩
  · rintro ⟨literal, accepted⟩
    exact Conversion.form_of_convert kind lexical literal accepted
  · rintro ⟨n, whole, fits⟩
    exact ⟨_, Conversion.convert_integer kind lexical n whole fits⟩
  · intro n whole fits
    refine ⟨_, Conversion.convert_integer kind lexical n whole fits, ?_, ?_, ?_⟩
    · rw [String.toList_ofList]
      exact text_isInteger n.value
    · rw [String.toList_ofList]
      exact integerValue_text n.value
    · intro other canonical value
      rw [← value, canonical.text_eq, String.ofList_toList]
  · intro e refused
    obtain ⟨-, rfl⟩ := (convert_error_iff _ _ _).mp refused
    exact ⟨rfl, rfl⟩
  · intro other digits digits'
    exact Conversion.convert_integers kind other lexical digits digits'

/-- The least word, with zeros in front; its opposite is no word. -/
def paddedLeast : IntegerForm :=
  ⟨.minus, "0009223372036854775808".toList, by decide, by decide⟩

theorem least_long_converted :
    convert " -0009223372036854775808\n" (.integer .long) =
      .ok (.integer .long "-9223372036854775808") := by
  have text : paddedLeast.text = Text.trim " -0009223372036854775808\n".toList := by decide
  have fits : IntegerKind.long.Fits paddedLeast.value := by
    intro bits width
    cases width
    decide
  have canonical : IsInteger "-9223372036854775808".toList :=
    .negative "9223372036854775808".toList ⟨by decide, by decide, by decide⟩ (by decide)
  obtain ⟨digits, converted, -, -, unique⟩ :=
    (integer_conversion .long " -0009223372036854775808\n").2.1 paddedLeast text fits
  rw [unique "-9223372036854775808" canonical (by decide)]
  exact converted

end SchemaDefaults
