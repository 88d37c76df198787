import Mathlib.Data.List.TakeWhile
import SchemaDefaults.Conversion
import SchemaDefaults.Proofs.NumberForms
/-!
Reading floats, and which texts convert to them. What is read are the scientific forms, each
rounded to the format, and besides them the names of infinity and not-a-number in any case of
their letters. What converts are the scientific forms, whatever their size and whatever the
format, and three names, each in one spelling: the reader behind the check knows more names, which
do not pass the check, and it refuses nothing that does.
-/

namespace SchemaDefaults.Number

section Taking

variable {digits rest : List Char} (decimal : allDigits digits = true)
  (ends : ∀ c, rest.head? = some c → c.isDigit = false)

include decimal ends

theorem digits_taken : (digits ++ rest).takeWhile Char.isDigit = digits := by
  rw [List.takeWhile_append_of_pos (List.all_eq_true.mp decimal)]
  cases rest with
  | nil => simp
  | cons c later => simp [ends c rfl]

theorem digits_dropped : (digits ++ rest).dropWhile Char.isDigit = rest := by
  rw [List.dropWhile_append_of_pos (List.all_eq_true.mp decimal)]
  cases rest with
  | nil => rfl
  | cons c later => simp [ends c rfl]

end Taking

section Scanning

theorem isDigit_mark (c : Char) (mark : Scientific.isMark c = true) : c.isDigit = false := by
  rcases (by simpa [Scientific.isMark] using mark : c = 'e' ∨ c = 'E') with rfl | rfl <;> rfl

theorem mark_ne_point (c : Char) (mark : Scientific.isMark c = true) : c ≠ '.' := by
  rintro rfl
  exact absurd mark (by decide)

namespace ScientificForm

def scan (n : ScientificForm) : FloatScan :=
  ⟨n.mantissa.whole, n.mantissa.fraction, n.exponent⟩

theorem exponentText_head (n : ScientificForm) (c : Char)
    (head : n.exponentText.head? = some c) : Scientific.isMark c = true := by
  unfold exponentText at head
  split at head
  · rename_i e _
    cases head
    exact e.marks
  · cases head

theorem exponent_read (n : ScientificForm) :
    FloatScan.exponent? n.exponentText = some n.exponent := by
  unfold exponentText exponent
  split
  · rename_i e _
    simp [FloatScan.exponent?, e.marks, e.power.read_text, Integer.value, IntegerForm.value]
  · rfl

theorem behind_point (n : ScientificForm) (rest : List Char)
    (body : n.mantissa.body = n.mantissa.whole ++ rest) :
    FloatScan.behindPoint (rest ++ n.exponentText) = (n.mantissa.fraction, n.exponentText) := by
  have decimal := n.mantissa.fraction_decimal
  have ends (c : Char) (head : n.exponentText.head? = some c) : c.isDigit = false :=
    isDigit_mark c (n.exponentText_head c head)
  have rest := List.append_cancel_left body
  unfold DecimalForm.fraction at decimal ⊢
  cases pointed : n.mantissa.behind? with
  | none =>
      rw [← rest, pointed]
      change FloatScan.behindPoint n.exponentText = ([], n.exponentText)
      unfold FloatScan.behindPoint
      split
      · rename_i later point
        exact absurd rfl (mark_ne_point '.' (n.exponentText_head '.' (by rw [point]; rfl)))
      · rfl
  | some digits =>
      rw [pointed] at decimal
      rw [← rest, pointed]
      exact Prod.ext (digits_taken decimal ends) (digits_dropped decimal ends)

theorem scan_text (n : ScientificForm) :
    FloatScan.read? (n.mantissa.body ++ n.exponentText) = some n.scan := by
  have decimal := n.mantissa.whole_decimal
  obtain ⟨rest, body⟩ : ∃ rest, n.mantissa.body = n.mantissa.whole ++ rest := ⟨_, rfl⟩
  have ends (c : Char) (head : (rest ++ n.exponentText).head? = some c) : c.isDigit = false := by
    have tail := List.append_cancel_left body
    cases pointed : n.mantissa.behind? with
    | none =>
        rw [← tail, pointed] at head
        exact isDigit_mark c (n.exponentText_head c head)
    | some digits =>
        rw [← tail, pointed] at head
        cases head
        rfl
  have nonempty : (n.mantissa.whole.isEmpty && n.mantissa.fraction.isEmpty) = false := by
    have digits := n.mantissa.nonempty
    simpa [DecimalForm.fraction] using digits
  unfold FloatScan.read?
  simp only [body, List.append_assoc, digits_taken decimal ends, digits_dropped decimal ends,
    n.behind_point rest body, nonempty, n.exponent_read]
  rfl

theorem of_exponent (text : List Char) (exponent : Int)
    (read : FloatScan.exponent? text = some exponent) (mantissa : DecimalForm) :
    ∃ n : ScientificForm, n.mantissa = mantissa ∧ n.exponentText = text := by
  cases text with
  | nil => exact ⟨⟨mantissa, none⟩, rfl, rfl⟩
  | cons mark power =>
      by_cases marks : Scientific.isMark mark = true
      · rw [FloatScan.exponent?, if_pos marks] at read
        obtain ⟨n, scanned, -⟩ := Option.map_eq_some_iff.mp read
        obtain ⟨form, whole, -⟩ := IntegerForm.of_read power n scanned
        refine ⟨⟨mantissa, some ⟨mark, marks, form⟩⟩, rfl, ?_⟩
        simp [exponentText, whole]
      · rw [FloatScan.exponent?, if_neg marks] at read
        cases read

theorem of_behind (text : List Char) :
    ∃ behind? : Option (List Char), behind?.getD [] = (FloatScan.behindPoint text).1 ∧
      pointText behind? ++ (FloatScan.behindPoint text).2 = text := by
  unfold FloatScan.behindPoint
  split
  · rename_i later
    exact ⟨some _, rfl, congrArg ('.' :: ·) List.takeWhile_append_dropWhile⟩
  · exact ⟨none, rfl, rfl⟩

theorem behindPoint_decimal (text : List Char) :
    allDigits (FloatScan.behindPoint text).1 = true := by
  unfold FloatScan.behindPoint
  split
  · exact List.all_eq_true.mpr fun c member => List.mem_takeWhile_imp member
  · rfl

theorem of_scan (sign : Sign) (text : List Char) (s : FloatScan)
    (read : FloatScan.read? text = some s) : ∃ n : ScientificForm, n.text = sign.text ++ text := by
  have joined := List.takeWhile_append_dropWhile (p := Char.isDigit) (l := text)
  have whole : allDigits (text.takeWhile Char.isDigit) = true :=
    List.all_eq_true.mpr fun c member => List.mem_takeWhile_imp member
  have fraction := behindPoint_decimal (text.dropWhile Char.isDigit)
  obtain ⟨behind?, digits, split⟩ := of_behind (text.dropWhile Char.isDigit)
  unfold FloatScan.read? at read
  simp only at read
  split at read
  · cases read
  · rename_i nonempty
    obtain ⟨exponent, power, -⟩ := Option.map_eq_some_iff.mp read
    rw [← digits] at fraction nonempty
    obtain ⟨n, mantissa, back⟩ := of_exponent _ exponent power
      ⟨sign, text.takeWhile Char.isDigit, behind?,
        (allDigits_append _ _).mpr ⟨whole, fraction⟩, by simpa using nonempty⟩
    refine ⟨n, ?_⟩
    rw [ScientificForm.text, mantissa, back]
    simp only [DecimalForm.text, DecimalForm.body, List.append_assoc]
    rw [split, joined]

end ScientificForm

end Scanning

section Languages

/-- The names of infinity and not-a-number. -/
def Named (name : List Char) : Prop :=
  name.map Char.toLower ∈ ["inf".toList, "infinity".toList, "nan".toList]

instance (name : List Char) : Decidable (Named name) :=
  inferInstanceAs (Decidable (name.map Char.toLower ∈ _))

/-- A name starts with a letter that no number has. -/
theorem Named.head {name : List Char} (named : Named name) :
    ∃ c rest, name = c :: rest ∧ c.isDigit = false ∧ isSign c = false ∧ c ≠ '.' ∧
      Scientific.isMark c = false := by
  cases name with
  | nil => simp [Named] at named
  | cons c rest =>
      have letter : c.toLower = 'i' ∨ c.toLower = 'n' := by
        have options := named
        simp only [Named, List.map_cons, List.mem_cons, List.not_mem_nil, or_false] at options
        rcases options with same | same | same
        · exact .inl (List.cons.inj same).1
        · exact .inl (List.cons.inj same).1
        · exact .inr (List.cons.inj same).1
      refine ⟨c, rest, rfl, ?_, ?_, ?_, ?_⟩
      · apply Bool.eq_false_iff.mpr
        intro digit
        rw [← digitChar_digitValue c digit] at letter
        have small := digitValue_lt c digit
        generalize digitValue c = value at letter small
        revert letter
        revert value
        decide
      · apply Bool.eq_false_iff.mpr
        intro sign
        rcases (by simpa [isSign] using sign : c = '+' ∨ c = '-') with rfl | rfl <;>
          exact absurd letter (by decide)
      · rintro rfl
        exact absurd letter (by decide)
      · apply Bool.eq_false_iff.mpr
        intro mark
        rcases (by simpa [Scientific.isMark] using mark : c = 'e' ∨ c = 'E') with rfl | rfl <;>
          exact absurd letter (by decide)

theorem Named.not_form {name : List Char} (named : Named name) (sign : Sign)
    (n : ScientificForm) : n.text ≠ sign.text ++ name := by
  obtain ⟨c, rest, rfl, digit, unsigned, point, mark⟩ := named.head
  intro same
  have member : c ∈ n.text := by simp [same]
  rcases n.mem_text c member with is | is | is | is
  · exact absurd is (by simp [digit])
  · exact absurd is (by simp [unsigned])
  · exact point is
  · exact absurd is (by simp [mark])

namespace Format

theorem named_iff (f : Format) (negative : Bool) (name : List Char) :
    (∃ value, f.named? negative name = some value) ↔ Named name := by
  unfold named? Named
  simp only [List.mem_cons, List.not_mem_nil, or_false]
  constructor
  · rintro ⟨value, found⟩
    split at found
    · rename_i infinite
      rcases infinite with same | same
      · exact .inl same
      · exact .inr (.inl same)
    · split at found
      · rename_i same
        exact .inr (.inr same)
      · cases found
  · intro names
    split
    · exact ⟨_, rfl⟩
    · rename_i finite
      rcases names with same | same | same
      · exact absurd (.inl same) finite
      · exact absurd (.inr same) finite
      · exact ⟨.nan, if_pos same⟩

/-- A form is read as the number it denotes, rounded to the format. -/
theorem read_form (f : Format) (n : ScientificForm) :
    f.read? n.text =
      some (.signed n.negative (f.nearestDecimal n.parts.coefficient n.parts.scale)) := by
  have split : splitSign n.text = (n.negative, n.mantissa.body ++ n.exponentText) := by
    rw [ScientificForm.text, DecimalForm.text, List.append_assoc]
    exact splitSign_text _ _ (n.mantissa.body_unsigned _)
  unfold read?
  simp only [split, n.scan_text]
  rfl

theorem read_named (f : Format) (sign : Sign) (name : List Char) (named : Named name) :
    ∃ value, f.read? (sign.text ++ name) = some value := by
  obtain ⟨c, rest, same, _, unsigned, _, _⟩ := named.head
  have split : splitSign (sign.text ++ name) = (sign.negative, name) := by
    apply splitSign_text
    intro first head
    rw [same] at head
    cases head
    exact unsigned
  have unscanned : FloatScan.read? name = none := by
    cases scanned : FloatScan.read? name with
    | none => rfl
    | some s =>
        obtain ⟨n, whole⟩ := ScientificForm.of_scan sign name s scanned
        exact absurd whole (named.not_form sign n)
  unfold read?
  simp only [split, unscanned]
  exact (f.named_iff sign.negative name).mpr named

/-- What the reader takes is a scientific form or, behind an optional sign, a name. -/
theorem read_iff (f : Format) (text : List Char) :
    (∃ value, f.read? text = some value) ↔
      (∃ n : ScientificForm, n.text = text) ∨
        ∃ (sign : Sign) (name : List Char), Named name ∧ sign.text ++ name = text := by
  constructor
  · rintro ⟨value, read⟩
    obtain ⟨sign, negative, split⟩ := splitSign_sign text
    unfold read? at read
    simp only at read
    cases scanned : FloatScan.read? (splitSign text).2 with
    | some s =>
        obtain ⟨n, whole⟩ := ScientificForm.of_scan sign _ s scanned
        exact .inl ⟨n, whole.trans split⟩
    | none =>
        rw [scanned] at read
        exact .inr ⟨sign, _, (f.named_iff _ _).mp ⟨value, read⟩, split⟩
  · rintro (⟨n, rfl⟩ | ⟨sign, name, named, rfl⟩)
    · exact ⟨_, f.read_form n⟩
    · exact f.read_named sign name named

end Format

end Languages

end SchemaDefaults.Number

namespace SchemaDefaults

open Number

namespace Conversion

section Names

/-- The names of the values that are no numbers. -/
def Special (text : List Char) : Prop :=
  text ∈ ["INF".toList, "+INF".toList, "-INF".toList, "NaN".toList]

instance (text : List Char) : Decidable (Special text) :=
  inferInstanceAs (Decidable (text ∈ _))

theorem special_iff (text : List Char) :
    (∃ name, special? text = some name) ↔ Special text := by
  unfold special? Special
  simp only [List.mem_cons, List.not_mem_nil, or_false]
  constructor
  · rintro ⟨name, found⟩
    split at found
    · rename_i positive
      rcases positive with same | same
      · exact .inl same
      · exact .inr (.inl same)
    · split at found
      · rename_i same
        exact .inr (.inr (.inl same))
      · split at found
        · rename_i same
          exact .inr (.inr (.inr same))
        · cases found
  · rintro (rfl | rfl | rfl | rfl)
    · exact ⟨"INF", rfl⟩
    · exact ⟨"INF", rfl⟩
    · exact ⟨"-INF", rfl⟩
    · exact ⟨"NaN", rfl⟩

theorem special_none (text : List Char) (other : ¬ Special text) : special? text = none := by
  cases found : special? text with
  | none => rfl
  | some name => exact absurd ((special_iff text).mp ⟨name, found⟩) other

/-- A special name is a name behind a sign, so it is no number. -/
theorem Special.not_form {text : List Char} (special : Special text) (n : ScientificForm) :
    n.text ≠ text := by
  simp only [Special, List.mem_cons, List.not_mem_nil, or_false] at special
  rcases special with rfl | rfl | rfl | rfl
  · exact (show Named "INF".toList by decide).not_form .absent n
  · exact (show Named "INF".toList by decide).not_form .plus n
  · exact (show Named "INF".toList by decide).not_form .minus n
  · exact (show Named "NaN".toList by decide).not_form .absent n

end Names

section Forms

theorem floatText_form (kind : FloatKind) (n : ScientificForm) :
    ∃ name, floatText? kind n.text = some name := by
  cases kind with
  | float => exact ⟨_, by rw [floatText?, binary32.read_form n, Option.map_some]⟩
  | double => exact ⟨_, by rw [floatText?, binary64.read_form n, Option.map_some]⟩

theorem float_form (kind : FloatKind) (n : ScientificForm) :
    float? kind n.text = (floatText? kind n.text).map fun name => .float kind name := by
  have other : special? n.text = none :=
    special_none _ fun special => special.not_form n rfl
  rw [float?, other]
  simp only [n.read_text, Option.bind_some]

theorem float_accepts_iff (kind : FloatKind) (text : List Char) :
    (∃ literal, float? kind text = some literal) ↔
      Special text ∨ ∃ n : ScientificForm, n.text = text := by
  constructor
  · rintro ⟨literal, converted⟩
    by_cases special : Special text
    · exact .inl special
    · rw [float?, special_none text special] at converted
      obtain ⟨s, read, -⟩ := Option.bind_eq_some_iff.mp converted
      obtain ⟨n, whole, -⟩ := ScientificForm.of_read text s read
      exact .inr ⟨n, whole⟩
  · rintro (special | ⟨n, rfl⟩)
    · obtain ⟨name, found⟩ := (special_iff text).mpr special
      exact ⟨.float kind name, by rw [float?, found]⟩
    · obtain ⟨name, written⟩ := floatText_form kind n
      exact ⟨.float kind name, by rw [float_form, written, Option.map_some]⟩

end Forms

end Conversion

/-- A text converts to a float of either kind if and only if it is one of four special names or a
decimal with an exponent possibly behind it. The reader takes all of these forms, in any format,
and besides them the names of infinity and not-a-number behind any sign and in any case of their
letters; of the latter only the four convert. -/
theorem float_acceptance (kind : FloatKind) (lexical : String) :
    let text := Text.trim lexical.toList
    ((∃ literal, convert lexical (.float .float) = .ok literal) ↔
      ∃ literal, convert lexical (.float .double) = .ok literal) ∧
    ((∃ literal, convert lexical (.float kind) = .ok literal) ↔
      Conversion.Special text ∨ ∃ n : ScientificForm, n.text = text) ∧
    (∀ f : Format, (Scientific.read? text).isSome = true → ∃ value, f.read? text = some value) ∧
    (∀ f : Format, (∃ value, f.read? text = some value) ↔
      (∃ n : ScientificForm, n.text = text) ∨
        ∃ (sign : Sign) (name : List Char), Named name ∧ sign.text ++ name = text) ∧
    (∀ (sign : Sign) (name : List Char), Named name → sign.text ++ name = text →
      ¬ Conversion.Special text → convert lexical (.float kind) = .error ⟨lexical, .float kind⟩) := by
  intro text
  have accepts (kind : FloatKind) : (∃ literal, convert lexical (.float kind) = .ok literal) ↔
      Conversion.Special text ∨ ∃ n : ScientificForm, n.text = text := by
    simp only [convert_ok_iff]
    exact Conversion.float_accepts_iff kind text
  refine ⟨(accepts .float).trans (accepts .double).symm, accepts kind, ?_, ?_, ?_⟩
  · intro f checked
    obtain ⟨s, read⟩ := Option.isSome_iff_exists.mp checked
    obtain ⟨n, whole, -⟩ := ScientificForm.of_read text s read
    rw [← whole]
    exact ⟨_, f.read_form n⟩
  · intro f
    exact f.read_iff text
  · intro sign name named whole other
    cases converted : convert lexical (.float kind) with
    | ok literal =>
        rcases (accepts kind).mp ⟨literal, converted⟩ with special | ⟨n, form⟩
        · exact absurd special other
        · exact absurd (form.trans whole.symm) (named.not_form sign n)
    | error e =>
        obtain ⟨-, rfl⟩ := (convert_error_iff _ _ _).mp converted
        rfl

/-- A name that the reader knows and that does not convert. -/
theorem infinity_refused :
    convert " +Infinity" (.float .double) = .error ⟨" +Infinity", .float .double⟩ :=
  (float_acceptance .double " +Infinity").2.2.2.2 .plus "Infinity".toList (by decide) (by decide)
    (by decide)

end SchemaDefaults
