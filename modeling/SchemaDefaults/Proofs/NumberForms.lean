import Mathlib.Algebra.Order.Field.Rat
import SchemaDefaults.Number.Float
import SchemaDefaults.Proofs.Digits
import SchemaDefaults.Text
/-!
The forms of number texts, each with the number it denotes. An integer is an optionally signed
run of digits. A decimal may have a point among its digits, of which there is at least one. A
scientific form may have an exponent behind a decimal. What is read off a text is its form, and
a text that has none is refused.
-/

namespace SchemaDefaults.Number

section Signs

inductive Sign where
  | absent | plus | minus
deriving DecidableEq, Repr

namespace Sign

def text : Sign → List Char
  | .absent => []
  | .plus => ['+']
  | .minus => ['-']

def negative : Sign → Bool
  | .minus => true
  | _ => false

theorem mem_text (sign : Sign) (c : Char) (member : c ∈ sign.text) : c = '+' ∨ c = '-' := by
  cases sign <;> simp_all [text]

end Sign

/-- The number with the sign in front of it. -/
def signed (negative : Bool) (magnitude : ℚ) : ℚ := if negative then -magnitude else magnitude

def isSign (c : Char) : Bool := c == '+' || c == '-'

theorem splitSign_text (sign : Sign) (body : List Char)
    (unsigned : ∀ c, body.head? = some c → isSign c = false) :
    splitSign (sign.text ++ body) = (sign.negative, body) := by
  cases sign with
  | plus | minus => rfl
  | absent =>
      change splitSign body = (false, body)
      unfold splitSign
      split
      · cases unsigned '-' rfl
      · cases unsigned '+' rfl
      · rfl

theorem splitSign_sign (text : List Char) :
    ∃ sign : Sign, sign.negative = (splitSign text).1 ∧
      sign.text ++ (splitSign text).2 = text := by
  unfold splitSign
  split
  · exact ⟨.minus, rfl, rfl⟩
  · exact ⟨.plus, rfl, rfl⟩
  · exact ⟨.absent, rfl, rfl⟩

theorem isSign_digit (c : Char) (digit : c.isDigit = true) : isSign c = false := by
  apply Bool.eq_false_iff.mpr
  intro sign
  rcases (by simpa [isSign] using sign : c = '+' ∨ c = '-') with rfl | rfl <;>
    exact absurd digit (by decide)

theorem isMark_digit (c : Char) (digit : c.isDigit = true) : Scientific.isMark c = false := by
  apply Bool.eq_false_iff.mpr
  intro mark
  rcases (by simpa [Scientific.isMark] using mark : c = 'e' ∨ c = 'E') with rfl | rfl <;>
    exact absurd digit (by decide)

end Signs

section Integers

structure IntegerForm where
  sign : Sign
  digits : List Char
  decimal : allDigits digits = true
  nonempty : digits ≠ []

namespace IntegerForm

def text (n : IntegerForm) : List Char := n.sign.text ++ n.digits

def value (n : IntegerForm) : Int :=
  if n.sign.negative then -(digitsValue n.digits : Int) else digitsValue n.digits

theorem mem_text (n : IntegerForm) (c : Char) (member : c ∈ n.text) :
    c.isDigit = true ∨ isSign c = true := by
  rcases List.mem_append.mp member with sign | digit
  · rcases n.sign.mem_text c sign with rfl | rfl <;> exact .inr rfl
  · exact .inl (List.all_eq_true.mp n.decimal c digit)

theorem read_text (n : IntegerForm) :
    Integer.read? n.text = some ⟨n.sign.negative, n.digits⟩ := by
  have split : splitSign n.text = (n.sign.negative, n.digits) := by
    apply splitSign_text
    intro c head
    exact isSign_digit c (List.all_eq_true.mp n.decimal c (List.mem_of_mem_head? head))
  have nonempty : n.digits.isEmpty = false := by simpa using n.nonempty
  simp [Integer.read?, split, nonempty, n.decimal]

theorem of_read (text : List Char) (n : Integer) (read : Integer.read? text = some n) :
    ∃ form : IntegerForm, form.text = text ∧ form.value = n.value ∧
      n = ⟨form.sign.negative, form.digits⟩ := by
  obtain ⟨sign, negative, whole⟩ := splitSign_sign text
  have decimal := read
  unfold Integer.read? at decimal
  simp only at decimal
  split at decimal
  · cases decimal
  · rename_i accepted
    cases decimal
    simp only [Bool.or_eq_true, not_or, Bool.not_eq_true, Bool.not_eq_false'] at accepted
    have nonempty : (splitSign text).2 ≠ [] := by simpa using accepted.1
    refine ⟨⟨sign, (splitSign text).2, accepted.2, nonempty⟩, whole, ?_, ?_⟩
    · simp [value, Integer.value, negative]
    · simp [negative]

end IntegerForm

end Integers

section Decimals

/-- A point and the digits behind it. -/
def pointText : Option (List Char) → List Char
  | some digits => '.' :: digits
  | none => []

/-- There may be no digit on one side of the point. -/
structure DecimalForm where
  sign : Sign
  whole : List Char
  behind? : Option (List Char)
  decimal : allDigits (whole ++ behind?.getD []) = true
  nonempty : whole ++ behind?.getD [] ≠ []

namespace DecimalForm

def fraction (d : DecimalForm) : List Char := d.behind?.getD []

/-- The digits, and the point where there is one. -/
def body (d : DecimalForm) : List Char := d.whole ++ pointText d.behind?

def text (d : DecimalForm) : List Char := d.sign.text ++ d.body

/-- All digits of the decimal, which denotes them divided by a power of ten. -/
def digits (d : DecimalForm) : List Char := d.whole ++ d.fraction

def magnitude (d : DecimalForm) : ℚ := digitsValue d.digits / 10 ^ d.fraction.length

def value (d : DecimalForm) : ℚ := signed d.sign.negative d.magnitude

theorem whole_decimal (d : DecimalForm) : allDigits d.whole = true :=
  ((allDigits_append _ _).mp d.decimal).1

theorem fraction_decimal (d : DecimalForm) : allDigits d.fraction = true :=
  ((allDigits_append _ _).mp d.decimal).2

theorem mem_body (d : DecimalForm) (c : Char) (member : c ∈ d.body) :
    c.isDigit = true ∨ c = '.' := by
  have fraction := d.fraction_decimal
  rcases List.mem_append.mp member with whole | behind
  · exact .inl (List.all_eq_true.mp d.whole_decimal c whole)
  · unfold DecimalForm.fraction at fraction
    cases pointed : d.behind? with
    | none => simp [pointed, pointText] at behind
    | some digits =>
        rw [pointed] at fraction behind
        rcases List.mem_cons.mp behind with rfl | digit
        · exact .inr rfl
        · exact .inl (List.all_eq_true.mp fraction c digit)

theorem mem_text (d : DecimalForm) (c : Char) (member : c ∈ d.text) :
    c.isDigit = true ∨ isSign c = true ∨ c = '.' := by
  rcases List.mem_append.mp member with sign | body
  · rcases d.sign.mem_text c sign with rfl | rfl <;> exact .inr (.inl rfl)
  · exact (d.mem_body c body).imp_right .inr

theorem body_unsigned (d : DecimalForm) (rest : List Char) (c : Char)
    (head : (d.body ++ rest).head? = some c) : isSign c = false := by
  have nonempty : d.body ≠ [] := by
    have digits := d.nonempty
    unfold body
    cases pointed : d.behind? with
    | none => simpa [pointed, pointText] using digits
    | some behind => simp [pointText]
  have first : d.body.head? = some c := by
    cases body : d.body with
    | nil => exact absurd body nonempty
    | cons _ _ => simpa [body] using head
  rcases d.mem_body c (List.mem_of_mem_head? first) with digit | rfl
  · exact isSign_digit c digit
  · rfl

theorem read_text (d : DecimalForm) :
    Decimal.read? d.text = some ⟨d.sign.negative, d.whole, d.fraction⟩ := by
  have split : splitSign d.text = (d.sign.negative, d.body) :=
    splitSign_text _ _ fun c head => d.body_unsigned [] c (by rwa [List.append_nil])
  have plain : ∀ c ∈ d.whole, (c != '.') = true := by
    intro c member
    rw [bne_iff_ne]
    rintro rfl
    exact absurd (List.all_eq_true.mp d.whole_decimal '.' member) (by decide)
  have whole : d.body.takeWhile (· != '.') = d.whole := by
    unfold body
    rw [List.takeWhile_append_of_pos plain]
    cases d.behind? <;> simp [pointText]
  have fraction : (d.body.dropWhile (· != '.')).drop 1 = d.fraction := by
    unfold body DecimalForm.fraction
    rw [List.dropWhile_append_of_pos plain]
    cases d.behind? <;> simp [pointText]
  have nonempty : (d.whole.isEmpty && d.fraction.isEmpty) = false := by
    have digits := d.nonempty
    simpa [DecimalForm.fraction] using digits
  simp [Decimal.read?, split, whole, fraction, nonempty, d.whole_decimal, d.fraction_decimal]

theorem of_read (text : List Char) (d : Decimal) (read : Decimal.read? text = some d) :
    ∃ form : DecimalForm, form.text = text ∧
      d = ⟨form.sign.negative, form.whole, form.fraction⟩ := by
  obtain ⟨sign, negative, split⟩ := splitSign_sign text
  obtain ⟨whole, fraction⟩ := Decimal.read_digits text d read
  unfold Decimal.read? at read
  simp only at read
  split at read
  · cases read
  · rename_i nonempty
    split at read
    · cases read
      simp only at whole fraction
      simp only [Bool.and_eq_true, List.isEmpty_iff] at nonempty
      have joined := List.takeWhile_append_dropWhile (p := (· != '.')) (l := (splitSign text).2)
      -- Behind the digits in front of the point there is nothing or the point.
      cases behind : (splitSign text).2.dropWhile (· != '.') with
      | nil =>
          rw [behind] at joined fraction nonempty
          rw [List.append_nil] at joined
          refine ⟨⟨sign, (splitSign text).2.takeWhile (· != '.'), none, ?_, ?_⟩, ?_, ?_⟩
          · simpa using whole
          · simpa using nonempty
          · simp only [DecimalForm.text, DecimalForm.body, pointText, List.append_nil]
            rw [joined, split]
          · simp [DecimalForm.fraction, negative]
      | cons point rest =>
          have first := List.head?_dropWhile_not (· != '.') (splitSign text).2
          rw [behind] at joined fraction nonempty first
          have point : point = '.' := by simpa using first
          subst point
          refine ⟨⟨sign, (splitSign text).2.takeWhile (· != '.'), some rest, ?_, ?_⟩, ?_, ?_⟩
          · exact (allDigits_append _ _).mpr ⟨whole, fraction⟩
          · simpa using nonempty
          · simp only [DecimalForm.text, DecimalForm.body, pointText]
            rw [joined, split]
          · simp [DecimalForm.fraction, negative]
    · cases read

end DecimalForm

end Decimals

section Scientifics

structure ExponentForm where
  mark : Char
  marks : Scientific.isMark mark = true
  power : IntegerForm

structure ScientificForm where
  mantissa : DecimalForm
  exponent? : Option ExponentForm

namespace ScientificForm

def exponentText (n : ScientificForm) : List Char :=
  match n.exponent? with
  | some e => e.mark :: e.power.text
  | none => []

def text (n : ScientificForm) : List Char := n.mantissa.text ++ n.exponentText

def exponent (n : ScientificForm) : Int :=
  match n.exponent? with
  | some e => e.power.value
  | none => 0

def negative (n : ScientificForm) : Bool := n.mantissa.sign.negative

def magnitude (n : ScientificForm) : ℚ := n.mantissa.magnitude * 10 ^ n.exponent

/-- The parts that are read. -/
def parts (n : ScientificForm) : Scientific :=
  ⟨⟨n.negative, n.mantissa.whole, n.mantissa.fraction⟩, n.exponent⟩

theorem mem_text (n : ScientificForm) (c : Char) (member : c ∈ n.text) :
    c.isDigit = true ∨ isSign c = true ∨ c = '.' ∨ Scientific.isMark c = true := by
  rcases List.mem_append.mp member with mantissa | power
  · rcases n.mantissa.mem_text c mantissa with digit | sign | point
    · exact .inl digit
    · exact .inr (.inl sign)
    · exact .inr (.inr (.inl point))
  · unfold exponentText at power
    split at power
    · rename_i e _
      rcases List.mem_cons.mp power with rfl | power
      · exact .inr (.inr (.inr e.marks))
      · exact (e.power.mem_text c power).imp_right .inl
    · cases power

theorem mantissa_unmarked (n : ScientificForm) (c : Char) (member : c ∈ n.mantissa.text) :
    (!Scientific.isMark c) = true := by
  rw [Bool.not_eq_true']
  rcases n.mantissa.mem_text c member with digit | sign | rfl
  · exact isMark_digit c digit
  · rcases (by simpa [isSign] using sign : c = '+' ∨ c = '-') with rfl | rfl <;> rfl
  · rfl

theorem read_text (n : ScientificForm) : Scientific.read? n.text = some n.parts := by
  have front : n.text.takeWhile (!Scientific.isMark ·) = n.mantissa.text := by
    unfold text exponentText
    rw [List.takeWhile_append_of_pos n.mantissa_unmarked]
    split
    · rename_i e _
      simp [e.marks]
    · simp
  have back : n.text.dropWhile (!Scientific.isMark ·) = n.exponentText := by
    unfold text exponentText
    rw [List.dropWhile_append_of_pos n.mantissa_unmarked]
    split
    · rename_i e _
      simp [e.marks]
    · simp
  unfold Scientific.read?
  simp only [front, back, n.mantissa.read_text]
  cases given : n.exponent? with
  | none => simp [exponentText, given, parts, negative, exponent]
  | some e =>
      simp [exponentText, given, e.power.read_text, parts, negative, exponent, Integer.value,
        IntegerForm.value]

theorem of_read (text : List Char) (s : Scientific) (read : Scientific.read? text = some s) :
    ∃ form : ScientificForm, form.text = text ∧ form.parts = s := by
  have joined := List.takeWhile_append_dropWhile (p := (!Scientific.isMark ·)) (l := text)
  unfold Scientific.read? at read
  simp only at read
  cases behind : text.dropWhile (!Scientific.isMark ·) with
  | nil =>
      rw [behind] at read joined
      obtain ⟨m, mantissa, rfl⟩ := Option.map_eq_some_iff.mp read
      obtain ⟨form, whole, rfl⟩ := DecimalForm.of_read _ m mantissa
      refine ⟨⟨form, none⟩, ?_, rfl⟩
      rw [ScientificForm.text, whole]
      exact joined
  | cons mark power =>
      have first := List.head?_dropWhile_not (!Scientific.isMark ·) text
      rw [behind] at read joined first
      have marks : Scientific.isMark mark = true := by simpa using first
      simp only at read
      cases mantissa : Decimal.read? (text.takeWhile (!Scientific.isMark ·)) with
      | none => simp [mantissa] at read
      | some m =>
          cases scale : Integer.read? power with
          | none => simp [mantissa, scale] at read
          | some n =>
              simp only [mantissa, scale, Option.some.injEq] at read
              obtain ⟨form, front, rfl⟩ := DecimalForm.of_read _ m mantissa
              obtain ⟨exponent, back, value, -⟩ := IntegerForm.of_read power n scale
              refine ⟨⟨form, some ⟨mark, marks, exponent⟩⟩, ?_, ?_⟩
              · rw [ScientificForm.text, front]
                simp only [exponentText, back]
                exact joined
              · rw [← read, ← value]
                rfl

end ScientificForm

end Scientifics

section Trimming

theorem trim_bare (text : List Char) (bare : ∀ c ∈ text, Text.isBlank c = false) :
    Text.trim text = text := by
  have kept (l : List Char) (bare : ∀ c ∈ l, Text.isBlank c = false) :
      l.dropWhile Text.isBlank = l := by
    cases l with
    | nil => rfl
    | cons c rest => simp [bare c List.mem_cons_self]
  unfold Text.trim Text.dropEndWhile
  rw [kept text bare, kept text.reverse fun c member => bare c (List.mem_reverse.mp member),
    List.reverse_reverse]

theorem isBlank_digit (c : Char) (digit : c.isDigit = true) : Text.isBlank c = false := by
  have range := isDigit_toNat c digit
  simp only [Text.isBlank, Bool.or_eq_false_iff, Bool.and_eq_false_iff, decide_eq_false_iff_not,
    beq_eq_false_iff_ne]
  omega

theorem ScientificForm.trim_text (n : ScientificForm) : Text.trim n.text = n.text := by
  apply trim_bare
  intro c member
  rcases n.mem_text c member with digit | sign | rfl | mark
  · exact isBlank_digit c digit
  · rcases (by simpa [isSign] using sign : c = '+' ∨ c = '-') with rfl | rfl <;> rfl
  · rfl
  · rcases (by simpa [Scientific.isMark] using mark : c = 'e' ∨ c = 'E') with rfl | rfl <;> rfl

theorem DecimalForm.trim_text (d : DecimalForm) : Text.trim d.text = d.text := by
  have plain : (⟨d, none⟩ : ScientificForm).text = d.text := List.append_nil _
  rw [← plain, ScientificForm.trim_text]

end Trimming

end SchemaDefaults.Number
