import SchemaDefaults.Proofs.Letters
import SchemaDefaults.Proofs.NumberForms
/-!
Numerals: the spellings of numbers. A numeral has a mantissa and perhaps a power of ten behind it.
Whatever the numeral, the scan reads it as one number; and a text that the scan does not refuse
behind the first character of a number consists of the rest of a numeral and what ends it.
-/

namespace SchemaDefaults

namespace Token

open Number (IsWhole Sign allDigits)

/-- A minus or none, whole digits, and the digits behind the point; without a point these are
none. -/
structure Mantissa where
  minus : Bool
  whole : List Char
  fraction : List Char
  isWhole : IsWhole whole
  decimal : allDigits fraction = true

structure Power where
  mark : Char
  sign : Sign
  digits : List Char
  isMark : NumberScan.isMark mark = true
  decimal : allDigits digits = true
  nonempty : digits ≠ []

structure Numeral where
  mantissa : Mantissa
  power : Option Power

namespace Mantissa

def minusText (minus : Bool) : List Char := if minus then ['-'] else []

def fractionText (digits : List Char) : List Char := if digits.isEmpty then [] else '.' :: digits

def spelling (m : Mantissa) : List Char := minusText m.minus ++ (m.whole ++ fractionText m.fraction)

/-- What a scan has collected behind the mantissa. -/
def scanned (m : Mantissa) : NumberText := ⟨m.minus, m.whole.reverse, m.fraction.reverse, false, []⟩

def part (m : Mantissa) : NumberPart :=
  if m.fraction.isEmpty then if m.whole = ['0'] then .zero else .whole else .fraction

end Mantissa

def Power.spelling (p : Power) : List Char := p.mark :: (p.sign.text ++ p.digits)

namespace Numeral

def spelling (n : Numeral) : List Char :=
  n.mantissa.spelling ++ n.power.elim [] Power.spelling

def text (n : Numeral) : NumberText :=
  { minus := n.mantissa.minus
    whole := n.mantissa.whole
    fraction := n.mantissa.fraction
    exponentMinus := n.power.any (·.sign.negative)
    exponent := n.power.elim [] Power.digits }

def value (n : Numeral) : Except Fault JsonNumber := n.text.value

end Numeral

section Reading

variable (done : List Token)

theorem scan_numberMore (before after : NumberScan) (c : Char) (rest : List Char)
    (step : before.step c = .more after) :
    scanFrom done (.number before) (c :: rest) = scanFrom done (.number after) rest := by
  simp [scanFrom, effect, step]

theorem scan_digitRun (put : List Char → NumberScan)
    (step : ∀ kept c, c.isDigit = true → (put kept).step c = .more (put (c :: kept)))
    (kept digits rest : List Char) (decimal : allDigits digits = true) :
    scanFrom done (.number (put kept)) (digits ++ rest) =
      scanFrom done (.number (put (digits.reverse ++ kept))) rest := by
  induction digits generalizing kept with
  | nil => rfl
  | cons c later ih =>
      obtain ⟨digit, others⟩ := (Number.allDigits_cons c later).mp decimal
      rw [List.cons_append, scan_numberMore done _ _ c _ (step kept c digit), ih (c :: kept) others]
      simp

theorem step_complete (n : NumberScan) (complete : n.complete = true) (c : Char)
    (digit : c.isDigit = false) (point : c ≠ '.') (mark : NumberScan.isMark c = false) :
    n.step c = .ended := by
  obtain ⟨part, text⟩ := n
  cases part with
  | minus | point | mark | power => cases complete
  | zero | whole => simp [NumberScan.step, NumberScan.behindWhole, digit, point, mark]
  | fraction => simp [NumberScan.step, digit, mark]
  | exponent => simp [NumberScan.step, digit]

theorem scan_numberEnd (n : NumberScan) (c : Char) (rest : List Char) (ended : n.step c = .ended) :
    scanFrom done (.number n) (c :: rest) =
      scanFrom (.number n.value :: done) .between (c :: rest) := by
  -- The character that ends the number is the first one of what stands behind.
  simp only [scanFrom, effect, ended]
  rcases begin c with ⟨tokens, _ | next⟩ <;> simp

theorem scan_complete (n : NumberScan) (complete : n.complete = true) (rest : List Char)
    (ends : Ends rest) :
    scanFrom done (.number n) rest = scanFrom (.number n.value :: done) .between rest := by
  cases rest with
  | nil => simp [scanFrom, atEnd, complete]
  | cons c later =>
      obtain ⟨digit, point, mark⟩ := ends c later rfl
      exact scan_numberEnd done n c later (step_complete n complete c digit point mark)

/-- The scan behind the first whole digit. -/
def firstDigit (minus : Bool) (c : Char) : NumberScan :=
  ⟨if c = '0' then .zero else .whole, ⟨minus, [c], [], false, []⟩⟩

theorem scan_firstDigit (minus : Bool) (c : Char) (rest : List Char) (digit : c.isDigit = true) :
    scanFrom done .between (Mantissa.minusText minus ++ c :: rest) =
      scanFrom done (.number (firstDigit minus c)) rest := by
  cases minus with
  | true =>
      have signed : scanFrom done .between ('-' :: c :: rest) =
          scanFrom done (.number ⟨.minus, ⟨true, [], [], false, []⟩⟩) (c :: rest) := rfl
      have step : NumberScan.step ⟨.minus, ⟨true, [], [], false, []⟩⟩ c =
          .more (firstDigit true c) := by
        by_cases zero : c = '0'
        · simp [NumberScan.step, NumberScan.addWhole, firstDigit, zero]
        · simp [NumberScan.step, NumberScan.addWhole, firstDigit, zero, digit]
      exact signed.trans (scan_numberMore done _ _ c rest step)
  | false =>
      by_cases zero : c = '0'
      · subst zero
        rfl
      · have start := begin_digit c digit zero
        simp [Mantissa.minusText, scanFrom, effect, start, firstDigit, zero, NumberScan.reading]

theorem scan_whole (minus : Bool) (whole rest : List Char) (isWhole : IsWhole whole) :
    scanFrom done .between (Mantissa.minusText minus ++ (whole ++ rest)) =
      scanFrom done (.number ⟨if whole = ['0'] then .zero else .whole,
        ⟨minus, whole.reverse, [], false, []⟩⟩) rest := by
  cases whole with
  | nil => exact absurd rfl isWhole.nonempty
  | cons c later =>
      obtain ⟨digit, others⟩ := (Number.allDigits_cons c later).mp isWhole.decimal
      rw [List.cons_append, scan_firstDigit done minus c _ digit]
      by_cases zero : c = '0'
      · -- Nothing but the zero itself can be whole behind a zero.
        subst zero
        cases isWhole.unpadded rfl
        rfl
      · have run := scan_digitRun done
          (fun kept => ⟨.whole, ⟨minus, kept, [], false, []⟩⟩)
          (fun kept d digit => by simp [NumberScan.step, NumberScan.addWhole, digit])
          [c] later rest others
        simpa [firstDigit, zero] using run

theorem scan_mantissa (m : Mantissa) (rest : List Char) :
    scanFrom done .between (m.spelling ++ rest) =
      scanFrom done (.number ⟨m.part, m.scanned⟩) rest := by
  rw [Mantissa.spelling, List.append_assoc, List.append_assoc,
    scan_whole done m.minus m.whole _ m.isWhole]
  unfold Mantissa.part Mantissa.scanned Mantissa.fractionText
  cases fraction : m.fraction with
  | nil => rfl
  | cons c later =>
      have decimal := m.decimal
      rw [fraction] at decimal
      obtain ⟨digit, others⟩ := (Number.allDigits_cons c later).mp decimal
      have point (part : NumberPart) (text : NumberText) (whole : part = .zero ∨ part = .whole) :
          NumberScan.step ⟨part, text⟩ '.' = .more ⟨.point, text⟩ := by
        rcases whole with rfl | rfl <;> rfl
      have first (text : NumberText) : NumberScan.step ⟨.point, text⟩ c =
          .more ⟨.fraction, { text with fraction := c :: text.fraction }⟩ := by
        simp [NumberScan.step, NumberScan.addFraction, digit]
      have run := scan_digitRun done
        (fun kept => ⟨.fraction, ⟨m.minus, m.whole.reverse, kept, false, []⟩⟩)
        (fun kept d digit => by simp [NumberScan.step, NumberScan.addFraction, digit])
        [c] later rest others
      have part : (if m.whole = ['0'] then NumberPart.zero else .whole) = .zero ∨
          (if m.whole = ['0'] then NumberPart.zero else .whole) = .whole := by
        by_cases zero : m.whole = ['0'] <;> simp [zero]
      simp only [List.isEmpty_cons, Bool.false_eq_true, ↓reduceIte, List.cons_append]
      rw [scan_numberMore done _ _ '.' _ (point _ _ part),
        scan_numberMore done _ _ c _ (first _), run]
      simp

/-- The scan behind a mantissa and a power. -/
def withPower (m : Mantissa) (p : Power) : NumberScan :=
  ⟨.exponent, { m.scanned with
    exponentMinus := p.sign.negative
    exponent := p.digits.reverse }⟩

theorem step_mark (m : Mantissa) (c : Char) (isMark : NumberScan.isMark c = true) :
    NumberScan.step ⟨m.part, m.scanned⟩ c = .more ⟨.mark, m.scanned⟩ := by
  have mark : c = 'e' ∨ c = 'E' := by simpa [NumberScan.isMark] using isMark
  have letter : c.isDigit = false ∧ c ≠ '.' := by rcases mark with rfl | rfl <;> decide
  unfold Mantissa.part
  by_cases unbroken : m.fraction.isEmpty = true
  · by_cases zero : m.whole = ['0'] <;>
      simp [NumberScan.step, NumberScan.behindWhole, unbroken, zero, letter, isMark]
  · simp [NumberScan.step, unbroken, letter, isMark]

theorem scan_power (m : Mantissa) (p : Power) (rest : List Char) :
    scanFrom done (.number ⟨m.part, m.scanned⟩) (p.spelling ++ rest) =
      scanFrom done (.number (withPower m p)) rest := by
  rw [Power.spelling, List.cons_append, scan_numberMore done _ _ _ _ (step_mark m p.mark p.isMark)]
  cases digits : p.digits with
  | nil => exact absurd digits p.nonempty
  | cons c later =>
      have decimal := p.decimal
      rw [digits] at decimal
      obtain ⟨digit, others⟩ := (Number.allDigits_cons c later).mp decimal
      have unsigned : c ≠ '+' ∧ c ≠ '-' := by
        constructor <;>
          · rintro rfl
            exact absurd digit (by decide)
      let put (kept : List Char) : NumberScan :=
        ⟨.exponent, { m.scanned with exponentMinus := p.sign.negative, exponent := kept }⟩
      have first : scanFrom done (.number ⟨.mark, m.scanned⟩)
          (p.sign.text ++ c :: (later ++ rest)) =
          scanFrom done (.number (put [c])) (later ++ rest) := by
        simp only [put]
        cases p.sign with
        | absent =>
            exact scan_numberMore done _ _ c _ (by
              simp [NumberScan.step, NumberScan.addExponent, unsigned, digit, Mantissa.scanned,
                Sign.negative])
        | plus =>
            exact scan_numberMore done ⟨.power, m.scanned⟩ _ c _ (by
              simp [NumberScan.step, NumberScan.addExponent, digit, Mantissa.scanned,
                Sign.negative])
        | minus =>
            exact scan_numberMore done ⟨.power, { m.scanned with exponentMinus := true }⟩ _ c _ (by
              simp [NumberScan.step, NumberScan.addExponent, digit, Mantissa.scanned,
                Sign.negative])
      have run := scan_digitRun done put
        (fun kept d digit => by simp [put, NumberScan.step, NumberScan.addExponent, digit])
        [c] later rest others
      rw [List.append_assoc, List.cons_append, first, run]
      simp [put, withPower, digits]

theorem value_scanned (m : Mantissa) :
    NumberScan.value ⟨m.part, m.scanned⟩ = Numeral.value ⟨m, none⟩ := by
  simp [NumberScan.value, Numeral.value, Numeral.text, Mantissa.scanned]

theorem value_withPower (m : Mantissa) (p : Power) :
    (withPower m p).value = Numeral.value ⟨m, some p⟩ := by
  simp [NumberScan.value, Numeral.value, Numeral.text, Mantissa.scanned, withPower]

theorem complete_part (m : Mantissa) (text : NumberText) :
    NumberScan.complete ⟨m.part, text⟩ = true := by
  unfold Mantissa.part
  by_cases unbroken : m.fraction.isEmpty = true
  · by_cases zero : m.whole = ['0'] <;> simp [NumberScan.complete, unbroken, zero]
  · simp [NumberScan.complete, unbroken]

theorem scan_numeral (n : Numeral) (rest : List Char) (ends : Ends rest) :
    scanFrom done .between (n.spelling ++ rest) =
      scanFrom (.number n.value :: done) .between rest := by
  obtain ⟨m, power⟩ := n
  rw [Numeral.spelling, List.append_assoc, scan_mantissa]
  cases power with
  | none =>
      rw [← value_scanned]
      exact scan_complete done _ (complete_part m _) rest ends
  | some p =>
      rw [← value_withPower, Option.elim_some, scan_power]
      exact scan_complete done _ rfl rest ends

end Reading

section Recognition

/-- The scan of a number, and the part of a numeral that it has read. -/
inductive Begun : NumberScan → List Char → Prop where
  | minus : Begun ⟨.minus, ⟨true, [], [], false, []⟩⟩ ['-']
  | mantissa (m : Mantissa) : Begun ⟨m.part, m.scanned⟩ m.spelling
  | point (m : Mantissa) (unbroken : m.fraction = []) :
      Begun ⟨.point, m.scanned⟩ (m.spelling ++ ['.'])
  | mark (m : Mantissa) (c : Char) (isMark : NumberScan.isMark c = true) :
      Begun ⟨.mark, m.scanned⟩ (m.spelling ++ [c])
  | power (m : Mantissa) (c : Char) (isMark : NumberScan.isMark c = true) (sign : Sign) :
      Begun ⟨.power, { m.scanned with exponentMinus := sign.negative }⟩
        (m.spelling ++ c :: sign.text)
  | exponent (m : Mantissa) (p : Power) : Begun (withPower m p) (m.spelling ++ p.spelling)

theorem digit_isWhole (c : Char) (digit : c.isDigit = true) : IsWhole [c] := by
  constructor
  · simp [allDigits, digit]
  · simp
  · intro head
    simpa using head

theorem isWhole_extended (whole : List Char) (isWhole : IsWhole whole) (nonzero : whole ≠ ['0'])
    (c : Char) (digit : c.isDigit = true) : IsWhole (whole ++ [c]) := by
  constructor
  · exact (Number.allDigits_append whole [c]).mpr ⟨isWhole.decimal, by simp [allDigits, digit]⟩
  · simp
  · intro head
    cases whole with
    | nil => exact absurd rfl isWhole.nonempty
    | cons first later => exact absurd (isWhole.unpadded head) nonzero

theorem Begun.cast {n n' : NumberScan} {text text' : List Char} (begun : Begun n text)
    (scan : n = n') (spelled : text = text') : Begun n' text' := by
  subst scan spelled
  exact begun

theorem begun_first (minus : Bool) (c : Char) (digit : c.isDigit = true) :
    Begun (firstDigit minus c) (Mantissa.minusText minus ++ [c]) := by
  apply (Begun.mantissa ⟨minus, [c], [], digit_isWhole c digit, rfl⟩).cast
  · by_cases zero : c = '0' <;> simp [Mantissa.part, Mantissa.scanned, firstDigit, zero]
  · simp [Mantissa.spelling, Mantissa.fractionText]

theorem begun_whole (m : Mantissa) (unbroken : m.fraction = []) (nonzero : m.whole ≠ ['0'])
    (c : Char) (digit : c.isDigit = true) :
    Begun (NumberScan.addWhole ⟨.whole, m.scanned⟩ .whole c) (m.spelling ++ [c]) := by
  have longer : m.whole ++ [c] ≠ ['0'] := by
    intro same
    have length := congrArg List.length same
    rw [List.length_append] at length
    exact m.isWhole.nonempty (List.eq_nil_of_length_eq_zero (by simpa using length))
  apply (Begun.mantissa ⟨m.minus, m.whole ++ [c], [],
    isWhole_extended m.whole m.isWhole nonzero c digit, rfl⟩).cast
  · simp [Mantissa.part, Mantissa.scanned, NumberScan.addWhole, longer, unbroken]
  · simp [Mantissa.spelling, Mantissa.fractionText, unbroken]

theorem begun_fraction (m : Mantissa) (part : NumberPart) (c : Char) (digit : c.isDigit = true)
    (text : List Char) (spelled : text = Mantissa.minusText m.minus ++
      (m.whole ++ '.' :: m.fraction)) :
    Begun (NumberScan.addFraction ⟨part, m.scanned⟩ c) (text ++ [c]) := by
  have decimal : allDigits (m.fraction ++ [c]) = true :=
    (Number.allDigits_append m.fraction [c]).mpr ⟨m.decimal, by simp [allDigits, digit]⟩
  apply (Begun.mantissa ⟨m.minus, m.whole, m.fraction ++ [c], m.isWhole, decimal⟩).cast
  · simp [Mantissa.part, Mantissa.scanned, NumberScan.addFraction]
  · simp [Mantissa.spelling, Mantissa.fractionText, spelled]

theorem begun_behindWhole (m : Mantissa) (part : NumberPart) (unbroken : m.fraction = [])
    (c : Char) (after : NumberScan)
    (step : NumberScan.behindWhole ⟨part, m.scanned⟩ c = .more after) :
    Begun after (m.spelling ++ [c]) := by
  unfold NumberScan.behindWhole at step
  by_cases point : c = '.'
  · subst point
    cases step
    exact .point m unbroken
  · cases isMark : NumberScan.isMark c with
    | true =>
        simp only [point, isMark, ↓reduceIte] at step
        cases step
        exact .mark m c isMark
    | false => simp [point, isMark] at step

theorem begun_mantissa (m : Mantissa) (c : Char) (after : NumberScan)
    (step : NumberScan.step ⟨m.part, m.scanned⟩ c = .more after) :
    Begun after (m.spelling ++ [c]) := by
  unfold Mantissa.part at step
  by_cases unbroken : m.fraction = []
  · by_cases zero : m.whole = ['0']
    · cases digit : c.isDigit with
      | true => simp [NumberScan.step, unbroken, zero, digit] at step
      | false =>
          simp only [NumberScan.step, unbroken, zero, digit, List.isEmpty_nil, ↓reduceIte,
            Bool.false_eq_true] at step
          exact begun_behindWhole m .zero unbroken c after step
    · cases digit : c.isDigit with
      | true =>
          simp only [NumberScan.step, unbroken, zero, digit, List.isEmpty_nil, ↓reduceIte] at step
          cases step
          exact begun_whole m unbroken zero c digit
      | false =>
          simp only [NumberScan.step, unbroken, zero, digit, List.isEmpty_nil, ↓reduceIte,
            Bool.false_eq_true] at step
          exact begun_behindWhole m .whole unbroken c after step
  · have broken : m.fraction.isEmpty = false := by simpa using unbroken
    cases digit : c.isDigit with
    | true =>
        simp only [NumberScan.step, broken, digit, Bool.false_eq_true, ↓reduceIte] at step
        cases step
        apply begun_fraction m .fraction c digit
        simp [Mantissa.spelling, Mantissa.fractionText, unbroken]
    | false =>
        cases isMark : NumberScan.isMark c with
        | true =>
            simp only [NumberScan.step, broken, digit, isMark, Bool.false_eq_true, ↓reduceIte]
              at step
            cases step
            exact .mark m c isMark
        | false => simp [NumberScan.step, broken, digit, isMark] at step

theorem begun_power (m : Mantissa) (mark : Char) (isMark : NumberScan.isMark mark = true)
    (sign : Sign) (part : NumberPart) (c : Char) (digit : c.isDigit = true) :
    Begun (NumberScan.addExponent ⟨part, { m.scanned with exponentMinus := sign.negative }⟩ c)
      (m.spelling ++ (mark :: sign.text) ++ [c]) := by
  apply (Begun.exponent m ⟨mark, sign, [c], isMark, by simp [allDigits, digit], by simp⟩).cast
  · simp [withPower, NumberScan.addExponent, Mantissa.scanned]
  · simp [Power.spelling]

theorem begun_exponent (m : Mantissa) (p : Power) (c : Char) (digit : c.isDigit = true) :
    Begun ((withPower m p).addExponent c) (m.spelling ++ p.spelling ++ [c]) := by
  have decimal : allDigits (p.digits ++ [c]) = true :=
    (Number.allDigits_append p.digits [c]).mpr ⟨p.decimal, by simp [allDigits, digit]⟩
  apply (Begun.exponent m ⟨p.mark, p.sign, p.digits ++ [c], p.isMark, decimal, by simp⟩).cast
  · simp [withPower, NumberScan.addExponent]
  · simp [Power.spelling]

/-- A character that a number goes on with is a part of the numeral. -/
theorem begun_step {before after : NumberScan} {text : List Char} (begun : Begun before text)
    (c : Char) (step : before.step c = .more after) : Begun after (text ++ [c]) := by
  cases begun with
  | minus =>
      by_cases zero : c = '0'
      · subst zero
        cases step
        exact begun_first true '0' rfl
      · cases digit : c.isDigit with
        | true =>
            have first := begun_first true c digit
            simp only [firstDigit, zero, ↓reduceIte] at first
            simp only [NumberScan.step, zero, digit, ↓reduceIte] at step
            cases step
            exact first
        | false => simp [NumberScan.step, zero, digit] at step
  | mantissa m => exact begun_mantissa m c after step
  | point m unbroken =>
      cases digit : c.isDigit with
      | true =>
          simp only [NumberScan.step, digit, ↓reduceIte] at step
          cases step
          apply begun_fraction m .point c digit
          simp [Mantissa.spelling, Mantissa.fractionText, unbroken]
      | false => simp [NumberScan.step, digit] at step
  | mark m mark isMark =>
      by_cases plus : c = '+'
      · subst plus
        cases step
        exact (Begun.power m mark isMark .plus).cast rfl (by simp [Sign.text])
      · by_cases minus : c = '-'
        · subst minus
          cases step
          exact (Begun.power m mark isMark .minus).cast rfl (by simp [Sign.text])
        · cases digit : c.isDigit with
          | true =>
              simp only [NumberScan.step, plus, minus, digit, ↓reduceIte] at step
              cases step
              exact begun_power m mark isMark .absent .mark c digit
          | false => simp [NumberScan.step, plus, minus, digit] at step
  | power m mark isMark sign =>
      cases digit : c.isDigit with
      | true =>
          simp only [NumberScan.step, digit, ↓reduceIte] at step
          cases step
          exact begun_power m mark isMark sign .power c digit
      | false => simp [NumberScan.step, digit] at step
  | exponent m p =>
      cases digit : c.isDigit with
      | true =>
          simp only [NumberScan.step, withPower, digit, ↓reduceIte] at step
          cases step
          exact begun_exponent m p c digit
      | false => simp [NumberScan.step, withPower, digit] at step

theorem begun_complete {n : NumberScan} {text : List Char} (begun : Begun n text)
    (complete : n.complete = true) :
    ∃ numeral : Numeral, numeral.spelling = text ∧ numeral.value = n.value := by
  cases begun with
  | minus | point | mark | power => cases complete
  | mantissa m => exact ⟨⟨m, none⟩, by simp [Numeral.spelling], (value_scanned m).symm⟩
  | exponent m p => exact ⟨⟨m, some p⟩, rfl, (value_withPower m p).symm⟩

theorem step_ended (n : NumberScan) (c : Char) (ended : n.step c = .ended) :
    n.complete = true := by
  obtain ⟨part, text⟩ := n
  cases part with
  | zero | whole | fraction | exponent => rfl
  | minus | point | mark | power =>
      simp only [NumberScan.step] at ended
      repeat' split at ended
      all_goals cases ended

theorem numeral_or_breaks {n : NumberScan} {front : List Char} (begun : Begun n front)
    (text : List Char) :
    (∃ (numeral : Numeral) (back rest : List Char), text = back ++ rest ∧
        numeral.spelling = front ++ back ∧
        ∀ done, scanFrom done (.number n) text =
          scanFrom (.number numeral.value :: done) .between rest) ∨
      Breaks (.number n) text := by
  induction text generalizing n front with
  | nil =>
      cases complete : n.complete with
      | true =>
          obtain ⟨numeral, spelled, value⟩ := begun_complete begun complete
          left
          refine ⟨numeral, [], [], rfl, by simp [spelled], ?_⟩
          intro done
          simp [scanFrom, atEnd, complete, value]
      | false =>
          right
          exact breaks_atEnd (.broken ⟨.cutShort, .malformed⟩) rfl (by simp [atEnd, complete])
  | cons c later ih =>
      cases step : n.step c with
      | more after =>
          rcases ih (begun_step begun c step) with
            ⟨numeral, back, rest, split, spelled, read⟩ | breaks
          · left
            refine ⟨numeral, c :: back, rest, by simp [split], by simp [spelled], ?_⟩
            intro done
            rw [scan_numberMore done n after c later step, read]
          · exact .inr (breaks_behind (by simp [effect, step]) breaks)
      | ended =>
          obtain ⟨numeral, spelled, value⟩ := begun_complete begun (step_ended n c step)
          left
          refine ⟨numeral, [], c :: later, rfl, by simp [spelled], ?_⟩
          intro done
          rw [scan_numberEnd done n c later step, value]
      | stopped =>
          right
          apply breaks_stopped (.broken (.both .malformed)) rfl
          simp [effect, step]

theorem start_begun (c : Char) (n : NumberScan) (start : NumberScan.start? c = some n) :
    Begun n [c] := by
  unfold NumberScan.start? at start
  by_cases minus : c = '-'
  · subst minus
    cases start
    exact .minus
  · by_cases zero : c = '0'
    · subst zero
      cases start
      exact begun_first false '0' rfl
    · cases digit : c.isDigit with
      | true =>
          have first := begun_first false c digit
          simp only [firstDigit, zero, ↓reduceIte] at first
          simp only [minus, zero, digit, ↓reduceIte] at start
          cases start
          exact first
      | false => simp [minus, zero, digit] at start

end Recognition

end Token

end SchemaDefaults
