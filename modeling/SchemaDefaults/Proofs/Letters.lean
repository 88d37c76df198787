import SchemaDefaults.Proofs.WrittenTokens
/-!
Letters: the ways in which a string literal spells a character, or half of one. Whatever letters
stand between the quotes, the scan takes them one by one; and a text that the scan does not refuse
behind an opening quote consists of letters up to the closing one.
-/

namespace SchemaDefaults

namespace Token

section Breaking

def isBroken : Token → Bool
  | .broken _ | .brokenString _ => true
  | _ => false

/-- In this mode the text is refused before another token ends. -/
def Breaks (mode : Mode) (text : List Char) : Prop :=
  ∃ token, isBroken token = true ∧
    ∀ done, scanFrom done mode text = done.reverse ++ [token]

theorem breaks_behind {mode next : Mode} {c : Char} {rest : List Char}
    (step : effect mode c rest = ⟨[], some next⟩) (breaks : Breaks next rest) :
    Breaks mode (c :: rest) := by
  obtain ⟨token, broken, stopped⟩ := breaks
  refine ⟨token, broken, ?_⟩
  intro done
  rw [← stopped done]
  simp [scanFrom, step]

theorem breaks_stopped (token : Token) (broken : isBroken token = true) {mode : Mode} {c : Char}
    {rest : List Char} (step : effect mode c rest = stopAt token) : Breaks mode (c :: rest) := by
  refine ⟨token, broken, ?_⟩
  intro done
  simp [scanFrom, step, stopAt]

theorem breaks_atEnd (token : Token) (broken : isBroken token = true) {mode : Mode}
    (ended : atEnd mode = [token]) : Breaks mode [] := by
  refine ⟨token, broken, ?_⟩
  intro done
  simp [scanFrom, ended]

end Breaking

open StringScan (escaped? hexValue? underFourBytes)

structure HexDigit where
  char : Char
  value : Nat
  read : hexValue? char = some value

/-- One character of a literal as it stands, one behind a backslash, or a code unit of sixteen
bits by its code. -/
inductive Letter where
  | plain (c : Char) (quote : c ≠ '"') (backslash : c ≠ '\\') (printed : 0x20 ≤ c.toNat)
  | short (letter c : Char) (escaped : escaped? letter = some c)
  | unit (first second third fourth : HexDigit)

namespace Letter

def spelling : Letter → List Char
  | .plain c _ _ _ => [c]
  | .short letter _ _ => ['\\', letter]
  | .unit first second third fourth =>
    ['\\', 'u', first.char, second.char, third.char, fourth.char]

def unitCode (first second third fourth : HexDigit) : Nat :=
  16 * (16 * (16 * (16 * 0 + first.value) + second.value) + third.value) + fourth.value

/-- A code unit may need the one behind it to make up a character. -/
def take (s : StringScan) : Letter → StringScan
  | .plain c _ _ _ | .short _ c _ => s.push c
  | .unit first second third fourth => s.pushUnit (unitCode first second third fourth)

end Letter

abbrev Letters := List Letter

namespace Letters

def spelling (letters : Letters) : List Char := letters.flatMap Letter.spelling

/-- The text that the letters denote, or the fault of a surrogate without its partner. -/
def value (letters : Letters) : Except Fault String :=
  (letters.foldl Letter.take StringScan.start).finish

end Letters

section Reading

theorem push_escape (s : StringScan) (escape : Escape) (c : Char) :
    ({ s with escape := escape } : StringScan).push c = s.push c := rfl

theorem refuse_plain (s : StringScan) (fault : Fault) : (s.refuse fault).escape = .none := by
  unfold StringScan.refuse
  cases s.kept <;> rfl

theorem push_plain (s : StringScan) (c : Char) : (s.push c).escape = .none := by
  unfold StringScan.push
  split
  · rfl
  · exact refuse_plain s .malformed

theorem pushUnit_plain (s : StringScan) (unit : Nat) : (s.pushUnit unit).escape = .none := by
  unfold StringScan.pushUnit
  split
  · split
    · exact push_plain _ _
    · exact refuse_plain s .malformed
  · split
    · exact refuse_plain s .malformed
    · split
      · rfl
      · exact push_plain s _

theorem take_plain (s : StringScan) (letter : Letter) : (letter.take s).escape = .none := by
  cases letter with
  | plain c quote backslash printed => exact push_plain s c
  | short letter c escaped => exact push_plain s c
  | unit first second third fourth => exact pushUnit_plain s _

variable {s : StringScan} (plain : s.escape = .none) (done : List Token) (rest : List Char)

include plain

theorem step_backslash :
    effect (.string s) '\\' rest = ⟨[], some (.string { s with escape := .backslash })⟩ := by
  simp [effect, StringScan.step, plain]

omit plain in
theorem step_short (letter c : Char) (escaped : escaped? letter = some c) :
    effect (.string { s with escape := .backslash }) letter rest =
      ⟨[], some (.string (s.push c))⟩ := by
  have notCode : letter ≠ 'u' := by
    rintro rfl
    cases escaped
  simp [effect, StringScan.step, notCode, escaped, push_escape]

omit plain in
theorem step_code (enough : underFourBytes rest = false) :
    effect (.string { s with escape := .backslash }) 'u' rest =
      ⟨[], some (.string { s with escape := .code 4 0 })⟩ := by
  simp [effect, StringScan.step, enough]

omit plain in
/-- All but the last digit of a code. -/
theorem step_digit (missing value : Nat) (digit : HexDigit) (more : 1 < missing) :
    effect (.string { s with escape := .code missing value }) digit.char rest =
      ⟨[], some (.string { s with escape := .code (missing - 1) (16 * value + digit.value) })⟩ := by
  have notLast : ¬ missing ≤ 1 := by omega
  simp [effect, StringScan.step, digit.read, notLast]

omit plain in
theorem pushUnit_escape (escape : Escape) (unit : Nat) :
    ({ s with escape := escape } : StringScan).pushUnit unit = s.pushUnit unit := rfl

omit plain in
theorem step_lastDigit (value : Nat) (digit : HexDigit) :
    effect (.string { s with escape := .code 1 value }) digit.char rest =
      ⟨[], some (.string (s.pushUnit (16 * value + digit.value)))⟩ := by
  simp [effect, StringScan.step, digit.read, pushUnit_escape]

theorem scan_letter (letter : Letter) :
    scanFrom done (.string s) (letter.spelling ++ rest) =
      scanFrom done (.string (letter.take s)) rest := by
  cases letter with
  | plain c quote backslash printed =>
      have step : effect (.string s) c rest = ⟨[], some (.string (s.push c))⟩ := by
        have high : ¬ c.toNat < 0x20 := by omega
        simp [effect, StringScan.step, plain, quote, backslash, high]
      simp [Letter.spelling, Letter.take, scanFrom, step]
  | short letter c escaped =>
      simp [Letter.spelling, Letter.take, scanFrom, step_backslash plain,
        step_short rest letter c escaped]
  | unit first second third fourth =>
      have enough := StringScan.fourBytes first.char second.char third.char fourth.char rest
      simp [Letter.spelling, Letter.take, scanFrom, step_backslash plain,
        step_code _ enough, step_digit, step_lastDigit, Letter.unitCode]

theorem scan_letters (letters : Letters) :
    scanFrom done (.string s) (Letters.spelling letters ++ rest) =
      scanFrom done (.string (letters.foldl Letter.take s)) rest := by
  induction letters generalizing s with
  | nil => rfl
  | cons letter later ih =>
      rw [Letters.spelling, List.flatMap_cons, List.append_assoc, scan_letter plain]
      exact ih (take_plain s letter)

theorem scan_closing :
    scanFrom done (.string s) ('"' :: rest) =
      scanFrom (.string s.finish :: done) .between rest := by
  simp [scanFrom, effect, StringScan.step, plain]

omit plain in
theorem foldl_take_plain (plain : s.escape = .none) (letters : Letters) :
    (letters.foldl Letter.take s).escape = .none := by
  induction letters generalizing s with
  | nil => exact plain
  | cons letter later ih => exact ih (take_plain s letter)

omit plain in
theorem scan_literal (letters : Letters) :
    scanFrom done .between ('"' :: (Letters.spelling letters ++ '"' :: rest)) =
      scanFrom (.string (Letters.value letters) :: done) .between rest := by
  have opened (later : List Char) : scanFrom done .between ('"' :: later) =
      scanFrom done (.string .start) later := rfl
  rw [opened, scan_letters rfl, scan_closing (foldl_take_plain rfl letters)]
  rfl

end Reading

section Recognition

theorem digit_or_breaks (s : StringScan) (missing value : Nat) (text : List Char) :
    (∃ (digit : HexDigit) (rest : List Char), text = digit.char :: rest) ∨
      Breaks (.string { s with escape := .code missing value }) text := by
  cases text with
  | nil => exact .inr (breaks_atEnd (.brokenString _) rfl rfl)
  | cons c rest =>
      cases read : hexValue? c with
      | some digit => exact .inl ⟨⟨c, digit, read⟩, rest, rfl⟩
      | none =>
          right
          apply breaks_stopped (.brokenString (s.stop .malformed)) rfl
          simp only [effect, StringScan.step, read]
          rfl

theorem code_or_breaks (s : StringScan) (text : List Char) :
    (∃ (first second third fourth : HexDigit) (rest : List Char),
        text = first.char :: second.char :: third.char :: fourth.char :: rest) ∨
      Breaks (.string { s with escape := .code 4 0 }) text := by
  rcases digit_or_breaks s 4 0 text with ⟨first, text, rfl⟩ | breaks
  · rcases digit_or_breaks s 3 (16 * 0 + first.value) text with ⟨second, text, rfl⟩ | breaks
    · rcases digit_or_breaks s 2 (16 * (16 * 0 + first.value) + second.value) text with
        ⟨third, text, rfl⟩ | breaks
      · rcases digit_or_breaks s 1
            (16 * (16 * (16 * 0 + first.value) + second.value) + third.value) text with
          ⟨fourth, text, rfl⟩ | breaks
        · exact .inl ⟨first, second, third, fourth, text, rfl⟩
        · exact .inr (breaks_behind (step_digit _ 4 _ first (by decide))
            (breaks_behind (step_digit _ 3 _ second (by decide))
              (breaks_behind (step_digit _ 2 _ third (by decide)) breaks)))
      · exact .inr (breaks_behind (step_digit _ 4 _ first (by decide))
          (breaks_behind (step_digit _ 3 _ second (by decide)) breaks))
    · exact .inr (breaks_behind (step_digit _ 4 _ first (by decide)) breaks)
  · exact .inr breaks

theorem escape_or_breaks (s : StringScan) (text : List Char) :
    (∃ (letter : Letter) (rest : List Char), '\\' :: text = letter.spelling ++ rest) ∨
      Breaks (.string { s with escape := .backslash }) text := by
  cases text with
  | nil => exact .inr (breaks_atEnd (.brokenString _) rfl rfl)
  | cons c rest =>
      by_cases code : c = 'u'
      · subst code
        cases enough : underFourBytes rest with
        | true =>
            right
            apply breaks_stopped (.brokenString (s.stop .cutShort)) rfl
            simp only [effect, StringScan.step, ↓reduceIte, enough]
            rfl
        | false =>
            rcases code_or_breaks s rest with ⟨first, second, third, fourth, later, rfl⟩ | breaks
            · exact .inl ⟨.unit first second third fourth, later, rfl⟩
            · exact .inr (breaks_behind (step_code rest enough) breaks)
      · cases escaped : escaped? c with
        | some e => exact .inl ⟨.short c e escaped, rest, rfl⟩
        | none =>
            right
            apply breaks_stopped (.brokenString (s.stop .malformed)) rfl
            simp only [effect, StringScan.step, code, ↓reduceIte, escaped]
            rfl

variable (s : StringScan) (plain : s.escape = .none) (text : List Char)

include plain

theorem letter_or_breaks :
    (∃ rest, text = '"' :: rest) ∨
      (∃ (letter : Letter) (rest : List Char), text = letter.spelling ++ rest) ∨
      Breaks (.string s) text := by
  cases text with
  | nil => exact .inr (.inr (breaks_atEnd (.brokenString _) rfl rfl))
  | cons c rest =>
      by_cases quote : c = '"'
      · exact .inl ⟨rest, by rw [quote]⟩
      · right
        by_cases backslash : c = '\\'
        · subst backslash
          rcases escape_or_breaks s rest with spelled | breaks
          · exact .inl spelled
          · exact .inr (breaks_behind (step_backslash plain rest) breaks)
        · by_cases printed : 0x20 ≤ c.toNat
          · exact .inl ⟨.plain c quote backslash printed, rest, rfl⟩
          · right
            have control : c.toNat < 0x20 := by omega
            apply breaks_stopped (.brokenString (s.stop .malformed)) rfl
            simp only [effect, StringScan.step, plain, quote, backslash, control, ↓reduceIte]

/-- The induction is on the length, since a letter takes up to six characters. -/
theorem literal_or_breaks :
    (∃ (letters : Letters) (rest : List Char),
        text = Letters.spelling letters ++ '"' :: rest) ∨ Breaks (.string s) text := by
  induction size : text.length using Nat.strongRecOn generalizing s text with
  | ind length ih =>
      rcases letter_or_breaks s plain text with ⟨rest, rfl⟩ | ⟨letter, rest, rfl⟩ | breaks
      · exact .inl ⟨[], rest, rfl⟩
      · have shorter : rest.length < length := by
          rw [← size, List.length_append]
          cases letter <;> simp [Letter.spelling]
        rcases ih rest.length shorter (letter.take s) (take_plain s letter) rest rfl with
          ⟨letters, later, rfl⟩ | ⟨token, broken, stopped⟩
        · exact .inl ⟨letter :: letters, later, by simp [Letters.spelling]⟩
        · right
          refine ⟨token, broken, ?_⟩
          intro done
          rw [scan_letter plain, stopped]
      · exact .inr breaks

end Recognition

end Token

end SchemaDefaults
