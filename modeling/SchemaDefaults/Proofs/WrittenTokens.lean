import SchemaDefaults.Json.Token
import SchemaDefaults.Proofs.Digits
/-!
Tokens of a written value. Scanning what has been written gives back the tokens of the value,
whatever layout it was written in and whatever stands behind it. Strings hold for every
character; of the numbers only the natural ones of 64 bits are treated, which is all that a model
has.
-/

namespace SchemaDefaults

namespace Json

section Tokens

mutual

def tokens : Json → List Token
  | .null => [.null]
  | .bool value => [.bool value]
  | .number value => [.number (.ok value)]
  | .string value => [.string (.ok value)]
  | .array [] => [.openBracket, .closeBracket]
  | .array (item :: rest) =>
    .openBracket :: (tokens item ++ (itemTokens rest ++ [.closeBracket]))
  | .object [] => [.openBrace, .closeBrace]
  | .object ((key, value) :: rest) =>
    .openBrace :: .string (.ok key) :: .colon ::
      (tokens value ++ (memberTokens rest ++ [.closeBrace]))

def itemTokens : List Json → List Token
  | [] => []
  | item :: rest => .comma :: (tokens item ++ itemTokens rest)

def memberTokens : List (String × Json) → List Token
  | [] => []
  | (key, value) :: rest =>
    .comma :: .string (.ok key) :: .colon :: (tokens value ++ memberTokens rest)

end

mutual

/-- Every number in the value is a natural one of 64 bits. -/
def Natural : Json → Prop
  | .null | .bool _ | .string _ => True
  | .number (.natural value) => value ≤ NumberText.greatestWord
  | .number _ => False
  | .array items => NaturalItems items
  | .object members => NaturalMembers members

def NaturalItems : List Json → Prop
  | [] => True
  | item :: rest => Natural item ∧ NaturalItems rest

def NaturalMembers : List (String × Json) → Prop
  | [] => True
  | (_, value) :: rest => Natural value ∧ NaturalMembers rest

end

end Tokens

end Json

namespace Token

open Json (shortEscape?)

section Strings

namespace StringScan

/-- Behind the opening quote, with these characters read so far, in reverse. -/
def holding (text : List Char) : StringScan := ⟨.ok text, none, .none⟩

theorem shortEscape_escaped (c e : Char) (short : shortEscape? c = some e) :
    e ≠ 'u' ∧ escaped? e = some c := by
  unfold shortEscape? at short
  repeat' split at short
  all_goals cases short
  all_goals
    rename_i same
    subst same
    decide

theorem hexValue_hexDigit (value : Nat) (bound : value < 16) :
    hexValue? (Json.hexDigit value) = some value := by
  have all : ∀ value < 16, hexValue? (Json.hexDigit value) = some value := by decide
  exact all value bound

theorem fourBytes (a b c d : Char) (rest : List Char) :
    underFourBytes (a :: b :: c :: d :: rest) = false := by
  have sizes := And.intro a.utf8Size_pos (And.intro b.utf8Size_pos
    (And.intro c.utf8Size_pos d.utf8Size_pos))
  simp [underFourBytes]
  omega

end StringScan

open StringScan

theorem scan_more (done : List Token) (before after : StringScan) (c : Char) (rest : List Char)
    (step : before.step c rest = .more after) :
    scanFrom done (.string before) (c :: rest) = scanFrom done (.string after) rest := by
  simp [scanFrom, effect, step]

theorem scan_shortEscape (done : List Token) (text rest : List Char) (c e : Char)
    (short : shortEscape? c = some e) :
    scanFrom done (.string (holding text)) ('\\' :: e :: rest) =
      scanFrom done (.string (holding (c :: text))) rest := by
  obtain ⟨letter, escaped⟩ := shortEscape_escaped c e short
  have read : step ⟨.ok text, none, .backslash⟩ e rest = .more (holding (c :: text)) := by
    simp [step, letter, escaped, push, holding]
  calc scanFrom done (.string (holding text)) ('\\' :: e :: rest)
      = scanFrom done (.string ⟨.ok text, none, .backslash⟩) (e :: rest) := rfl
    _ = scanFrom done (.string (holding (c :: text))) rest := scan_more done _ _ e rest read

/-- A control character is written as its code, of which only the lower two digits count. -/
theorem scan_codeEscape (done : List Token) (text rest : List Char) (c : Char)
    (control : c.toNat < 0x20) :
    scanFrom done (.string (holding text)) ('\\' :: 'u' :: '0' :: '0' ::
        Json.hexDigit (c.toNat / 16) :: Json.hexDigit (c.toNat % 16) :: rest) =
      scanFrom done (.string (holding (c :: text))) rest := by
  have first := hexValue_hexDigit (c.toNat / 16) (by omega)
  have second := hexValue_hexDigit (c.toNat % 16) (by omega)
  let digits := Json.hexDigit (c.toNat / 16) :: Json.hexDigit (c.toNat % 16) :: rest
  have enough : step ⟨.ok text, none, .backslash⟩ 'u' ('0' :: '0' :: digits) =
      .more ⟨.ok text, none, .code 4 0⟩ := by
    simp [step, digits, fourBytes]
  have upper : step ⟨.ok text, none, .code 2 0⟩ (Json.hexDigit (c.toNat / 16))
      (Json.hexDigit (c.toNat % 16) :: rest) =
        .more ⟨.ok text, none, .code 1 (c.toNat / 16)⟩ := by
    simp [step, first]
  have lower : step ⟨.ok text, none, .code 1 (c.toNat / 16)⟩
      (Json.hexDigit (c.toNat % 16)) rest = .more (holding (c :: text)) := by
    -- The two digits together are the code of the character, which is no surrogate.
    have code : 16 * (c.toNat / 16) + c.toNat % 16 = c.toNat := by omega
    have low : isLow c.toNat = false := by simp [isLow]; omega
    have high : isHigh c.toNat = false := by simp [isHigh]; omega
    simp [step, second, code, pushUnit, low, high, push, holding, Char.ofNat_toNat]
  calc scanFrom done (.string (holding text)) ('\\' :: 'u' :: '0' :: '0' :: digits)
      = scanFrom done (.string ⟨.ok text, none, .backslash⟩) ('u' :: '0' :: '0' :: digits) := rfl
    _ = scanFrom done (.string ⟨.ok text, none, .code 4 0⟩) ('0' :: '0' :: digits) :=
          scan_more done _ _ 'u' _ enough
    _ = scanFrom done (.string ⟨.ok text, none, .code 2 0⟩) digits := rfl
    _ = scanFrom done (.string ⟨.ok text, none, .code 1 (c.toNat / 16)⟩)
          (Json.hexDigit (c.toNat % 16) :: rest) := scan_more done _ _ _ _ upper
    _ = scanFrom done (.string (holding (c :: text))) rest := scan_more done _ _ _ rest lower

theorem scan_escape (done : List Token) (text rest : List Char) (c : Char) :
    scanFrom done (.string (holding text)) (Json.escape c ++ rest) =
      scanFrom done (.string (holding (c :: text))) rest := by
  unfold Json.escape
  cases short : shortEscape? c with
  | some e => exact scan_shortEscape done text rest c e short
  | none =>
      by_cases control : c.toNat < 0x20
      · simp only [control, ↓reduceIte]
        exact scan_codeEscape done text rest c control
      · -- The quote and the backslash have short forms, so the character stands for itself.
        have quote : c ≠ '"' := by
          rintro rfl
          exact absurd short (by decide)
        have backslash : c ≠ '\\' := by
          rintro rfl
          exact absurd short (by decide)
        have read : (holding text).step c rest = .more (holding (c :: text)) := by
          simp [step, holding, quote, backslash, control, push]
        simp only [control, ↓reduceIte]
        exact scan_more done _ _ c rest read

theorem scan_characters (done : List Token) (text characters rest : List Char) :
    scanFrom done (.string (holding text)) (characters.flatMap Json.escape ++ rest) =
      scanFrom done (.string (holding (characters.reverse ++ text))) rest := by
  induction characters generalizing text with
  | nil => rfl
  | cons c later ih =>
      rw [List.flatMap_cons, List.append_assoc, scan_escape, ih]
      simp

theorem scan_string (done : List Token) (text : String) (rest : List Char) :
    scanFrom done .between (Json.writeString text ++ rest) =
      scanFrom (.string (.ok text) :: done) .between rest := by
  have opened (later : List Char) : scanFrom done .between ('"' :: later) =
      scanFrom done (.string (holding [])) later := rfl
  have closed (kept : List Char) : scanFrom done (.string (holding kept)) ('"' :: rest) =
      scanFrom (.string (.ok (String.ofList kept.reverse)) :: done) .between rest := rfl
  rw [Json.writeString, List.cons_append, opened, List.append_assoc, scan_characters,
    List.cons_append, List.nil_append, closed]
  simp

end Strings

section Numbers

/-- What stands behind a number does not belong to it. -/
def Ends (rest : List Char) : Prop :=
  ∀ c later, rest = c :: later → c.isDigit = false ∧ c ≠ '.' ∧ NumberScan.isMark c = false

theorem ends_cons (c : Char) (rest : List Char) (digit : c.isDigit = false) (point : c ≠ '.')
    (mark : NumberScan.isMark c = false) : Ends (c :: rest) := by
  intro first later same
  cases same
  exact ⟨digit, point, mark⟩

namespace NumberScan

/-- In the whole part of a number, with these digits read so far, in reverse. -/
def reading (part : NumberPart) (digits : List Char) : NumberScan :=
  ⟨part, ⟨false, digits, [], false, []⟩⟩

theorem value_reading (part : NumberPart) (value : Nat)
    (bound : value ≤ NumberText.greatestWord) :
    (reading part (Nat.toDigits 10 value).reverse).value = .ok (.natural value) := by
  simp [NumberScan.value, NumberText.value, reading, Number.digitsValue_toDigits, bound]

end NumberScan

open NumberScan (reading)

theorem scan_digits (done : List Token) (kept digits rest : List Char)
    (decimal : ∀ c ∈ digits, c.isDigit = true) :
    scanFrom done (.number (reading .whole kept)) (digits ++ rest) =
      scanFrom done (.number (reading .whole (digits.reverse ++ kept))) rest := by
  induction digits generalizing kept with
  | nil => rfl
  | cons c later ih =>
      have digit := decimal c List.mem_cons_self
      have tail := ih (c :: kept) fun d member => decimal d (List.mem_cons_of_mem c member)
      have step : scanFrom done (.number (reading .whole kept)) (c :: (later ++ rest)) =
          scanFrom done (.number (reading .whole (c :: kept))) (later ++ rest) := by
        simp [scanFrom, effect, NumberScan.step, NumberScan.addWhole, reading, digit]
      rw [List.cons_append, step, tail]
      simp

theorem scan_ended (done : List Token) (part : NumberPart) (digits rest : List Char)
    (whole : part = .zero ∨ part = .whole) (ends : Ends rest) :
    scanFrom done (.number (reading part digits)) rest =
      scanFrom (.number (reading part digits).value :: done) .between rest := by
  cases rest with
  | nil => rcases whole with rfl | rfl <;> simp [scanFrom, atEnd, reading, NumberScan.complete]
  | cons c later =>
      obtain ⟨digit, point, mark⟩ := ends c later rfl
      have ended : (reading part digits).step c = .ended := by
        rcases whole with rfl | rfl <;>
          simp [NumberScan.step, NumberScan.behindWhole, reading, digit, point, mark]
      -- The character that ends the number is the first one of what stands behind.
      simp only [scanFrom, effect, ended]
      rcases begin c with ⟨tokens, _ | next⟩ <;> simp

theorem begin_digit (c : Char) (digit : c.isDigit = true) (nonzero : c ≠ '0') :
    begin c = ⟨[], some (.number (reading .whole [c]))⟩ := by
  have differs (other : Char) (plain : other.isDigit = false) : c ≠ other := by
    rintro rfl
    exact absurd digit (by simp [plain])
  have blank : isBlank c = false := by
    simp [isBlank, differs ' ' rfl, differs '\t' rfl, differs '\n' rfl, differs '\r' rfl]
  have structural : structural? c = none := by
    simp [structural?, differs '\x7b' rfl, differs '\x7d' rfl, differs '[' rfl, differs ']' rfl,
      differs ',' rfl, differs ':' rfl]
  have start : NumberScan.start? c = some (reading .whole [c]) := by
    simp [NumberScan.start?, reading, differs '-' rfl, nonzero, digit]
  simp [begin, blank, differs '"' rfl, structural, start]

theorem scan_number (done : List Token) (value : Nat) (rest : List Char) (ends : Ends rest)
    (bound : value ≤ NumberText.greatestWord) :
    scanFrom done .between (Nat.toDigits 10 value ++ rest) =
      scanFrom (.number (.ok (.natural value)) :: done) .between rest := by
  rcases Nat.eq_zero_or_pos value with rfl | positive
  · have start : scanFrom done .between ('0' :: rest) =
        scanFrom done (.number (reading .zero ['0'])) rest := rfl
    have zero := NumberScan.value_reading .zero 0 bound
    rw [Nat.toDigits_zero, List.cons_append, List.nil_append, start,
      scan_ended done .zero ['0'] rest (.inl rfl) ends]
    exact congrArg (fun kept => scanFrom (.number kept :: done) .between rest) zero
  · obtain ⟨c, later, digits, nonzero⟩ := Number.toDigits_head value positive
    have decimal : ∀ d ∈ c :: later, d.isDigit = true := by
      intro d member
      rw [← digits] at member
      exact Nat.isDigit_of_mem_toDigits (by decide) (by decide) member
    have digit := decimal c List.mem_cons_self
    have start : scanFrom done .between (c :: (later ++ rest)) =
        scanFrom done (.number (reading .whole [c])) (later ++ rest) := by
      simp [scanFrom, effect, begin_digit c digit nonzero]
    have read := NumberScan.value_reading .whole value bound
    rw [digits] at read ⊢
    rw [List.cons_append, start,
      scan_digits done [c] later rest fun d member => decimal d (List.mem_cons_of_mem c member),
      scan_ended done .whole _ rest (.inr rfl) ends]
    rw [← read]
    simp

end Numbers

section Values

open Json

theorem scan_blanks (done : List Token) (blanks rest : List Char)
    (blank : ∀ c ∈ blanks, isBlank c = true) :
    scanFrom done .between (blanks ++ rest) = scanFrom done .between rest := by
  induction blanks with
  | nil => rfl
  | cons c later ih =>
      have first := blank c List.mem_cons_self
      have step : scanFrom done .between (c :: (later ++ rest)) =
          scanFrom done .between (later ++ rest) := by
        simp [scanFrom, effect, begin, first]
      rw [List.cons_append, step, ih fun d member => blank d (List.mem_cons_of_mem c member)]

theorem lineBreak_blank (layout : Layout) : ∀ c ∈ layout.lineBreak, isBlank c = true := by
  intro c member
  cases layout with
  | compact => simp [Layout.lineBreak] at member
  | indented level =>
      rcases List.mem_cons.mp member with rfl | space
      · rfl
      · rw [List.eq_of_mem_replicate space]
        rfl

theorem scan_lineBreak (done : List Token) (layout : Layout) (rest : List Char) :
    scanFrom done .between (layout.lineBreak ++ rest) = scanFrom done .between rest :=
  scan_blanks done layout.lineBreak rest (lineBreak_blank layout)

theorem scan_colon (done : List Token) (layout : Layout) (rest : List Char) :
    scanFrom done .between (layout.colon ++ rest) = scanFrom (.colon :: done) .between rest := by
  cases layout <;> rfl

theorem ends_closed (layout : Layout) (c : Char) (rest : List Char) (bracket : Ends (c :: rest)) :
    Ends (layout.lineBreak ++ c :: rest) := by
  cases layout with
  | compact => exact bracket
  | indented level => exact ends_cons '\n' _ rfl (by decide) rfl

theorem ends_items (layout : Layout) (items : List Json) (rest : List Char) (ends : Ends rest) :
    Ends (writeItems layout items ++ rest) := by
  cases items with
  | nil => exact ends
  | cons item later => exact ends_cons ',' _ rfl (by decide) rfl

theorem ends_members (layout : Layout) (members : List (String × Json)) (rest : List Char)
    (ends : Ends rest) : Ends (writeMembers layout members ++ rest) := by
  cases members with
  | nil => exact ends
  | cons member later => exact ends_cons ',' _ rfl (by decide) rfl

mutual

/-- What stands behind the value has to end a number, in case that the value is one. -/
theorem scan_write (done : List Token) (layout : Layout) (rest : List Char) (ends : Ends rest) :
    (value : Json) → (natural : value.Natural) →
    scanFrom done .between (write layout value ++ rest) =
      scanFrom (value.tokens.reverse ++ done) .between rest
  | .null, _ => rfl
  | .bool true, _ => rfl
  | .bool false, _ => rfl
  | .string text, _ => by
      rw [write, scan_string]
      rfl
  | .number (.natural value), natural => by
      rw [write, JsonNumber.text, scan_number done value rest ends natural]
      rfl
  | .array [], _ => rfl
  | .object [], _ => rfl
  | .array (item :: later), natural => by
      have opened (text : List Char) : scanFrom done .between ('[' :: text) =
          scanFrom (.openBracket :: done) .between text := rfl
      have closed (before : List Token) : scanFrom before .between (']' :: rest) =
          scanFrom (.closeBracket :: before) .between rest := rfl
      -- Behind an item stands a comma, a line break or the closing bracket: all end a number.
      have bracket : Ends (layout.lineBreak ++ ']' :: rest) :=
        ends_closed layout ']' rest (ends_cons ']' rest rfl (by decide) rfl)
      simp only [write, List.append_assoc, List.cons_append, List.nil_append, opened,
        scan_lineBreak]
      rw [scan_write _ _ _ (ends_items _ later _ bracket) item natural.1,
        scan_items _ _ _ bracket later natural.2, scan_lineBreak, closed]
      simp [tokens]
  | .object ((key, value) :: later), natural => by
      have opened (text : List Char) : scanFrom done .between ('\x7b' :: text) =
          scanFrom (.openBrace :: done) .between text := rfl
      have closed (before : List Token) : scanFrom before .between ('\x7d' :: rest) =
          scanFrom (.closeBrace :: before) .between rest := rfl
      have brace : Ends (layout.lineBreak ++ '\x7d' :: rest) :=
        ends_closed layout '\x7d' rest (ends_cons '\x7d' rest rfl (by decide) rfl)
      simp only [write, List.append_assoc, List.cons_append, List.nil_append, opened,
        scan_lineBreak, scan_string, scan_colon]
      rw [scan_write _ _ _ (ends_members _ later _ brace) value natural.1,
        scan_members _ _ _ brace later natural.2, scan_lineBreak, closed]
      simp [tokens]

theorem scan_items (done : List Token) (layout : Layout) (rest : List Char) (ends : Ends rest) :
    (items : List Json) → (natural : NaturalItems items) →
    scanFrom done .between (writeItems layout items ++ rest) =
      scanFrom ((itemTokens items).reverse ++ done) .between rest
  | [], _ => rfl
  | item :: later, natural => by
      have comma (text : List Char) : scanFrom done .between (',' :: text) =
          scanFrom (.comma :: done) .between text := rfl
      simp only [writeItems, List.append_assoc, List.cons_append, comma, scan_lineBreak]
      rw [scan_write _ _ _ (ends_items _ later _ ends) item natural.1,
        scan_items _ _ _ ends later natural.2]
      simp [itemTokens]

theorem scan_members (done : List Token) (layout : Layout) (rest : List Char)
    (ends : Ends rest) :
    (members : List (String × Json)) → (natural : NaturalMembers members) →
    scanFrom done .between (writeMembers layout members ++ rest) =
      scanFrom ((memberTokens members).reverse ++ done) .between rest
  | [], _ => rfl
  | (key, value) :: later, natural => by
      have comma (text : List Char) : scanFrom done .between (',' :: text) =
          scanFrom (.comma :: done) .between text := rfl
      simp only [writeMembers, List.append_assoc, List.cons_append, comma, scan_lineBreak,
        scan_string, scan_colon]
      rw [scan_write _ _ _ (ends_members _ later _ ends) value natural.1,
        scan_members _ _ _ ends later natural.2]
      simp [memberTokens]

end

/-- A written value may have blanks behind it. -/
theorem scan_text (pretty : Bool) (value : Json) (natural : value.Natural) (blanks : List Char)
    (blank : ∀ c ∈ blanks, isBlank c = true) :
    scan ((value.text pretty).toList ++ blanks) = value.tokens := by
  have ends : Ends blanks := by
    intro c later same
    have first := blank c (same ▸ List.mem_cons_self)
    simp only [isBlank, Bool.or_eq_true, beq_iff_eq] at first
    rcases first with ((rfl | rfl) | rfl) | rfl <;> decide
  have behind (done : List Token) : scanFrom done .between blanks = done.reverse := by
    have passed := scan_blanks done blanks [] blank
    rw [List.append_nil] at passed
    simp [passed, scanFrom, atEnd]
  rw [scan, Json.text, String.toList_ofList, scan_write [] _ blanks ends value natural, behind]
  simp

end Values

end Token

end SchemaDefaults
