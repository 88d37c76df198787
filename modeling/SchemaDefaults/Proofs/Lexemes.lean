import SchemaDefaults.Proofs.Numerals
/-!
Lexemes: the smallest parts of a JSON text, each with its spelling. Blanks may stand in front of
each of them and behind the last, and say nothing. Every text is a list of lexemes with blanks
around them, up to the place where a scan refuses it.
-/

namespace SchemaDefaults

namespace Token

inductive Lexeme where
  | openBrace | closeBrace | openBracket | closeBracket | comma | colon
  | null
  | bool (value : Bool)
  | number (numeral : Numeral)
  | string (letters : Letters)

namespace Lexeme

def spelling : Lexeme → List Char
  | .openBrace => ['\x7b']
  | .closeBrace => ['\x7d']
  | .openBracket => ['[']
  | .closeBracket => [']']
  | .comma => [',']
  | .colon => [':']
  | .null => ['n', 'u', 'l', 'l']
  | .bool value => Json.writeBool value
  | .number numeral => numeral.spelling
  | .string letters => '"' :: (Letters.spelling letters ++ ['"'])

def token : Lexeme → Token
  | .openBrace => .openBrace
  | .closeBrace => .closeBrace
  | .openBracket => .openBracket
  | .closeBracket => .closeBracket
  | .comma => .comma
  | .colon => .colon
  | .null => .null
  | .bool value => .bool value
  | .number numeral => .number numeral.value
  | .string letters => .string (Letters.value letters)

/-- What may stand directly behind any value. -/
def isDivider : Lexeme → Bool
  | .closeBrace | .closeBracket | .comma | .colon => true
  | _ => false

end Lexeme

def Blanks (text : List Char) : Prop := ∀ c ∈ text, isBlank c = true

/-- The text is these lexemes, with blanks anywhere around them. -/
inductive Spaced : List Lexeme → List Char → Prop where
  | done (blanks : List Char) (blank : Blanks blanks) : Spaced [] blanks
  | next (blanks : List Char) (blank : Blanks blanks) (lexeme : Lexeme)
      {later : List Lexeme} {text : List Char} (rest : Spaced later text) :
      Spaced (lexeme :: later) (blanks ++ (lexeme.spelling ++ text))

/-- No number stands next to anything that could go on with it. -/
def Parted : List Lexeme → Prop
  | .number _ :: next :: rest => next.isDivider = true ∧ Parted (next :: rest)
  | _ :: rest => Parted rest
  | [] => True

theorem Spaced.indented {lexemes : List Lexeme} {text : List Char} (spaced : Spaced lexemes text)
    (c : Char) (blank : isBlank c = true) : Spaced lexemes (c :: text) := by
  have more (blanks : List Char) (others : Blanks blanks) : Blanks (c :: blanks) := by
    intro d member
    rcases List.mem_cons.mp member with rfl | inside
    · exact blank
    · exact others d inside
  cases spaced with
  | done _ blanks => exact .done _ (more text blanks)
  | next blanks others lexeme rest => exact .next (c :: blanks) (more blanks others) lexeme rest

theorem ends_blank (c : Char) (rest : List Char) (blank : isBlank c = true) : Ends (c :: rest) := by
  simp only [isBlank, Bool.or_eq_true, beq_iff_eq] at blank
  rcases blank with ((rfl | rfl) | rfl) | rfl <;> exact ends_cons _ rest rfl (by decide) rfl

theorem ends_divider (lexeme : Lexeme) (divider : lexeme.isDivider = true) (rest : List Char) :
    Ends (lexeme.spelling ++ rest) := by
  cases lexeme with
  | closeBrace | closeBracket | comma | colon => exact ends_cons _ rest rfl (by decide) rfl
  | openBrace | openBracket | null | bool | number | string => cases divider

section Reading

theorem scan_lexeme (done : List Token) (lexeme : Lexeme) (rest : List Char)
    (ends : ∀ numeral, lexeme = .number numeral → Ends rest) :
    scanFrom done .between (lexeme.spelling ++ rest) =
      scanFrom (lexeme.token :: done) .between rest := by
  cases lexeme with
  | openBrace | closeBrace | openBracket | closeBracket | comma | colon | null => rfl
  | bool value => cases value <;> rfl
  | number numeral => exact scan_numeral done numeral rest (ends numeral rfl)
  | string letters =>
      rw [Lexeme.spelling, List.cons_append, List.append_assoc]
      exact scan_literal done rest letters

theorem Spaced.ends {lexemes : List Lexeme} {text : List Char} (spaced : Spaced lexemes text)
    (divided : ∀ lexeme, lexemes.head? = some lexeme → lexeme.isDivider = true) : Ends text := by
  have front (blanks rest : List Char) (blank : Blanks blanks) (ends : Ends rest) :
      Ends (blanks ++ rest) := by
    cases blanks with
    | nil => exact ends
    | cons c later => exact ends_blank c _ (blank c List.mem_cons_self)
  cases spaced with
  | done _ blank =>
      rw [← List.append_nil text]
      exact front text [] blank nofun
  | next blanks blank lexeme rest =>
      exact front blanks _ blank (ends_divider lexeme (divided lexeme rfl) _)

theorem Parted.later {lexeme : Lexeme} {rest : List Lexeme} (parted : Parted (lexeme :: rest)) :
    Parted rest := by
  cases lexeme with
  | number numeral =>
      cases rest with
      | nil => trivial
      | cons next later => exact parted.2
  | openBrace | closeBrace | openBracket | closeBracket | comma | colon | null | bool | string =>
      exact parted

theorem Parted.divided {numeral : Numeral} {rest : List Lexeme}
    (parted : Parted (.number numeral :: rest)) (lexeme : Lexeme)
    (head : rest.head? = some lexeme) : lexeme.isDivider = true := by
  cases rest with
  | nil => cases head
  | cons next later =>
      cases head
      exact parted.1

theorem scan_spaced {lexemes : List Lexeme} {text : List Char} (spaced : Spaced lexemes text)
    (parted : Parted lexemes) (done : List Token) :
    scanFrom done .between text = done.reverse ++ lexemes.map Lexeme.token := by
  induction spaced generalizing done with
  | done blanks blank =>
      have passed := scan_blanks done blanks [] blank
      rw [List.append_nil] at passed
      simp [passed, scanFrom, atEnd]
  | next blanks blank lexeme rest ih =>
      rw [scan_blanks done blanks _ blank, scan_lexeme, ih parted.later]
      · simp
      · rintro numeral rfl
        exact rest.ends parted.divided

end Reading

section Recognition

theorem letters_or_breaks (letters : List Char) (token : Token) (nonempty : letters ≠ [])
    (text : List Char) :
    (∃ rest, text = letters ++ rest ∧
        ∀ done, scanFrom done (.word letters token) text =
          scanFrom (token :: done) .between rest) ∨
      Breaks (.word letters token) text := by
  induction letters generalizing text with
  | nil => exact absurd rfl nonempty
  | cons letter later ih =>
      cases text with
      | nil => exact .inr (breaks_atEnd (.broken (.both .cutShort)) rfl rfl)
      | cons c rest =>
          by_cases same : c = letter
          · subst same
            cases later with
            | nil =>
                left
                refine ⟨rest, rfl, ?_⟩
                intro done
                simp [scanFrom, effect]
            | cons next others =>
                have step : effect (.word (c :: next :: others) token) c rest =
                    ⟨[], some (.word (next :: others) token)⟩ := by
                  simp [effect]
                rcases ih (by simp) rest with ⟨behind, split, read⟩ | breaks
                · left
                  refine ⟨behind, by rw [split]; rfl, ?_⟩
                  intro done
                  rw [← read done]
                  simp [scanFrom, step]
                · exact .inr (breaks_behind step breaks)
          · right
            apply breaks_stopped (.broken (.both .malformed)) rfl
            cases later <;> simp [effect, same]

theorem structural_spelled (c : Char) (token : Token) (structural : structural? c = some token) :
    ∃ lexeme : Lexeme, lexeme.spelling = [c] ∧ lexeme.token = token := by
  unfold structural? at structural
  repeat' split at structural
  all_goals cases structural
  all_goals
    rename_i same
    subst same
  · exact ⟨.openBrace, rfl, rfl⟩
  · exact ⟨.closeBrace, rfl, rfl⟩
  · exact ⟨.openBracket, rfl, rfl⟩
  · exact ⟨.closeBracket, rfl, rfl⟩
  · exact ⟨.comma, rfl, rfl⟩
  · exact ⟨.colon, rfl, rfl⟩

theorem word_spelled (c : Char) (mode : Mode) (word : word? c = some mode) :
    ∃ (lexeme : Lexeme) (letters : List Char), lexeme.spelling = c :: letters ∧ letters ≠ [] ∧
      mode = .word letters lexeme.token := by
  unfold word? at word
  repeat' split at word
  all_goals cases word
  all_goals
    rename_i same
    subst same
  · exact ⟨.null, ['u', 'l', 'l'], rfl, by simp, rfl⟩
  · exact ⟨.bool true, ['r', 'u', 'e'], rfl, by simp, rfl⟩
  · exact ⟨.bool false, ['a', 'l', 's', 'e'], rfl, by simp, rfl⟩

/-- A character that is no blank begins a lexeme, if the scan does not refuse the text there. -/
theorem lexeme_or_breaks (c : Char) (later : List Char) (visible : isBlank c = false) :
    (∃ (lexeme : Lexeme) (rest : List Char), c :: later = lexeme.spelling ++ rest ∧
        rest.length ≤ later.length ∧
        ∀ done, scanFrom done .between (c :: later) =
          scanFrom (lexeme.token :: done) .between rest) ∨
      Breaks .between (c :: later) := by
  by_cases quote : c = '"'
  · subst quote
    have opened : effect .between '"' later = ⟨[], some (.string .start)⟩ := rfl
    rcases literal_or_breaks .start rfl later with ⟨letters, rest, rfl⟩ | breaks
    · left
      refine ⟨.string letters, rest, by simp [Lexeme.spelling], by simp; omega, ?_⟩
      intro done
      exact scan_literal done rest letters
    · exact .inr (breaks_behind opened breaks)
  · cases structural : structural? c with
    | some token =>
        obtain ⟨lexeme, spelled, same⟩ := structural_spelled c token structural
        left
        refine ⟨lexeme, later, by simp [spelled], Nat.le_refl _, ?_⟩
        intro done
        simp [scanFrom, effect, begin, visible, quote, structural, same]
    | none =>
        cases start : NumberScan.start? c with
        | some n =>
            have opened : effect .between c later = ⟨[], some (.number n)⟩ := by
              simp [effect, begin, visible, quote, structural, start]
            rcases numeral_or_breaks (start_begun c n start) later with
              ⟨numeral, back, rest, split, spelled, read⟩ | breaks
            · left
              refine ⟨.number numeral, rest, by simp [Lexeme.spelling, spelled, split],
                by simp [split], ?_⟩
              intro done
              rw [Lexeme.token, ← read done]
              simp [scanFrom, opened]
            · exact .inr (breaks_behind opened breaks)
        | none =>
            cases word : word? c with
            | some mode =>
                have opened : effect .between c later = ⟨[], some mode⟩ := by
                  simp [effect, begin, visible, quote, structural, start, word]
                obtain ⟨lexeme, letters, spelled, nonempty, rfl⟩ := word_spelled c mode word
                rcases letters_or_breaks letters lexeme.token nonempty later with
                  ⟨rest, split, read⟩ | breaks
                · left
                  refine ⟨lexeme, rest, by simp [spelled, split], by simp [split], ?_⟩
                  intro done
                  rw [← read done]
                  simp [scanFrom, opened]
                · exact .inr (breaks_behind opened breaks)
            | none =>
                right
                apply breaks_stopped (.broken (.both .malformed)) rfl
                simp [effect, begin, visible, quote, structural, start, word]

/-- A scan gives the tokens of lexemes, and if these are not the whole text, it ends with the
token of the fault behind them. -/
theorem lexemes_or_broken (text : List Char) :
    ∃ lexemes : List Lexeme,
      (Spaced lexemes text ∧
          ∀ done, scanFrom done .between text = done.reverse ++ lexemes.map Lexeme.token) ∨
        ∃ token, isBroken token = true ∧
          ∀ done, scanFrom done .between text =
            done.reverse ++ (lexemes.map Lexeme.token ++ [token]) := by
  induction size : text.length using Nat.strongRecOn generalizing text with
  | ind length ih =>
      cases text with
      | nil => exact ⟨[], .inl ⟨.done [] nofun, fun done => by simp [scanFrom, atEnd]⟩⟩
      | cons c later =>
          subst size
          cases blank : isBlank c with
          | true =>
              obtain ⟨lexemes, read⟩ := ih later.length (by simp) later rfl
              have passed (done : List Token) : scanFrom done .between (c :: later) =
                  scanFrom done .between later :=
                scan_blanks done [c] later (by simpa using blank)
              refine ⟨lexemes, read.imp (fun whole => ⟨?_, ?_⟩) ?_⟩
              · exact whole.1.indented c blank
              · intro done
                rw [passed, whole.2]
              · rintro ⟨token, broken, stopped⟩
                refine ⟨token, broken, ?_⟩
                intro done
                rw [passed, stopped]
          | false =>
              rcases lexeme_or_breaks c later blank with
                ⟨lexeme, rest, split, shorter, read⟩ | ⟨token, broken, stopped⟩
              · obtain ⟨lexemes, others⟩ := ih rest.length (by simp; omega) rest rfl
                refine ⟨lexeme :: lexemes, others.imp (fun whole => ⟨?_, ?_⟩) ?_⟩
                · rw [split]
                  exact .next [] nofun lexeme whole.1
                · intro done
                  rw [read, whole.2]
                  simp
                · rintro ⟨token, broken, stopped⟩
                  refine ⟨token, broken, ?_⟩
                  intro done
                  rw [read, stopped]
                  simp
              · exact ⟨[], .inr ⟨token, broken, by simpa using stopped⟩⟩

end Recognition

end Token

end SchemaDefaults
