import SchemaDefaults.Toml.Document
/-!
How far ahead a settings file is read. A reader takes what it reads from the front of the text
and leaves the rest. It looks at the first character of the rest, and if that is a space, which
may stand between a date and a time, at one more. What comes later makes no difference.
-/

namespace SchemaDefaults.Toml

section Rests

structure Agree (first second : List Char) : Prop where
  head : first.head? = second.head?
  behind : first.head? = some ' ' → first.tail.head? = second.tail.head?

namespace Agree

variable {first second : List Char}

theorem append (agree : Agree first second) (front : List Char) :
    Agree (front ++ first) (front ++ second) := by
  cases front with
  | nil => exact agree
  | cons c front =>
      refine ⟨rfl, fun _ => ?_⟩
      cases front with
      | nil => exact agree.head
      | cons d front => rfl

theorem take_two (agree : Agree first second) (front : List Char) (taken : front ≠ []) :
    (front ++ first).take 2 = (front ++ second).take 2 := by
  cases front with
  | nil => exact absurd rfl taken
  | cons c front =>
      cases front with
      | nil => simp [List.take_one, agree.head]
      | cons d front => simp

theorem nil_left (agree : Agree [] second) : second = [] :=
  List.head?_eq_none_iff.mp agree.head.symm

theorem cons_left {c : Char} {rest : List Char} (agree : Agree (c :: rest) second) :
    ∃ later, second = c :: later :=
  List.head?_eq_some_iff.mp agree.head.symm

end Agree

/-- A reading, as a relation between a text and what is left of it, that goes by the part it
takes and by no more of the rest than agreeing rests have in common. -/
def Local (reading : List Char → List Char → Prop) : Prop :=
  ∀ text rest, reading text rest →
    ∃ front, text = front ++ rest ∧ ∀ other, Agree rest other → reading (front ++ other) other

namespace Local

variable {first second : List Char → List Char → Prop}

theorem comp (left : Local first) (right : Local second) :
    Local fun text rest => ∃ middle, first text middle ∧ second middle rest := by
  rintro text rest ⟨middle, begins, ends⟩
  obtain ⟨last, rfl, endsAgain⟩ := right middle rest ends
  obtain ⟨front, rfl, beginsAgain⟩ := left text _ begins
  refine ⟨front ++ last, (List.append_assoc _ _ _).symm, fun other agree => ?_⟩
  rw [List.append_assoc]
  exact ⟨last ++ other, beginsAgain _ (agree.append last), endsAgain other agree⟩

theorem leaving (left : Local first) (more : List Char) :
    Local fun text rest => first text (more ++ rest) := by
  intro text rest begins
  obtain ⟨front, rfl, again⟩ := left text _ begins
  refine ⟨front ++ more, (List.append_assoc _ _ _).symm, fun other agree => ?_⟩
  rw [List.append_assoc]
  exact again _ (agree.append more)

theorem length_le (left : Local first) {text rest : List Char} (begins : first text rest) :
    rest.length ≤ text.length := by
  obtain ⟨front, rfl, _⟩ := left text rest begins
  simp

end Local

end Rests

section Gaps

/-- What a character does in a gap, whatever follows: the gap goes on behind it, ends behind it
or before it, or is malformed. -/
theorem skipGap_cons (lineOnly : Bool) (gap : Gap) (c : Char) :
    (∃ next, ∀ text, skipGap lineOnly gap (c :: text) = skipGap lineOnly next text) ∨
      (∀ text, skipGap lineOnly gap (c :: text) = some text) ∨
      (∀ text, skipGap lineOnly gap (c :: text) = some (c :: text)) ∨
      ∀ text, skipGap lineOnly gap (c :: text) = none := by
  by_cases newline : c = '\n'
  · cases lineOnly with
    | true => exact .inr (.inl fun _ => by simp [skipGap, newline])
    | false => exact .inl ⟨.blank, fun _ => by simp [skipGap, newline]⟩
  · by_cases ret : c = '\r'
    · cases gap with
      | carriageReturn => exact .inr (.inr (.inr fun _ => by simp [skipGap, ret]))
      | comment => exact .inl ⟨.carriageReturn, fun _ => by simp [skipGap, ret]⟩
      | blank => exact .inl ⟨.carriageReturn, fun _ => by simp [skipGap, ret, isBlank]⟩
    · cases gap with
      | carriageReturn => exact .inr (.inr (.inr fun _ => by simp [skipGap, newline]))
      | comment =>
          by_cases inLine : isLineChar c = true
          · exact .inl ⟨.comment, fun _ => by simp [skipGap, newline, ret, inLine]⟩
          · exact .inr (.inr (.inr fun _ => by simp [skipGap, newline, ret, inLine]))
      | blank =>
          by_cases blank : isBlank c = true
          · exact .inl ⟨.blank, fun _ => by simp [skipGap, newline, blank]⟩
          · by_cases mark : c = '#'
            · exact .inl ⟨.comment, fun _ => by simp [skipGap, mark, isBlank]⟩
            · cases lineOnly with
              | true => exact .inr (.inr (.inr fun _ => by
                  simp [skipGap, newline, ret, blank, mark]))
              | false => exact .inr (.inr (.inl fun _ => by
                  simp [skipGap, newline, ret, blank, mark]))

theorem skipGap_local (lineOnly : Bool) (gap : Gap) :
    Local fun text rest => skipGap lineOnly gap text = some rest := by
  intro text
  induction text generalizing gap with
  | nil =>
      intro rest skipped
      refine ⟨[], ?_, ?_⟩
      · cases gap <;> cases skipped <;> rfl
      · intro other agree
        cases gap <;> cases skipped <;> cases agree.nil_left <;> rfl
  | cons c text ih =>
      intro rest skipped
      rcases skipGap_cons lineOnly gap c with ⟨next, goes⟩ | behind | before | broken
      · rw [goes] at skipped
        obtain ⟨front, rfl, again⟩ := ih next rest skipped
        exact ⟨c :: front, rfl, fun other agree => (goes _).trans (again other agree)⟩
      · rw [behind] at skipped
        cases skipped
        exact ⟨[c], rfl, fun other _ => behind other⟩
      · rw [before] at skipped
        cases skipped
        refine ⟨[], rfl, fun other agree => ?_⟩
        obtain ⟨later, rfl⟩ := agree.cons_left
        exact before later
      · rw [broken] at skipped
        cases skipped

theorem skipLines_local : Local fun text rest => skipLines? text = some rest :=
  skipGap_local false .blank

theorem endLine_local : Local fun text rest => endLine? text = some rest :=
  skipGap_local true .blank

/-- The longest front of characters of a class is the same over an agreeing rest. -/
theorem span_local (p : Char → Bool) (text other : List Char)
    (agree : Agree (text.dropWhile p) other) :
    (text.takeWhile p ++ other).takeWhile p = text.takeWhile p ∧
      (text.takeWhile p ++ other).dropWhile p = other := by
  have inside : ∀ c ∈ text.takeWhile p, p c = true := List.all_eq_true.mp List.all_takeWhile
  have ends : other.takeWhile p = [] ∧ other.dropWhile p = other := by
    have stopped := List.head?_dropWhile_not p text
    cases other with
    | nil => exact ⟨rfl, rfl⟩
    | cons c later =>
        rw [agree.head] at stopped
        have outside : p c = false := stopped
        simp [outside]
  rw [List.takeWhile_append_of_pos inside, List.dropWhile_append_of_pos inside, ends.1, ends.2]
  simp

theorem skipBlanks_local : Local fun text rest => skipBlanks text = rest := by
  rintro text rest rfl
  refine ⟨text.takeWhile isBlank, List.takeWhile_append_dropWhile.symm, ?_⟩
  intro other agree
  exact (span_local isBlank text other agree).2

end Gaps

section Quotes

namespace Quoted

/-- A quote is told from a longer run of quotes by the next character. -/
theorem step_agree (form : QuoteForm) (place : Place) (c : Char) (rest other : List Char)
    (head : rest.head? = other.head?) : step form place c rest = step form place c other := by
  have quote (count : Nat) : quoteStep form count rest = quoteStep form count other := by
    unfold quoteStep
    rw [head]
  have text (held : List Char) : textStep form held c rest = textStep form held c other := by
    unfold textStep
    rw [quote]
  unfold step
  simp only [quote, text]

theorem readFrom_local (form : QuoteForm) (place : Place) (done : List Char) (content : String) :
    Local fun text rest => readFrom form place done text = some (content, rest) := by
  intro text
  induction text generalizing place done with
  | nil => nofun
  | cons c text ih =>
      intro rest read
      simp only [readFrom] at read
      cases stepped : step form place c text with
      | more next written =>
          rw [stepped] at read
          obtain ⟨front, rfl, again⟩ := ih next _ rest read
          refine ⟨c :: front, rfl, fun other agree => ?_⟩
          have same := step_agree form place c _ _ (agree.append front).head
          rw [stepped] at same
          simp only [List.cons_append, readFrom, ← same, again other agree]
      | closed written =>
          rw [stepped] at read
          cases read
          -- The quote that closes the text has looked at the first character of the rest.
          refine ⟨[c], rfl, fun other agree => ?_⟩
          have same := step_agree form place c _ _ agree.head
          rw [stepped] at same
          simp only [List.cons_append, List.nil_append, readFrom, ← same]
      | broken =>
          rw [stepped] at read
          cases read

theorem readFrom_shorter (form : QuoteForm) (place : Place) (done text rest : List Char)
    (content : String) (read : readFrom form place done text = some (content, rest)) :
    rest.length < text.length := by
  induction text generalizing place done with
  | nil => cases read
  | cons c text ih =>
      simp only [readFrom] at read
      cases stepped : step form place c text with
      | more next written =>
          rw [stepped] at read
          exact Nat.lt_succ_of_lt (ih next _ read)
      | closed written =>
          rw [stepped] at read
          cases read
          exact Nat.lt_succ_self _
      | broken =>
          rw [stepped] at read
          cases read

theorem read?_cons (c : Char) (text : List Char) :
    read? (c :: text) =
      if c = '"' then
        if text.take 2 = ['"', '"'] then readFrom .basicLines .opened [] (text.drop 2)
        else readLine .basic text
      else if c = '\'' then
        if text.take 2 = ['\'', '\''] then readFrom .verbatimLines .opened [] (text.drop 2)
        else readLine .verbatim text
      else none := by
  unfold read?
  split
  next same =>
    cases same
    rfl
  next text plain same =>
    cases same
    have single : text.take 2 ≠ ['"', '"'] := fun tripled => plain _ (by
      rw [← List.take_append_drop 2 text, tripled]
      rfl)
    simp [single]
  next same =>
    cases same
    rfl
  next text plain same =>
    cases same
    have single : text.take 2 ≠ ['\'', '\''] := fun tripled => plain _ (by
      rw [← List.take_append_drop 2 text, tripled]
      rfl)
    simp [single]
  next _ double _ single =>
    have first : c ≠ '"' := fun same => double text (by rw [same])
    have second : c ≠ '\'' := fun same => single text (by rw [same])
    simp [first, second]

theorem forms_local (c : Char) (one several : QuoteForm) (content : String) :
    Local fun text rest =>
      (if text.take 2 = [c, c] then readFrom several .opened [] (text.drop 2)
        else readLine one text) = some (content, rest) := by
  intro text rest read
  by_cases tripled : text.take 2 = [c, c]
  · rw [if_pos tripled] at read
    obtain ⟨front, same, again⟩ := readFrom_local several _ _ content _ rest read
    refine ⟨c :: c :: front, ?_, fun other agree => ?_⟩
    · rw [← List.take_append_drop 2 text, tripled, same]
      rfl
    · exact (if_pos rfl).trans (again other agree)
  · rw [if_neg tripled] at read
    obtain ⟨front, rfl, again⟩ := readFrom_local one _ _ content _ rest read
    refine ⟨front, rfl, fun other agree => ?_⟩
    have taken : front ≠ [] := by
      rintro rfl
      exact absurd (readFrom_shorter _ _ _ _ _ content read) (Nat.lt_irrefl _)
    rw [agree.take_two front taken] at tripled
    exact (if_neg tripled).trans (again other agree)

theorem read?_local (content : String) :
    Local fun text rest => read? text = some (content, rest) := by
  intro text rest read
  cases text with
  | nil => cases read
  | cons c text =>
      rw [read?_cons] at read
      by_cases double : c = '"'
      · rw [if_pos double] at read
        obtain ⟨front, rfl, again⟩ := forms_local '"' _ _ content text rest read
        refine ⟨c :: front, rfl, fun other agree => ?_⟩
        exact (read?_cons c _).trans ((if_pos double).trans (again other agree))
      · rw [if_neg double] at read
        by_cases single : c = '\''
        · rw [if_pos single] at read
          obtain ⟨front, rfl, again⟩ := forms_local '\'' _ _ content text rest read
          refine ⟨c :: front, rfl, fun other agree => ?_⟩
          exact (read?_cons c _).trans
            ((if_neg double).trans ((if_pos single).trans (again other agree)))
        · rw [if_neg single] at read
          cases read

end Quoted

end Quotes

section Keys

theorem key?_bare (c : Char) (text : List Char) (double : c ≠ '"') (single : c ≠ '\'') :
    key? (c :: text) =
      if ((c :: text).takeWhile isBareChar).isEmpty then none
      else some (String.ofList ((c :: text).takeWhile isBareChar),
        (c :: text).dropWhile isBareChar) := by
  unfold key?
  split
  next same => cases same; exact absurd rfl double
  next same => cases same; exact absurd rfl single
  next => rfl

theorem key?_cases (text : List Char) (key : String) (rest : List Char)
    (read : key? text = some (key, rest)) :
    (∃ later, text = '"' :: later ∧ Quoted.readLine .basic later = some (key, rest)) ∨
    (∃ later, text = '\'' :: later ∧ Quoted.readLine .verbatim later = some (key, rest)) ∨
    ∃ c bare, c ≠ '"' ∧ c ≠ '\'' ∧ text.takeWhile isBareChar = c :: bare ∧
      text.dropWhile isBareChar = rest ∧ key = String.ofList (c :: bare) := by
  unfold key? at read
  split at read
  · exact .inl ⟨_, rfl, read⟩
  · exact .inr (.inl ⟨_, rfl, read⟩)
  · refine .inr (.inr ?_)
    cases taken : text.takeWhile isBareChar with
    | nil => simp [taken] at read
    | cons c bare =>
        have member : isBareChar c = true :=
          List.all_eq_true.mp List.all_takeWhile c (taken ▸ List.mem_cons_self)
        simp only [taken, List.isEmpty_cons, Bool.false_eq_true, ↓reduceIte, Option.some.injEq,
          Prod.mk.injEq] at read
        refine ⟨c, bare, ?_, ?_, rfl, read.2, read.1.symm⟩
        · rintro rfl
          cases member
        · rintro rfl
          cases member

theorem key?_local (key : String) : Local fun text rest => key? text = some (key, rest) := by
  intro text rest read
  rcases key?_cases text key rest read with ⟨later, rfl, quoted⟩ | ⟨later, rfl, quoted⟩ |
    ⟨c, bare, double, single, taken, left, named⟩
  · obtain ⟨front, rfl, again⟩ := Quoted.readFrom_local _ _ _ key later rest quoted
    exact ⟨'"' :: front, rfl, again⟩
  · obtain ⟨front, rfl, again⟩ := Quoted.readFrom_local _ _ _ key later rest quoted
    exact ⟨'\'' :: front, rfl, again⟩
  · refine ⟨c :: bare, ?_, fun other agree => ?_⟩
    · rw [← taken, ← left, List.takeWhile_append_dropWhile]
    · rw [← left] at agree
      have spanned := span_local isBareChar text other agree
      rw [taken] at spanned
      rw [List.cons_append] at spanned
      show key? (c :: (bare ++ other)) = some (key, other)
      rw [key?_bare c _ double single, spanned.1, spanned.2, named]
      rfl

theorem key?_shorter (key : String) (text rest : List Char)
    (read : key? text = some (key, rest)) : rest.length < text.length := by
  rcases key?_cases text key rest read with ⟨later, rfl, quoted⟩ | ⟨later, rfl, quoted⟩ |
    ⟨c, bare, double, single, taken, left, named⟩
  · exact Nat.lt_succ_of_lt (Quoted.readFrom_shorter _ _ _ _ _ key quoted)
  · exact Nat.lt_succ_of_lt (Quoted.readFrom_shorter _ _ _ _ _ key quoted)
  · rw [← List.takeWhile_append_dropWhile (p := isBareChar) (l := text), taken, left]
    simp only [List.length_append, List.length_cons]
    omega

/-- Behind a key there is a dot and another key path, or the path ends before the rest. -/
theorem keyPathFrom_iff (fuel : Nat) (text rest : List Char) (keys : KeyPath) :
    keyPathFrom (fuel + 1) text = some (keys, rest) ↔
      ∃ key middle, key? text = some (key, middle) ∧
        ((∃ behind later, skipBlanks middle = '.' :: behind ∧
            keyPathFrom fuel (skipBlanks behind) = some (later, rest) ∧
            keys = ⟨key :: later.path, later.key⟩) ∨
          skipBlanks middle = rest ∧ rest.head? ≠ some '.' ∧ keys = ⟨[], key⟩) := by
  simp only [keyPathFrom, Option.bind_eq_bind, Option.bind_eq_some_iff, Prod.exists]
  refine exists_congr fun key => exists_congr fun middle => and_congr_right fun _ => ?_
  split
  next behind dotted =>
    constructor
    · simp only [Option.bind_eq_some_iff, Prod.exists]
      rintro ⟨later, left, more, made⟩
      cases made
      exact .inl ⟨behind, later, dotted, more, rfl⟩
    · rintro (⟨other, later, same, more, rfl⟩ | ⟨ended, undotted, _⟩)
      · cases dotted.symm.trans same
        simp [more]
      · rw [← ended, dotted] at undotted
        exact absurd rfl undotted
  next plain =>
    constructor
    · intro made
      cases made
      refine .inr ⟨rfl, ?_, rfl⟩
      intro dotted
      obtain ⟨behind, same⟩ := List.head?_eq_some_iff.mp dotted
      exact plain behind same
    · rintro (⟨behind, later, dotted, _⟩ | ⟨rfl, _, rfl⟩)
      · exact absurd dotted (plain behind)
      · rfl

theorem keyPathFrom_local (fuel : Nat) (keys : KeyPath) :
    Local fun text rest => keyPathFrom fuel text = some (keys, rest) := by
  induction fuel generalizing keys with
  | zero => nofun
  | succ fuel ih =>
      intro text rest read
      obtain ⟨key, middle, first, ⟨behind, later, dot, more, made⟩ | ⟨ended, undotted, made⟩⟩ :=
        (keyPathFrom_iff fuel text rest keys).mp read
      · have dotted := (key?_local key).comp
          ((skipBlanks_local.leaving ['.']).comp (skipBlanks_local.comp (ih later)))
        obtain ⟨front, same, again⟩ := dotted text rest ⟨middle, first, behind, dot, _, rfl, more⟩
        refine ⟨front, same, fun other agree => ?_⟩
        obtain ⟨middle, first, behind, dot, _, rfl, more⟩ := again other agree
        exact (keyPathFrom_iff fuel _ other keys).mpr
          ⟨key, middle, first, .inl ⟨behind, later, dot, more, made⟩⟩
      · have plain := (key?_local key).comp skipBlanks_local
        obtain ⟨front, same, again⟩ := plain text rest ⟨middle, first, ended⟩
        refine ⟨front, same, fun other agree => ?_⟩
        obtain ⟨middle, first, ended⟩ := again other agree
        rw [agree.head] at undotted
        exact (keyPathFrom_iff fuel _ other keys).mpr
          ⟨key, middle, first, .inr ⟨ended, undotted, made⟩⟩

theorem keyPathFrom_fuel (fuel other : Nat) (text rest : List Char) (keys : KeyPath)
    (read : keyPathFrom fuel text = some (keys, rest)) (enough : text.length < other) :
    keyPathFrom other text = some (keys, rest) := by
  -- Each key takes a character at least, so that a fuel above the length is never used up.
  induction fuel generalizing other text keys with
  | zero => cases read
  | succ fuel ih =>
      cases other with
      | zero => cases enough
      | succ other =>
          obtain ⟨key, middle, first, ⟨behind, later, dot, more, made⟩ | ended⟩ :=
            (keyPathFrom_iff fuel text rest keys).mp read
          · refine (keyPathFrom_iff other text rest keys).mpr
              ⟨key, middle, first, .inl ⟨behind, later, dot, ih _ _ later more ?_, made⟩⟩
            have taken := key?_shorter key text middle first
            have skipped := skipBlanks_local.length_le dot
            have again := skipBlanks_local.length_le (rfl : skipBlanks behind = _)
            rw [List.length_cons] at skipped
            omega
          · exact (keyPathFrom_iff other text rest keys).mpr ⟨key, middle, first, .inr ended⟩

theorem keyPath?_local (keys : KeyPath) :
    Local fun text rest => keyPath? text = some (keys, rest) := by
  intro text rest read
  -- The fuel goes by the length of the whole text, which is another one with another rest.
  obtain ⟨front, same, again⟩ := keyPathFrom_local _ keys text rest read
  refine ⟨front, same, fun other agree => ?_⟩
  exact keyPathFrom_fuel _ _ _ _ keys (again other agree) (Nat.lt_succ_self _)

/-- A key path begins with a quote or with a character of a bare key. -/
theorem keyPath?_head (c : Char) (text rest : List Char) (keys : KeyPath)
    (read : keyPath? (c :: text) = some (keys, rest)) :
    c = '"' ∨ c = '\'' ∨ isBareChar c = true := by
  obtain ⟨key, middle, first, _⟩ := (keyPathFrom_iff _ _ rest keys).mp read
  rcases key?_cases _ key middle first with ⟨later, same, _⟩ | ⟨later, same, _⟩ |
    ⟨d, bare, _, _, taken, _, _⟩
  · exact .inl (List.cons.inj same).1
  · exact .inr (.inl (List.cons.inj same).1)
  · by_cases inKey : isBareChar c = true
    · exact .inr (.inr inKey)
    · simp [inKey] at taken

end Keys

section Words

namespace Scalar

theorem split_joined (text behind : List Char)
    (date : Moment.date? (text.takeWhile isWordChar) = some [])
    (digit : behind.head?.any Char.isDigit = true)
    (left : text.dropWhile isWordChar = ' ' :: behind) :
    split text = (text.takeWhile isWordChar ++ ' ' :: behind.takeWhile isWordChar,
      behind.dropWhile isWordChar) := by
  cases behind with
  | nil => cases digit
  | cons c later =>
      have decimal : c.isDigit = true := digit
      simp [split, left, decimal, date]

theorem split_single (text : List Char)
    (single : ∀ behind, text.dropWhile isWordChar = ' ' :: behind →
      Moment.date? (text.takeWhile isWordChar) = some [] →
        behind.head?.any Char.isDigit = false) :
    split text = (text.takeWhile isWordChar, text.dropWhile isWordChar) := by
  unfold split
  split
  next c behind left =>
    by_cases date : Moment.date? (text.takeWhile isWordChar) = some []
    · have letter : c.isDigit = false := single _ left date
      simp [letter, left]
    · simp [date, left]
  next => rfl

theorem split_local (word : List Char) :
    Local fun text rest => split text = (word, rest) := by
  intro text rest read
  have whole : text.takeWhile isWordChar ++ text.dropWhile isWordChar = text :=
    List.takeWhile_append_dropWhile
  by_cases joined : ∃ behind, text.dropWhile isWordChar = ' ' :: behind ∧
    Moment.date? (text.takeWhile isWordChar) = some [] ∧ behind.head?.any Char.isDigit = true
  · obtain ⟨behind, left, date, digit⟩ := joined
    rw [split_joined text behind date digit left] at read
    cases read
    refine ⟨text.takeWhile isWordChar ++ ' ' :: behind.takeWhile isWordChar, ?_, ?_⟩
    · rw [List.append_assoc, List.cons_append, List.takeWhile_append_dropWhile, ← left, whole]
    · intro other agree
      -- The second word is not empty, so that the same digit follows the space.
      have next : behind.head? = (behind.takeWhile isWordChar ++ other).head? := by
        cases behind with
        | nil => cases digit
        | cons c later =>
            have decimal : c.isDigit = true := digit
            have inWord : isWordChar c = true := by simp [isWordChar, Char.isAlphanum, decimal]
            simp [inWord]
      have first := span_local isWordChar text
        (' ' :: (behind.takeWhile isWordChar ++ other)) (left ▸ ⟨rfl, fun _ => next⟩)
      have second := span_local isWordChar behind other agree
      have again := split_joined (text.takeWhile isWordChar ++
        ' ' :: (behind.takeWhile isWordChar ++ other)) _
        (first.1.symm ▸ date) (next ▸ digit) first.2
      rw [first.1, second.1, second.2] at again
      rw [List.append_assoc]
      exact again
  · have single (behind : List Char) (left : text.dropWhile isWordChar = ' ' :: behind)
        (date : Moment.date? (text.takeWhile isWordChar) = some []) :
        behind.head?.any Char.isDigit = false :=
      Bool.eq_false_iff.mpr fun digit => joined ⟨behind, left, date, digit⟩
    rw [split_single text single] at read
    cases read
    refine ⟨text.takeWhile isWordChar, whole.symm, fun other agree => ?_⟩
    have spanned := span_local isWordChar text other agree
    have again := split_single (text.takeWhile isWordChar ++ other) (by
      rw [spanned.1, spanned.2]
      rintro later rfl date
      obtain ⟨behind, left⟩ := List.head?_eq_some_iff.mp agree.head
      have same := agree.behind agree.head
      rw [left] at same
      exact same ▸ single behind left date)
    rw [spanned.1, spanned.2] at again
    exact again

theorem read?_iff (text rest : List Char) (scalar : Scalar) :
    read? text = some (scalar, rest) ↔
      ∃ word, split text = (word, rest) ∧ ofText? word = some scalar := by
  simp only [read?, Option.bind_eq_bind, Option.bind_eq_some_iff]
  constructor
  · rintro ⟨found, known, made⟩
    cases made
    exact ⟨_, rfl, known⟩
  · rintro ⟨word, made, known⟩
    rw [made]
    exact ⟨scalar, known, rfl⟩

theorem read?_local (scalar : Scalar) :
    Local fun text rest => read? text = some (scalar, rest) := by
  intro text rest read
  obtain ⟨word, found, known⟩ := (read?_iff text rest scalar).mp read
  obtain ⟨front, same, again⟩ := split_local word text rest found
  exact ⟨front, same, fun other agree => (read?_iff _ _ _).mpr ⟨word, again other agree, known⟩⟩

/-- There is no empty word, so a scalar begins with a character of a word. -/
theorem read?_head (scalar : Scalar) (c : Char) (text rest : List Char)
    (read : read? (c :: text) = some (scalar, rest)) : isWordChar c = true := by
  obtain ⟨word, found, known⟩ := (read?_iff _ _ _).mp read
  by_cases inWord : isWordChar c = true
  · exact inWord
  · have empty : (c :: text).takeWhile isWordChar = [] := by simp [inWord]
    have undated : Moment.date? ((c :: text).takeWhile isWordChar) ≠ some [] := by
      rw [empty]
      decide
    rw [split_single _ fun _ _ date => absurd date undated] at found
    cases found
    rw [empty] at known
    cases known

end Scalar

end Words

section Headers

def Line.opened? : Line → Option KeyPath
  | .header keys => some keys
  | .nextHeader keys => some keys
  | .pair _ _ => none

/-- Keys with blanks around them, and the closing brackets. -/
def Encloses (close : List Char) (keys : KeyPath) (text rest : List Char) : Prop :=
  ∃ start, skipBlanks text = start ∧
    ∃ middle, keyPath? start = some (keys, middle) ∧ skipBlanks middle = close ++ rest

theorem encloses_local (close : List Char) (keys : KeyPath) : Local (Encloses close keys) :=
  skipBlanks_local.comp ((keyPath?_local keys).comp (skipBlanks_local.leaving close))

theorem line?_iff (text rest : List Char) (line : Line) :
    line? text = some (line, rest) ↔
      (∃ inner keys, text = '[' :: '[' :: inner ∧ Encloses [']', ']'] keys inner rest ∧
        line = .nextHeader keys) ∨
      (∃ inner keys, text = '[' :: inner ∧ inner.head? ≠ some '[' ∧
        Encloses [']'] keys inner rest ∧ line = .header keys) ∨
      ∃ keys behind later value, text.head? ≠ some '[' ∧ keyPath? text = some (keys, behind) ∧
        skipBlanks behind = '=' :: later ∧ value? (skipBlanks later) = some (value, rest) ∧
        line = .pair keys value := by
  constructor
  · intro read
    unfold line? at read
    split at read
    next inner =>
      obtain ⟨⟨keys, middle⟩, named, found⟩ := Option.bind_eq_some_iff.mp read
      dsimp only at found
      split at found <;> cases found
      next closed => exact .inl ⟨inner, keys, rfl, ⟨_, rfl, middle, named, closed⟩, rfl⟩
    next inner single =>
      obtain ⟨⟨keys, middle⟩, named, found⟩ := Option.bind_eq_some_iff.mp read
      dsimp only at found
      split at found <;> cases found
      next closed =>
        refine .inr (.inl ⟨inner, keys, rfl, ?_, ⟨_, rfl, middle, named, closed⟩, rfl⟩)
        intro bracket
        obtain ⟨later, same⟩ := List.head?_eq_some_iff.mp bracket
        exact single later (by rw [same])
    next unbracketed =>
      obtain ⟨⟨keys, behind⟩, named, found⟩ := Option.bind_eq_some_iff.mp read
      dsimp only at found
      split at found
      next later signed =>
        obtain ⟨⟨value, after⟩, given, made⟩ := Option.bind_eq_some_iff.mp found
        cases made
        refine .inr (.inr ⟨keys, behind, later, value, ?_, named, signed, given, rfl⟩)
        intro bracket
        obtain ⟨inner, same⟩ := List.head?_eq_some_iff.mp bracket
        exact unbracketed inner same
      next => cases found
  · rintro (⟨inner, keys, rfl, ⟨_, rfl, middle, named, closed⟩, rfl⟩ |
      ⟨inner, keys, rfl, single, ⟨_, rfl, middle, named, closed⟩, rfl⟩ |
      ⟨keys, behind, later, value, unbracketed, named, signed, given, rfl⟩)
    · simp [line?, named, closed]
    · unfold line?
      split
      next same =>
        cases same
        exact absurd rfl single
      next same =>
        cases same
        simp [named, closed]
      next _ plain => exact absurd rfl (plain inner)
    · unfold line?
      split
      next => exact absurd rfl unbracketed
      next => exact absurd rfl unbracketed
      next => simp [named, signed, given]

theorem line?_local (line : Line) (keys : KeyPath) (opens : line.opened? = some keys) :
    Local fun text rest => line? text = some (line, rest) := by
  intro text rest read
  rcases (line?_iff text rest line).mp read with
    ⟨inner, named, rfl, enclosed, rfl⟩ | ⟨inner, named, rfl, single, enclosed, rfl⟩ |
    ⟨_, _, _, _, _, _, _, _, rfl⟩
  · obtain ⟨front, rfl, again⟩ := encloses_local _ named inner rest enclosed
    refine ⟨'[' :: '[' :: front, rfl, fun other agree => ?_⟩
    exact (line?_iff _ _ _).mpr (.inl ⟨front ++ other, named, rfl, again other agree, rfl⟩)
  · obtain ⟨front, rfl, again⟩ := encloses_local _ named inner rest enclosed
    refine ⟨'[' :: front, rfl, fun other agree => ?_⟩
    rw [(agree.append front).head] at single
    exact (line?_iff _ _ _).mpr
      (.inr (.inl ⟨front ++ other, named, rfl, single, again other agree, rfl⟩))
  · cases opens

end Headers

end SchemaDefaults.Toml
