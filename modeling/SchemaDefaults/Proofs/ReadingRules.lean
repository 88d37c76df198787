import SchemaDefaults.Proofs.Lookahead
/-!
The rules by which a settings file is read. Each says from what parts a value, the items of an
array, the pairs in braces or the lines are read, and which readers stand between the parts. All
of these are local. Fuel is enough where it is twice the length of the text.
-/

namespace SchemaDefaults.Toml

section Between

def Opening (c : Char) (text rest : List Char) : Prop :=
  ∃ inner, text = c :: inner ∧ skipLines? inner = some rest

def Closing (c : Char) (text rest : List Char) : Prop := skipLines? text = some (c :: rest)

def Comma (text rest : List Char) : Prop :=
  ∃ later, Closing ',' text later ∧ skipLines? later = some rest

/-- The keys before a value, and the equals sign. -/
def Assignment (keys : KeyPath) (text rest : List Char) : Prop :=
  ∃ behind, keyPath? text = some (keys, behind) ∧
    ∃ later, skipBlanks behind = '=' :: later ∧ skipBlanks later = rest

/-- A line up to its value. -/
def PairLine (keys : KeyPath) (text rest : List Char) : Prop :=
  ∃ start, skipLines? text = some start ∧ Assignment keys start rest

def HeaderLine (line : Line) (text rest : List Char) : Prop :=
  ∃ start, skipLines? text = some start ∧
    ∃ behind, line? start = some (line, behind) ∧ endLine? behind = some rest

theorem opening_local (c : Char) : Local (Opening c) := by
  rintro text rest ⟨inner, rfl, skipped⟩
  obtain ⟨front, rfl, again⟩ := skipLines_local inner rest skipped
  exact ⟨c :: front, rfl, fun other agree => ⟨front ++ other, rfl, again other agree⟩⟩

theorem closing_local (c : Char) : Local (Closing c) := skipLines_local.leaving [c]

theorem comma_local : Local Comma := (closing_local ',').comp skipLines_local

theorem assignment_local (keys : KeyPath) : Local (Assignment keys) :=
  (keyPath?_local keys).comp ((skipBlanks_local.leaving ['=']).comp skipBlanks_local)

theorem pairLine_local (keys : KeyPath) : Local (PairLine keys) :=
  skipLines_local.comp (assignment_local keys)

theorem headerLine_local (line : Line) (keys : KeyPath) (opens : line.opened? = some keys) :
    Local (HeaderLine line) :=
  skipLines_local.comp ((line?_local line keys opens).comp endLine_local)

variable {text rest : List Char}

theorem opening_shorter {c : Char} (opened : Opening c text rest) :
    rest.length < text.length := by
  obtain ⟨inner, rfl, skipped⟩ := opened
  exact Nat.lt_succ_of_le (skipLines_local.length_le skipped)

theorem closing_shorter {c : Char} (closed : Closing c text rest) :
    rest.length < text.length := by
  have left : (c :: rest).length ≤ text.length := skipLines_local.length_le closed
  exact left

theorem comma_shorter (comma : Comma text rest) : rest.length < text.length := by
  obtain ⟨later, closed, skipped⟩ := comma
  exact Nat.lt_of_le_of_lt (skipLines_local.length_le skipped) (closing_shorter closed)

theorem assignment_shorter {keys : KeyPath} (assigned : Assignment keys text rest) :
    rest.length < text.length := by
  obtain ⟨behind, named, later, signed, skipped⟩ := assigned
  have first := (keyPath?_local keys).length_le named
  have second := skipBlanks_local.length_le signed
  have third := skipBlanks_local.length_le skipped
  rw [List.length_cons] at second
  omega

theorem pairLine_shorter {keys : KeyPath} (begun : PairLine keys text rest) :
    rest.length < text.length := by
  obtain ⟨start, skipped, assigned⟩ := begun
  exact Nat.lt_of_lt_of_le (assignment_shorter assigned) (skipLines_local.length_le skipped)

theorem headerLine_shorter {line : Line} {keys : KeyPath} (opens : line.opened? = some keys)
    (header : HeaderLine line text rest) : rest.length < text.length := by
  obtain ⟨start, skipped, behind, read, ended⟩ := header
  have first := skipLines_local.length_le skipped
  have last := endLine_local.length_le ended
  have between : behind.length < start.length := by
    rcases (line?_iff _ _ _).mp read with ⟨inner, keys, rfl, enclosed, _⟩ |
      ⟨inner, keys, rfl, _, enclosed, _⟩ | ⟨_, _, _, _, _, _, _, _, rfl⟩
    · have inside := (encloses_local _ keys).length_le enclosed
      simp only [List.length_cons]
      omega
    · have inside := (encloses_local _ keys).length_le enclosed
      simp only [List.length_cons]
      omega
    · cases opens
  omega

end Between

section Values

variable {fuel levels : Nat} {text start behind later rest : List Char}

theorem valueFrom_scalar (scalar : Scalar) (read : Scalar.read? text = some (scalar, rest)) :
    valueFrom (fuel + 1) levels text = some (.ofScalar scalar, rest) := by
  cases text with
  | nil => cases read
  | cons c text =>
      have inWord := Scalar.read?_head scalar c text rest read
      unfold valueFrom
      split
      next same =>
        cases same
        cases inWord
      next same =>
        cases same
        cases inWord
      next same =>
        cases same
        cases inWord
      next same =>
        cases same
        cases inWord
      next => simp [read]

theorem valueFrom_quoted (content : String) (read : Quoted.read? text = some (content, rest)) :
    valueFrom (fuel + 1) levels text = some (.text content, rest) := by
  unfold valueFrom
  split
  next => cases read
  next => cases read
  next => simp [read]
  next => simp [read]
  next _ _ double single =>
    unfold Quoted.read? at read
    split at read
    · exact (double _ rfl).elim
    · exact (double _ rfl).elim
    · exact (single _ rfl).elim
    · exact (single _ rfl).elim
    · cases read

theorem valueFrom_array (items : List Value) (opened : Opening '[' text start)
    (read : itemsFrom fuel levels start = some (items, rest)) :
    valueFrom (fuel + 1) (levels + 1) text = some (.array items, rest) := by
  obtain ⟨inner, rfl, skipped⟩ := opened
  simp [valueFrom, skipped, read]

theorem valueFrom_braced (table : Table) (opened : Opening '\x7b' text start)
    (read : pairsFrom fuel levels (.empty .braced) start = some (table, rest)) :
    valueFrom (fuel + 1) (levels + 1) text = some (.table table, rest) := by
  obtain ⟨inner, rfl, skipped⟩ := opened
  simp [valueFrom, skipped, read]

theorem valueFrom_bracket (fuel levels : Nat) (text : List Char) :
    valueFrom fuel levels (']' :: text) = none := by
  cases fuel with
  | zero => rfl
  | succ fuel =>
      have unread : Scalar.read? (']' :: text) = none := by
        cases read : Scalar.read? (']' :: text) with
        | none => rfl
        | some found => cases Scalar.read?_head found.1 ']' text found.2 read
      simp [valueFrom, unread]

theorem itemsFrom_value (item : Value) (read : valueFrom fuel levels text = some (item, behind)) :
    itemsFrom (fuel + 1) levels text = (do
      match ← skipLines? behind with
      | ',' :: rest => do
        let (later, rest) ← itemsFrom fuel levels (← skipLines? rest)
        return (item :: later, rest)
      | ']' :: rest => return ([item], rest)
      | _ => none) := by
  conv => lhs; unfold itemsFrom
  split
  next bracketed =>
    -- A closing bracket begins no value.
    rw [valueFrom_bracket] at read
    cases read
  next =>
    rw [read]
    rfl

theorem itemsFrom_more (item : Value) (later : List Value)
    (first : valueFrom fuel levels text = some (item, behind)) (comma : Comma behind start)
    (read : itemsFrom fuel levels start = some (later, rest)) :
    itemsFrom (fuel + 1) levels text = some (item :: later, rest) := by
  obtain ⟨behind, closed, skipped⟩ := comma
  rw [Closing] at closed
  simp [itemsFrom_value item first, closed, skipped, read]

theorem itemsFrom_last (item : Value) (first : valueFrom fuel levels text = some (item, behind))
    (closed : Closing ']' behind rest) :
    itemsFrom (fuel + 1) levels text = some ([item], rest) := by
  rw [Closing] at closed
  simp [itemsFrom_value item first, closed]

theorem pairsFrom_value (keys : KeyPath) (value : Value) (before grown : Table)
    (assigned : Assignment keys text start)
    (read : valueFrom fuel levels start = some (value, behind))
    (added : before.addPair keys.path keys.key value = some grown) :
    pairsFrom (fuel + 1) levels before text = (do
      match ← skipLines? behind with
      | ',' :: rest => do pairsFrom fuel levels grown (← skipLines? rest)
      | '\x7d' :: rest => return (grown, rest)
      | _ => none) := by
  obtain ⟨after, named, later, signed, rfl⟩ := assigned
  conv => lhs; unfold pairsFrom
  split
  next braced =>
    -- A closing brace begins no key.
    rcases keyPath?_head _ _ _ keys named with same | same | same <;> cases same
  next =>
    rw [named]
    simp only [Option.bind_eq_bind, Option.bind_some, signed, read]
    rw [added]
    rfl

theorem pairsFrom_more (keys : KeyPath) (value : Value) (before grown table : Table)
    (assigned : Assignment keys text start)
    (first : valueFrom fuel levels start = some (value, behind))
    (added : before.addPair keys.path keys.key value = some grown) (comma : Comma behind later)
    (read : pairsFrom fuel levels grown later = some (table, rest)) :
    pairsFrom (fuel + 1) levels before text = some (table, rest) := by
  obtain ⟨behind, closed, skipped⟩ := comma
  rw [Closing] at closed
  simp [pairsFrom_value keys value before grown assigned first added, closed, skipped, read]

theorem pairsFrom_last (keys : KeyPath) (value : Value) (before grown : Table)
    (assigned : Assignment keys text start)
    (first : valueFrom fuel levels start = some (value, behind))
    (added : before.addPair keys.path keys.key value = some grown)
    (closed : Closing '\x7d' behind rest) :
    pairsFrom (fuel + 1) levels before text = some (grown, rest) := by
  rw [Closing] at closed
  simp [pairsFrom_value keys value before grown assigned first added, closed]

theorem valueFrom_iff (fuel levels : Nat) (text rest : List Char) (value : Value) :
    valueFrom (fuel + 1) levels text = some (value, rest) ↔
      (∃ scalar, Scalar.read? text = some (scalar, rest) ∧ value = .ofScalar scalar) ∨
      (∃ content, Quoted.read? text = some (content, rest) ∧ value = .text content) ∨
      ∃ lower start, levels = lower + 1 ∧
        ((∃ items, Opening '[' text start ∧ itemsFrom fuel lower start = some (items, rest) ∧
            value = .array items) ∨
          ∃ table, Opening '\x7b' text start ∧
            pairsFrom fuel lower (.empty .braced) start = some (table, rest) ∧
            value = .table table) := by
  constructor
  · intro read
    unfold valueFrom at read
    split at read
    next inner =>
      cases levels with
      | zero => simp at read
      | succ lower =>
          simp only [Nat.add_one_ne_zero, ↓reduceIte, Option.bind_eq_bind,
            Option.bind_eq_some_iff, Prod.exists] at read
          obtain ⟨start, skipped, items, after, found, made⟩ := read
          cases made
          exact .inr (.inr ⟨lower, start, rfl, .inl ⟨items, ⟨inner, rfl, skipped⟩, found, rfl⟩⟩)
    next inner =>
      cases levels with
      | zero => simp at read
      | succ lower =>
          simp only [Nat.add_one_ne_zero, ↓reduceIte, Option.bind_eq_bind,
            Option.bind_eq_some_iff, Prod.exists] at read
          obtain ⟨start, skipped, table, after, found, made⟩ := read
          cases made
          exact .inr (.inr ⟨lower, start, rfl, .inr ⟨table, ⟨inner, rfl, skipped⟩, found, rfl⟩⟩)
    next =>
      simp only [Option.bind_eq_bind, Option.bind_eq_some_iff, Prod.exists] at read
      obtain ⟨content, after, found, made⟩ := read
      cases made
      exact .inr (.inl ⟨content, found, rfl⟩)
    next =>
      simp only [Option.bind_eq_bind, Option.bind_eq_some_iff, Prod.exists] at read
      obtain ⟨content, after, found, made⟩ := read
      cases made
      exact .inr (.inl ⟨content, found, rfl⟩)
    next =>
      simp only [Option.bind_eq_bind, Option.bind_eq_some_iff, Prod.exists] at read
      obtain ⟨scalar, after, found, made⟩ := read
      cases made
      exact .inl ⟨scalar, found, rfl⟩
  · rintro (⟨scalar, found, rfl⟩ | ⟨content, found, rfl⟩ |
      ⟨lower, start, rfl, ⟨items, opened, found, rfl⟩ | ⟨table, opened, found, rfl⟩⟩)
    · exact valueFrom_scalar scalar found
    · exact valueFrom_quoted content found
    · exact valueFrom_array items opened found
    · exact valueFrom_braced table opened found

theorem itemsFrom_iff (fuel levels : Nat) (text rest : List Char) (items : List Value) :
    itemsFrom (fuel + 1) levels text = some (items, rest) ↔
      (text = ']' :: rest ∧ items = []) ∨
      ∃ item behind, valueFrom fuel levels text = some (item, behind) ∧
        ((∃ start later, Comma behind start ∧ itemsFrom fuel levels start = some (later, rest) ∧
            items = item :: later) ∨
          (Closing ']' behind rest ∧ items = [item])) := by
  constructor
  · intro read
    unfold itemsFrom at read
    split at read
    · cases read
      exact .inl ⟨rfl, rfl⟩
    · refine .inr ?_
      simp only [Option.bind_eq_bind, Option.bind_eq_some_iff, Prod.exists] at read
      obtain ⟨item, behind, first, between, skipped, read⟩ := read
      refine ⟨item, behind, first, ?_⟩
      split at read
      · simp only [Option.bind_eq_some_iff, Prod.exists] at read
        obtain ⟨start, again, later, after, others, made⟩ := read
        cases made
        exact .inl ⟨start, later, ⟨_, skipped, again⟩, others, rfl⟩
      · cases read
        exact .inr ⟨skipped, rfl⟩
      · cases read
  · rintro (⟨rfl, rfl⟩ | ⟨item, behind, first, ⟨start, later, comma, others, rfl⟩ | ⟨closed, rfl⟩⟩)
    · rfl
    · exact itemsFrom_more item later first comma others
    · exact itemsFrom_last item first closed

theorem pairsFrom_iff (fuel levels : Nat) (text rest : List Char) (before after : Table) :
    pairsFrom (fuel + 1) levels before text = some (after, rest) ↔
      (text = '\x7d' :: rest ∧ after = before) ∨
      ∃ keys start value behind grown, Assignment keys text start ∧
        valueFrom fuel levels start = some (value, behind) ∧
        before.addPair keys.path keys.key value = some grown ∧
        ((∃ again, Comma behind again ∧
            pairsFrom fuel levels grown again = some (after, rest)) ∨
          (Closing '\x7d' behind rest ∧ after = grown)) := by
  constructor
  · intro read
    unfold pairsFrom at read
    split at read
    · cases read
      exact .inl ⟨rfl, rfl⟩
    · refine .inr ?_
      simp only [Option.bind_eq_bind, Option.bind_eq_some_iff, Prod.exists] at read
      obtain ⟨keys, middle, named, read⟩ := read
      split at read
      next later signed =>
        simp only [Option.bind_eq_some_iff, Prod.exists] at read
        obtain ⟨value, behind, first, grown, added, between, skipped, read⟩ := read
        refine ⟨keys, _, value, behind, grown, ⟨middle, named, later, signed, rfl⟩, first, added,
          ?_⟩
        split at read
        · simp only [Option.bind_eq_some_iff] at read
          obtain ⟨again, skippedAgain, others⟩ := read
          exact .inl ⟨again, ⟨_, skipped, skippedAgain⟩, others⟩
        · cases read
          exact .inr ⟨skipped, rfl⟩
        · cases read
      next => cases read
  · rintro (⟨rfl, rfl⟩ | ⟨keys, start, value, behind, grown, assigned, first, added,
      ⟨again, comma, others⟩ | ⟨closed, rfl⟩⟩)
    · rfl
    · exact pairsFrom_more keys value before grown after assigned first added comma others
    · exact pairsFrom_last keys value before after assigned first added closed

end Values

section Lines

variable {fuel : Nat} {text start behind rest : List Char}

theorem linesFrom_done (skipped : skipLines? text = some []) :
    linesFrom (fuel + 1) text = some [] := by
  simp [linesFrom, skipped]

theorem linesFrom_line (line : Line) (lines : List Line) (skipped : skipLines? text = some start)
    (first : line? start = some (line, behind)) (ended : endLine? behind = some rest)
    (read : linesFrom fuel rest = some lines) :
    linesFrom (fuel + 1) text = some (line :: lines) := by
  cases start with
  | nil => cases first
  | cons c start => simp [linesFrom, skipped, first, ended, read]

theorem linesFrom_header (line : Line) (lines : List Line) (header : HeaderLine line text rest)
    (read : linesFrom fuel rest = some lines) :
    linesFrom (fuel + 1) text = some (line :: lines) := by
  obtain ⟨start, skipped, behind, first, ended⟩ := header
  exact linesFrom_line line lines skipped first ended read

theorem linesFrom_pair (keys : KeyPath) (value : Value) (lines : List Line)
    (begun : PairLine keys text start) (given : value? start = some (value, behind))
    (ended : endLine? behind = some rest) (read : linesFrom fuel rest = some lines) :
    linesFrom (fuel + 1) text = some (.pair keys value :: lines) := by
  obtain ⟨first, skipped, after, named, later, signed, rfl⟩ := begun
  refine linesFrom_line (.pair keys value) lines skipped ?_ ended read
  refine (line?_iff _ _ _).mpr
    (.inr (.inr ⟨keys, after, later, value, ?_, named, signed, given, rfl⟩))
  intro bracket
  obtain ⟨inner, rfl⟩ := List.head?_eq_some_iff.mp bracket
  rcases keyPath?_head _ _ _ keys named with same | same | same <;> cases same

theorem linesFrom_iff (lines : List Line) :
    linesFrom (fuel + 1) text = some lines ↔
      (skipLines? text = some [] ∧ lines = []) ∨
      ∃ start line behind rest later, skipLines? text = some start ∧
        line? start = some (line, behind) ∧ endLine? behind = some rest ∧
        linesFrom fuel rest = some later ∧ lines = line :: later := by
  constructor
  · intro read
    simp only [linesFrom, Option.bind_eq_bind, Option.bind_eq_some_iff] at read
    obtain ⟨start, skipped, read⟩ := read
    split at read
    · cases read
      exact .inl ⟨skipped, rfl⟩
    · simp only [Option.bind_eq_some_iff, Prod.exists] at read
      obtain ⟨line, behind, first, rest, ended, later, others, made⟩ := read
      cases made
      exact .inr ⟨start, line, behind, rest, later, skipped, first, ended, others, rfl⟩
  · rintro (⟨skipped, rfl⟩ | ⟨start, line, behind, rest, later, skipped, first, ended, others, rfl⟩)
    · exact linesFrom_done skipped
    · exact linesFrom_line line later skipped first ended others

end Lines

end SchemaDefaults.Toml
