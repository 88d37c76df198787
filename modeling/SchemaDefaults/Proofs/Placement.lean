import SchemaDefaults.Proofs.DoubleQuotes
import SchemaDefaults.Proofs.ReadingRules
import SchemaDefaults.Proofs.TextEdits
/-!
Settings files with holes. The holes stand only between the double quotes of two settings, the
paths of the model and of the output. Such a file is spelled by the rules by which it is read,
and from the parts that they name. It reads the same for every word in the holes, up to these
two texts, as long as the word may stand between double quotes as it is.
-/

namespace SchemaDefaults.Toml

open Template

section Contents

/-- What is to stand in quotes for the path of the model and for that of the output. -/
structure Contents where
  model : Option Template
  output : Option Template

def filled (given : Option Template) (word : List Char) (text : String) : String :=
  match given with
  | some content => String.ofList (fill word content)
  | none => text

namespace Contents

variable (contents : Contents)

def at? (address : Address) : Option Template :=
  if address ∈ [[.key "input", .key "model"], [.key "input", .item 0]] then contents.model
  else if address ∈ [[.key "output", .key "path"], [.key "output", .item 0]] then
    contents.output
  else none

/-- At the two addresses stands what is given for them, and elsewhere no hole. -/
def Allows (address : Address) (content : Template) : Prop :=
  match contents.at? address with
  | some given => content = given
  | none => none ∉ content

def edit (word : List Char) : Edit := fun address => filled (contents.at? address) word

theorem edit_allowed (address : Address) (content : Template)
    (allowed : contents.Allows address content) (trial word : List Char) :
    contents.edit word address (String.ofList (fill trial content)) =
      String.ofList (fill word content) := by
  unfold Allows at allowed
  unfold edit filled
  cases given : contents.at? address with
  | some template =>
      rw [given] at allowed
      rw [allowed]
  | none =>
      rw [given] at allowed
      rw [fill_closed content allowed trial word]

theorem edit_gives (word : List Char) :
    SettingsFile.Gives (contents.edit word) (filled contents.model word)
      (filled contents.output word) :=
  ⟨⟨rfl, rfl⟩, ⟨rfl, rfl⟩, ⟨rfl, rfl⟩⟩

end Contents

end Contents

section Pieces

/-- A part of a template that has no holes, neither in it nor right behind it, and that a reader
takes from the front of the text with a trial word in the holes. -/
structure Piece (reading : List Char → List Char → Prop) (text rest : Template) : Prop where
  firm : Firm rest
  front : ∃ front, text = solid front ++ rest
  read : reading (fill ['x'] text) (fill ['x'] rest)

namespace Piece

variable {reading : List Char → List Char → Prop} {text rest : Template}

theorem reread (piece : Piece reading text rest) (locally : Local reading) (word : List Char) :
    reading (fill word text) (fill word rest) := by
  obtain ⟨front, rfl⟩ := piece.front
  obtain ⟨taken, same, again⟩ := locally _ _ piece.read
  rw [fill_front] at same ⊢
  rw [List.append_cancel_right same]
  exact again _ (piece.firm.agree ['x'] word)

theorem length_le (piece : Piece reading text rest) (word : List Char) :
    (fill word rest).length ≤ (fill word text).length := by
  obtain ⟨front, rfl⟩ := piece.front
  rw [fill_front, List.length_append]
  omega

theorem head_ne (piece : Piece reading text rest) : text.head? ≠ some none := by
  obtain ⟨_ | ⟨c, front⟩, rfl⟩ := piece.front
  · intro hole
    obtain ⟨later, rfl⟩ := List.head?_eq_some_iff.mp hole
    exact piece.firm
  · nofun

end Piece

end Pieces

section Grammar

/-- What a part of a file comes to with the trial word in the holes: a value, the items of an
array from an index on, or what becomes of a table by the pairs in braces. -/
inductive Part where
  | value (value : Value)
  | items (index : Nat) (items : List Value)
  | pairs (before after : Table)

variable (contents : Contents)

/-- A part of a file, at an address and with so many levels of nesting to spare, from its first
letter to the rest. -/
inductive Spelled : Part → Nat → Address → Template → Template → Prop where
  | scalar (levels : Nat) (address : Address) (text rest : Template) (scalar : Scalar)
      (word : Piece (fun text rest => Scalar.read? text = some (scalar, rest)) text rest) :
      Spelled (.value (.ofScalar scalar)) levels address text rest
  | quoted (levels : Nat) (address : Address) (text rest : Template) (content : String)
      (quotes : Piece (fun text rest => Quoted.read? text = some (content, rest)) text rest)
      (allowed : contents.Allows address (solid content.toList)) :
      Spelled (.value (.text content)) levels address text rest
  | basic (levels : Nat) (address : Address) (text content rest : Template)
      (body : Quoted.Body .text text content rest) (firm : Firm rest)
      (single : rest.head? ≠ some (some '"')) (allowed : contents.Allows address content) :
      Spelled (.value (.text (String.ofList (fill ['x'] content)))) levels address
        (some '"' :: text) rest
  | array (levels : Nat) (address : Address) (text start rest : Template) (items : List Value)
      (opened : Piece (Opening '[') text start)
      (inner : Spelled (.items 0 items) levels address start rest) :
      Spelled (.value (.array items)) (levels + 1) address text rest
  | braced (levels : Nat) (address : Address) (text start rest : Template) (table : Table)
      (opened : Piece (Opening '\x7b') text start)
      (inner : Spelled (.pairs (.empty .braced) table) levels address start rest) :
      Spelled (.value (.table table)) (levels + 1) address text rest
  | noItem (levels : Nat) (address : Address) (rest : Template) (index : Nat) :
      Spelled (.items index []) levels address (some ']' :: rest) rest
  | item (levels : Nat) (address : Address) (text behind start rest : Template) (index : Nat)
      (item : Value) (later : List Value)
      (first : Spelled (.value item) levels (address ++ [.item index]) text behind)
      (comma : Piece Comma behind start)
      (others : Spelled (.items (index + 1) later) levels address start rest) :
      Spelled (.items index (item :: later)) levels address text rest
  | lastItem (levels : Nat) (address : Address) (text behind rest : Template) (index : Nat)
      (item : Value)
      (first : Spelled (.value item) levels (address ++ [.item index]) text behind)
      (closed : Piece (Closing ']') behind rest) :
      Spelled (.items index [item]) levels address text rest
  | noPair (levels : Nat) (address : Address) (rest : Template) (table : Table) :
      Spelled (.pairs table table) levels address (some '\x7d' :: rest) rest
  | pair (levels : Nat) (address : Address) (text start behind again rest : Template)
      (keys : KeyPath) (value : Value) (before grown after : Table)
      (assigned : Piece (Assignment keys) text start)
      (first : Spelled (.value value) levels (address ++ keys.address) start behind)
      (added : before.addPair keys.path keys.key value = some grown)
      (comma : Piece Comma behind again)
      (others : Spelled (.pairs grown after) levels address again rest) :
      Spelled (.pairs before after) levels address text rest
  | lastPair (levels : Nat) (address : Address) (text start behind rest : Template)
      (keys : KeyPath) (value : Value) (before grown : Table)
      (assigned : Piece (Assignment keys) text start)
      (first : Spelled (.value value) levels (address ++ keys.address) start behind)
      (added : before.addPair keys.path keys.key value = some grown)
      (closed : Piece (Closing '\x7d') behind rest) :
      Spelled (.pairs before grown) levels address text rest

/-- The lines of a file from some place on, where pairs stand in the table at the address. -/
inductive SpelledLines : Address → Template → List Line → Prop where
  | done (address : Address) (text : Template)
      (gap : Piece (fun text rest => skipLines? text = some rest) text []) :
      SpelledLines address text []
  | header (address : Address) (text rest : Template) (line : Line) (keys : KeyPath)
      (lines : List Line) (opens : line.opened? = some keys)
      (header : Piece (HeaderLine line) text rest)
      (later : SpelledLines keys.address rest lines) :
      SpelledLines address text (line :: lines)
  | pair (address : Address) (text start behind rest : Template) (keys : KeyPath) (value : Value)
      (lines : List Line) (begun : Piece (PairLine keys) text start)
      (given : Spelled contents (.value value) depthLimit (address ++ keys.address) start behind)
      (ended : Piece (fun text rest => endLine? text = some rest) behind rest)
      (later : SpelledLines address rest lines) :
      SpelledLines address text (.pair keys value :: lines)

def unmarked : Template → Template
  | some '\ufeff' :: rest => rest
  | text => text

def Placed (text : Template) (lines : List Line) : Prop :=
  SpelledLines contents [] (unmarked text) lines

end Grammar

section Reading

variable {contents : Contents} (word : List Char)

theorem Spelled.length_le {part : Part} {levels : Nat} {address : Address}
    {text rest : Template} (spelled : Spelled contents part levels address text rest) :
    (fill word rest).length ≤ (fill word text).length := by
  induction spelled with
  | scalar levels address text rest scalar piece => exact piece.length_le word
  | quoted levels address text rest content piece allowed => exact piece.length_le word
  | basic levels address text content rest body firm single allowed =>
      exact Nat.le_succ_of_le (body.length_le word)
  | array levels address text start rest items opened inner ih =>
      have before := opened.length_le word
      omega
  | braced levels address text start rest table opened inner ih =>
      have before := opened.length_le word
      omega
  | noItem levels address rest index => simp [fill]
  | item levels address text behind start rest index item later first comma others ih more =>
      have between := comma.length_le word
      omega
  | lastItem levels address text behind rest index item first closed ih =>
      have after := closed.length_le word
      omega
  | noPair levels address rest table => simp [fill]
  | pair levels address text start behind again rest keys value table grown after assigned first
      added comma others ih more =>
      have before := assigned.length_le word
      have between := comma.length_le word
      omega
  | lastPair levels address text start behind rest keys value table grown assigned first added
      closed ih =>
      have before := assigned.length_le word
      have after := closed.length_le word
      omega

namespace Part

/-- The part as the reader comes to it, with the word in place of the trial one. -/
def Reads (contents : Contents) (word : List Char) (fuel levels : Nat) (address : Address)
    (text rest : Template) : Part → Prop
  | .value v =>
    valueFrom fuel levels (fill word text) =
      some (v.edited (contents.edit word) address, fill word rest)
  | .items index list =>
    itemsFrom fuel levels (fill word text) =
      some (editedItems (contents.edit word) address index list, fill word rest)
  | .pairs before after =>
    pairsFrom fuel levels (before.edited (contents.edit word) address) (fill word text) =
      some (after.edited (contents.edit word) address, fill word rest)

/-- One step leads to an item or a pair before its value is read. -/
def fuel (length : Nat) : Part → Nat
  | .value _ => 2 * length + 2
  | .items _ _ | .pairs _ _ => 2 * length + 3

end Part

theorem Spelled.reads {part : Part} {levels : Nat} {address : Address} {text rest : Template}
    (spelled : Spelled contents part levels address text rest)
    (plain : ∀ c ∈ word, isPlain c = true) (fuel : Nat)
    (enough : part.fuel (fill word text).length ≤ fuel) :
    part.Reads contents word fuel levels address text rest := by
  -- A value is read one step below its item, its pair or its bracket. The next item or pair is
  -- read one step below as well, behind a comma.
  induction spelled generalizing fuel with
  | scalar levels address text rest scalar piece =>
      obtain _ | fuel := fuel
      · cases enough
      have read := piece.reread (Scalar.read?_local scalar) word
      cases scalar <;> exact valueFrom_scalar _ read
  | quoted levels address text rest content piece allowed =>
      obtain _ | fuel := fuel
      · cases enough
      -- A text without holes says the same with any word.
      have same := contents.edit_allowed address _ allowed [] word
      rw [fill_solid, fill_solid, String.ofList_toList] at same
      rw [Part.Reads, Value.edited, same]
      exact valueFrom_quoted content (piece.reread (Quoted.read?_local content) word)
  | basic levels address text content rest body firm single allowed =>
      obtain _ | fuel := fuel
      · cases enough
      rw [Part.Reads, Value.edited, contents.edit_allowed address content allowed]
      exact valueFrom_quoted _ (body.read?_filled word plain firm single)
  | array levels address text start rest items opened inner ih =>
      obtain _ | fuel := fuel
      · cases enough
      have start := opened.reread (opening_local '[') word
      have shorter := opening_shorter start
      simp only [Part.fuel] at enough ih
      exact valueFrom_array _ start (ih fuel (by omega))
  | braced levels address text start rest table opened inner ih =>
      obtain _ | fuel := fuel
      · cases enough
      have start := opened.reread (opening_local '\x7b') word
      have shorter := opening_shorter start
      simp only [Part.fuel] at enough ih
      exact valueFrom_braced _ start (ih fuel (by omega))
  | noItem levels address rest index =>
      obtain _ | fuel := fuel
      · cases enough
      rfl
  | item levels address text behind start rest index item later first comma others ih more =>
      obtain _ | fuel := fuel
      · cases enough
      have between := comma.reread comma_local word
      have shorter := comma_shorter between
      have consumed := first.length_le word
      simp only [Part.fuel] at enough ih more
      exact itemsFrom_more _ _ (ih fuel (by omega)) between (more fuel (by omega))
  | lastItem levels address text behind rest index item first closed ih =>
      obtain _ | fuel := fuel
      · cases enough
      simp only [Part.fuel] at enough ih
      exact itemsFrom_last _ (ih fuel (by omega)) (closed.reread (closing_local ']') word)
  | noPair levels address rest table =>
      obtain _ | fuel := fuel
      · cases enough
      rfl
  | pair levels address text start behind again rest keys value table grown after assigned first
      added comma others ih more =>
      obtain _ | fuel := fuel
      · cases enough
      have before := assigned.reread (assignment_local keys) word
      have named := assignment_shorter before
      have between := comma.reread comma_local word
      have shorter := comma_shorter between
      have consumed := first.length_le word
      have grows := Table.addPair_edited (contents.edit word) address keys value table
      rw [added] at grows
      simp only [Part.fuel] at enough ih more
      exact pairsFrom_more keys _ _ _ _ before (ih fuel (by omega)) grows between
        (more fuel (by omega))
  | lastPair levels address text start behind rest keys value table grown assigned first added
      closed ih =>
      obtain _ | fuel := fuel
      · cases enough
      have before := assigned.reread (assignment_local keys) word
      have named := assignment_shorter before
      have grows := Table.addPair_edited (contents.edit word) address keys value table
      rw [added] at grows
      simp only [Part.fuel] at enough ih
      exact pairsFrom_last keys _ _ _ before (ih fuel (by omega)) grows
        (closed.reread (closing_local '\x7d') word)

theorem SpelledLines.reads {address : Address} {text : Template} {lines : List Line}
    (spelled : SpelledLines contents address text lines)
    (plain : ∀ c ∈ word, isPlain c = true) (fuel : Nat)
    (enough : (fill word text).length < fuel) :
    linesFrom fuel (fill word text) = some (editedLines (contents.edit word) address lines) := by
  induction spelled generalizing fuel with
  | done address text gap =>
      obtain _ | fuel := fuel
      · cases enough
      exact linesFrom_done (gap.reread skipLines_local word)
  | header address text rest line keys lines opens header later ih =>
      obtain _ | fuel := fuel
      · cases enough
      have read := header.reread (headerLine_local line keys opens) word
      have shorter := headerLine_shorter opens read
      have others := ih fuel (by omega)
      cases line with
      | pair => cases opens
      | header | nextHeader =>
          cases opens
          exact linesFrom_header _ _ read others
  | pair address text start behind rest keys value lines begun given ended later ih =>
      obtain _ | fuel := fuel
      · cases enough
      have read := begun.reread (pairLine_local keys) word
      have shorter := pairLine_shorter read
      have consumed := given.length_le word
      have after := ended.length_le word
      exact linesFrom_pair keys _ _ read (given.reads word plain _ (Nat.le_refl _))
        (ended.reread endLine_local word) (ih fuel (by omega))

theorem SpelledLines.head_ne {address : Address} {text : Template} {lines : List Line}
    (spelled : SpelledLines contents address text lines) : text.head? ≠ some none := by
  cases spelled with
  | done _ _ gap => exact gap.head_ne
  | header _ _ _ _ _ _ _ header _ => exact header.head_ne
  | pair _ _ _ _ _ _ _ _ begun _ _ _ => exact begun.head_ne

theorem Placed.reads {text : Template} {lines : List Line} (placed : Placed contents text lines)
    (plain : ∀ c ∈ word, isPlain c = true) :
    lines? (fill word text) = some (editedLines (contents.edit word) [] lines) := by
  have mark : withoutMark (fill word text) = fill word (unmarked text) := by
    rcases text with _ | ⟨_ | c, text⟩
    · rfl
    · exact absurd rfl placed.head_ne
    · by_cases marked : c = '\ufeff'
      · subst marked
        rfl
      · simp [unmarked, withoutMark, fill, marked]
  have shorter : (withoutMark (fill word text)).length ≤ (fill word text).length := by
    unfold withoutMark
    split
    next same => simp [same]
    next => exact Nat.le_refl _
  unfold lines?
  rw [mark] at shorter ⊢
  exact SpelledLines.reads word placed plain _ (Nat.lt_succ_of_le shorter)

end Reading

section Lines

theorem SpelledLines.basicLine (contents : Contents) (address : Address) (keys : KeyPath)
    (start : List Char) (text content rest : Template) (lines : List Line)
    (begun : PairLine keys (start ++ ['"']) ['"'])
    (body : Quoted.Body .text text content (some '\n' :: rest)) (firm : Firm rest)
    (allowed : contents.Allows (address ++ keys.address) content)
    (later : SpelledLines contents address rest lines) :
    SpelledLines contents address (solid start ++ some '"' :: text)
      (.pair keys (.text (String.ofList (fill ['x'] content))) :: lines) := by
  have opened : PairLine keys (fill ['x'] (solid start ++ some '"' :: text))
      (fill ['x'] (some '"' :: text)) := by
    obtain ⟨front, same, again⟩ := pairLine_local keys _ _ begun
    cases List.append_cancel_right same
    rw [fill_front]
    exact again _ ⟨rfl, nofun⟩
  exact .pair address _ (some '"' :: text) (some '\n' :: rest) rest keys _ lines
    ⟨nofun, ⟨start, rfl⟩, opened⟩
    (.basic _ _ text content _ body nofun nofun allowed)
    ⟨firm, ⟨['\n'], rfl⟩, rfl⟩ later

end Lines

section Solid

def Contents.none : Contents := ⟨.none, .none⟩

theorem Contents.none_allows (address : Address) (text : List Char) :
    none.Allows address (solid text) := by
  have unset : none.at? address = .none := by
    unfold at? none
    split
    · rfl
    · split <;> rfl
  rw [Allows, unset]
  simp [solid]

theorem firm_solid (text : List Char) : Firm (solid text) := by
  rcases text with _ | ⟨c, _ | ⟨d, text⟩⟩
  · trivial
  · nofun
  · nofun

theorem Piece.of_local {reading : List Char → List Char → Prop} (locally : Local reading)
    {text rest : List Char} (read : reading text rest) :
    Piece reading (solid text) (solid rest) := by
  obtain ⟨front, rfl, _⟩ := locally text rest read
  refine ⟨firm_solid rest, ⟨front, List.map_append⟩, ?_⟩
  rw [fill_solid, fill_solid]
  exact read

/-- Whatever the reader reads is spelled. -/
theorem Spelled.of_read (fuel : Nat) :
    (∀ levels address text rest value, valueFrom fuel levels text = some (value, rest) →
      Spelled .none (.value value) levels address (solid text) (solid rest)) ∧
    (∀ levels address text rest index items,
      itemsFrom fuel levels text = some (items, rest) →
        Spelled .none (.items index items) levels address (solid text) (solid rest)) ∧
    ∀ levels address text rest before after,
      pairsFrom fuel levels before text = some (after, rest) →
        Spelled .none (.pairs before after) levels address (solid text) (solid rest) := by
  induction fuel with
  | zero => exact ⟨nofun, nofun, nofun⟩
  | succ fuel ih =>
      obtain ⟨values, items, pairs⟩ := ih
      refine ⟨?_, ?_, ?_⟩
      · intro levels address text rest value read
        rcases (valueFrom_iff fuel levels text rest value).mp read with
          ⟨scalar, found, rfl⟩ | ⟨content, found, rfl⟩ |
          ⟨lower, start, rfl, ⟨inner, opened, found, rfl⟩ | ⟨table, opened, found, rfl⟩⟩
        · exact .scalar _ _ _ _ scalar (.of_local (Scalar.read?_local scalar) found)
        · exact .quoted _ _ _ _ content (.of_local (Quoted.read?_local content) found)
            (Contents.none_allows _ _)
        · exact .array _ _ _ (solid start) _ inner (.of_local (opening_local '[') opened)
            (items _ _ _ _ _ _ found)
        · exact .braced _ _ _ (solid start) _ table (.of_local (opening_local '\x7b') opened)
            (pairs _ _ _ _ _ _ found)
      · intro levels address text rest index list read
        rcases (itemsFrom_iff fuel levels text rest list).mp read with ⟨rfl, rfl⟩ |
          ⟨item, behind, first, ⟨start, later, comma, others, rfl⟩ | ⟨closed, rfl⟩⟩
        · exact .noItem _ _ _ _
        · exact .item _ _ _ (solid behind) (solid start) _ _ item later
            (values _ _ _ _ _ first) (.of_local comma_local comma) (items _ _ _ _ _ _ others)
        · exact .lastItem _ _ _ (solid behind) _ _ item (values _ _ _ _ _ first)
            (.of_local (closing_local ']') closed)
      · intro levels address text rest before after read
        rcases (pairsFrom_iff fuel levels text rest before after).mp read with ⟨rfl, rfl⟩ |
          ⟨keys, start, value, behind, grown, assigned, first, added,
            ⟨again, comma, others⟩ | ⟨closed, rfl⟩⟩
        · exact .noPair _ _ _ _
        · exact .pair _ _ _ (solid start) (solid behind) (solid again) _ keys value _ grown _
            (.of_local (assignment_local keys) assigned) (values _ _ _ _ _ first) added
            (.of_local comma_local comma) (pairs _ _ _ _ _ _ others)
        · exact .lastPair _ _ _ (solid start) (solid behind) _ keys value _ _
            (.of_local (assignment_local keys) assigned) (values _ _ _ _ _ first) added
            (.of_local (closing_local '\x7d') closed)

theorem SpelledLines.of_read (fuel : Nat) (address : Address) (text : List Char)
    (lines : List Line) (read : linesFrom fuel text = some lines) :
    SpelledLines .none address (solid text) lines := by
  induction fuel generalizing address text lines with
  | zero => cases read
  | succ fuel ih =>
      rcases (linesFrom_iff lines).mp read with ⟨skipped, rfl⟩ |
        ⟨start, line, behind, rest, later, skipped, first, ended, others, rfl⟩
      · exact .done _ _ (.of_local skipLines_local skipped)
      · cases opens : line.opened? with
        | some keys =>
            exact .header _ _ (solid rest) line keys later opens
              (.of_local (headerLine_local line keys opens) ⟨start, skipped, behind, first, ended⟩)
              (ih _ _ _ others)
        | none =>
            rcases (line?_iff _ _ _).mp first with ⟨_, _, _, _, rfl⟩ | ⟨_, _, _, _, _, rfl⟩ |
              ⟨keys, middle, after, value, _, named, signed, given, rfl⟩
            · cases opens
            · cases opens
            · exact .pair _ _ _ (solid behind) (solid rest) keys value later
                (.of_local (pairLine_local keys)
                  ⟨start, skipped, middle, named, after, signed, rfl⟩)
                ((Spelled.of_read _).1 _ _ _ _ value given) (.of_local endLine_local ended)
                (ih _ _ _ others)

theorem Placed.of_read (text : List Char) (lines : List Line) (read : lines? text = some lines) :
    Placed .none (solid text) lines := by
  have mark : unmarked (solid text) = solid (withoutMark text) := by
    cases text with
    | nil => rfl
    | cons c text =>
        by_cases marked : c = '\ufeff'
        · subst marked
          rfl
        · simp [unmarked, withoutMark, solid, marked]
  rw [Placed, mark]
  exact SpelledLines.of_read _ _ _ lines read

end Solid

end SchemaDefaults.Toml
