import SchemaDefaults.Toml.Scalar
import SchemaDefaults.Toml.Table
/-!
Settings files as texts. A text is read into lines first, each a header or a key with its value,
and the lines are then laid into the root table. Only whether a text is well-formed and what it
says is kept, so every fault is the same.
-/

namespace SchemaDefaults.Toml

section Gaps

inductive Gap where
  | blank
  | comment
  | carriageReturn
deriving DecidableEq, Repr

/-- Skips blanks and comments; behind a value on a line, to the end of that line and over
nothing else, and otherwise over any number of lines. -/
def skipGap (lineOnly : Bool) : Gap → List Char → Option (List Char)
  | gap, [] => if gap = .carriageReturn then none else some []
  | gap, c :: rest =>
    if c = '\n' then if lineOnly then some rest else skipGap lineOnly .blank rest
    else match gap with
      | .carriageReturn => none
      | .comment =>
        if c = '\r' then skipGap lineOnly .carriageReturn rest
        else if isLineChar c then skipGap lineOnly .comment rest
        else none
      | .blank =>
        if isBlank c then skipGap lineOnly .blank rest
        else if c = '#' then skipGap lineOnly .comment rest
        else if c = '\r' then skipGap lineOnly .carriageReturn rest
        else if lineOnly then none
        else some (c :: rest)

def skipLines? : List Char → Option (List Char) := skipGap false .blank

def endLine? : List Char → Option (List Char) := skipGap true .blank

def skipBlanks : List Char → List Char := List.dropWhile isBlank

end Gaps

section Keys

structure KeyPath where
  path : List String
  key : String
deriving DecidableEq, Repr

def isBareChar (c : Char) : Bool := c.isAlphanum || c == '-' || c == '_'

def key? : List Char → Option (String × List Char)
  | '"' :: rest => Quoted.readLine .basic rest
  | '\'' :: rest => Quoted.readLine .verbatim rest
  | text =>
    let bare := text.takeWhile isBareChar
    if bare.isEmpty then none else some (String.ofList bare, text.dropWhile isBareChar)

def keyPathFrom : Nat → List Char → Option (KeyPath × List Char)
  | 0, _ => none
  | fuel + 1, text => do
    let (key, rest) ← key? text
    match skipBlanks rest with
    | '.' :: rest => do
      let (later, rest) ← keyPathFrom fuel (skipBlanks rest)
      return (⟨key :: later.path, later.key⟩, rest)
    | rest => return (⟨[], key⟩, rest)

def keyPath? (text : List Char) : Option (KeyPath × List Char) :=
  -- Every key takes at least one character, so the fuel does not run out.
  keyPathFrom (text.length + 1) text

end Keys

section Values

def depthLimit : Nat := 79

def Value.ofScalar : Scalar → Value
  | .bool value => .bool value
  | .number readable => .number readable
  | .moment => .moment

mutual

def valueFrom : Nat → Nat → List Char → Option (Value × List Char)
  | 0, _, _ => none
  | fuel + 1, levels, text =>
    match text with
    | '[' :: rest => do
      if levels = 0 then none
      let (items, rest) ← itemsFrom fuel (levels - 1) (← skipLines? rest)
      return (.array items, rest)
    | '\x7b' :: rest => do
      if levels = 0 then none
      let (table, rest) ←
        pairsFrom fuel (levels - 1) (Table.empty .braced) (← skipLines? rest)
      return (.table table, rest)
    | '"' :: _ | '\'' :: _ => do
      let (content, rest) ← Quoted.read? text
      return (.text content, rest)
    | _ => do
      let (scalar, rest) ← Scalar.read? text
      return (.ofScalar scalar, rest)

def itemsFrom : Nat → Nat → List Char → Option (List Value × List Char)
  | 0, _, _ => none
  | fuel + 1, levels, text =>
    match text with
    | ']' :: rest => some ([], rest)
    | _ => do
      let (item, rest) ← valueFrom fuel levels text
      match ← skipLines? rest with
      | ',' :: rest => do
        let (later, rest) ← itemsFrom fuel levels (← skipLines? rest)
        return (item :: later, rest)
      | ']' :: rest => return ([item], rest)
      | _ => none

def pairsFrom : Nat → Nat → Table → List Char → Option (Table × List Char)
  | 0, _, _, _ => none
  | fuel + 1, levels, table, text =>
    match text with
    | '\x7d' :: rest => some (table, rest)
    | _ => do
      let (keys, rest) ← keyPath? text
      match skipBlanks rest with
      | '=' :: rest => do
        let (value, rest) ← valueFrom fuel levels (skipBlanks rest)
        let table ← table.addPair keys.path keys.key value
        match ← skipLines? rest with
        | ',' :: rest => do pairsFrom fuel levels table (← skipLines? rest)
        | '\x7d' :: rest => return (table, rest)
        | _ => none
      | _ => none

end

/-- Each level of nesting takes a character and two steps, so twice the length of the text is
fuel enough. -/
def value? (text : List Char) : Option (Value × List Char) :=
  valueFrom (2 * text.length + 2) depthLimit text

end Values

section Lines

inductive Line where
  | header (keys : KeyPath)
  | nextHeader (keys : KeyPath)
  | pair (keys : KeyPath) (value : Value)

def line? : List Char → Option (Line × List Char)
  | '[' :: '[' :: rest => do
    let (keys, rest) ← keyPath? (skipBlanks rest)
    match skipBlanks rest with
    | ']' :: ']' :: rest => return (.nextHeader keys, rest)
    | _ => none
  | '[' :: rest => do
    let (keys, rest) ← keyPath? (skipBlanks rest)
    match skipBlanks rest with
    | ']' :: rest => return (.header keys, rest)
    | _ => none
  | text => do
    let (keys, rest) ← keyPath? text
    match skipBlanks rest with
    | '=' :: rest => do
      let (value, rest) ← value? (skipBlanks rest)
      return (.pair keys value, rest)
    | _ => none

def linesFrom : Nat → List Char → Option (List Line)
  | 0, _ => none
  | fuel + 1, text => do
    match ← skipLines? text with
    | [] => return []
    | text => do
      let (line, rest) ← line? text
      return line :: (← linesFrom fuel (← endLine? rest))

def withoutMark : List Char → List Char
  | '\ufeff' :: rest => rest
  | text => text

/-- A byte order mark in front is skipped. Every line takes at least one character. -/
def lines? (text : List Char) : Option (List Line) :=
  linesFrom (text.length + 1) (withoutMark text)

end Lines

section Assembly

abbrev Pair := KeyPath × Value

inductive Header where
  | table (keys : KeyPath)
  | next (keys : KeyPath)
deriving DecidableEq, Repr

def sections : List Line → List Pair × List (Header × List Pair)
  | [] => ([], [])
  | line :: rest =>
    let (pairs, later) := sections rest
    match line with
    | .pair keys value => ((keys, value) :: pairs, later)
    | .header keys => ([], (.table keys, pairs) :: later)
    | .nextHeader keys => ([], (.next keys, pairs) :: later)

namespace Table

def addPairs (pairs : List Pair) (table : Table) : Option Table :=
  pairs.foldlM (fun table pair => table.addPair pair.1.path pair.1.key pair.2) table

def addSection (table : Table) : Header × List Pair → Option Table
  | (.table keys, pairs) =>
    table.update .passed (openTable keys.key (addPairs pairs)) keys.path
  | (.next keys, pairs) => table.update .passed (openNext keys.key (addPairs pairs)) keys.path

def ofLines? (lines : List Line) : Option Table := do
  let (pairs, later) := sections lines
  later.foldlM addSection (← addPairs pairs (empty .headed))

def ofText? (text : String) : Option Table := do ofLines? (← lines? text.toList)

end Table

end Assembly

end SchemaDefaults.Toml
