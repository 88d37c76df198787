/-!
Quoted texts of a settings file. There are four forms: in single or in double quotes, and on one
line or between tripled quotes on several. Double quotes allow escapes; a line break behind the
opening tripled quotes is dropped, and up to two quotes may stand before the closing ones.
-/

namespace SchemaDefaults.Toml

structure QuoteForm where
  quote : Char
  escapes : Bool
  severalLines : Bool
deriving DecidableEq, Repr

namespace QuoteForm

def basic : QuoteForm := ⟨'"', true, false⟩

def basicLines : QuoteForm := ⟨'"', true, true⟩

def verbatim : QuoteForm := ⟨'\'', false, false⟩

def verbatimLines : QuoteForm := ⟨'\'', false, true⟩

end QuoteForm

def hexDigit? (c : Char) : Option Nat :=
  if '0' ≤ c ∧ c ≤ '9' then some (c.toNat - '0'.toNat)
  else if 'a' ≤ c ∧ c ≤ 'f' then some (c.toNat - 'a'.toNat + 10)
  else if 'A' ≤ c ∧ c ≤ 'F' then some (c.toNat - 'A'.toNat + 10)
  else none

def isBlank (c : Char) : Bool := c == ' ' || c == '\t'

def isLineChar (c : Char) : Bool := c == '\t' || (0x20 ≤ c.toNat && c.toNat ≠ 0x7F)

def charOfCode? (code : Nat) : Option Char :=
  if code.isValidChar then some (Char.ofNat code) else none

namespace Quoted

/-- Where a reading stands. `opened` is just behind tripled quotes, `quotes` behind a run of
quotes that may close the text, and `folding` behind a backslash at the end of a line, where the
blanks and line breaks that follow are dropped. A carriage return needs a line feed next. -/
inductive Place where
  | opened
  | openedReturn
  | text
  | carriageReturn
  | quotes (count : Nat)
  | backslash
  | code (missing value : Nat)
  | lineEnd
  | lineEndReturn
  | folding
  | foldingReturn
deriving DecidableEq, Repr

inductive Step where
  | more (place : Place) (written : List Char)
  | closed (written : List Char)
  | broken

def escaped? (c : Char) : Option Char :=
  if c = 'b' then some '\x08'
  else if c = 't' then some '\t'
  else if c = 'n' then some '\n'
  else if c = 'f' then some '\x0c'
  else if c = 'r' then some '\r'
  else if c = 'e' then some '\x1b'
  else if c = '"' then some '"'
  else if c = '\\' then some '\\'
  else none

def codeLength? (c : Char) : Option Nat :=
  if c = 'x' then some 2 else if c = 'u' then some 4 else if c = 'U' then some 8 else none

/-- A quote that makes a run of `count`. The third closes the text unless more quotes follow,
and those before the last three belong to it. -/
def quoteStep (form : QuoteForm) (count : Nat) (rest : List Char) : Step :=
  if !form.severalLines then .closed []
  else if count = 5 || (3 ≤ count && rest.head? != some form.quote) then
    .closed (List.replicate (count - 3) form.quote)
  else .more (.quotes count) []

def textStep (form : QuoteForm) (held : List Char) (c : Char) (rest : List Char) : Step :=
  if c = form.quote then
    match quoteStep form 1 rest with
    | .more place written => .more place (held ++ written)
    | .closed written => .closed (held ++ written)
    | .broken => .broken
  else if c = '\\' && form.escapes then .more .backslash held
  else if c = '\n' then if form.severalLines then .more .text (held ++ [c]) else .broken
  else if c = '\r' then if form.severalLines then .more .carriageReturn held else .broken
  else if isLineChar c then .more .text (held ++ [c])
  else .broken

def backslashStep (form : QuoteForm) (c : Char) : Step :=
  match escaped? c, codeLength? c with
  | some written, _ => .more .text [written]
  | _, some digits => .more (.code digits 0) []
  | none, none =>
    if !form.severalLines then .broken
    else if c = '\n' then .more .folding []
    else if c = '\r' then .more .lineEndReturn []
    else if isBlank c then .more .lineEnd []
    else .broken

def codeStep (missing value : Nat) (c : Char) : Step :=
  match hexDigit? c with
  | none => .broken
  | some digit =>
    let value := 16 * value + digit
    if 1 < missing then .more (.code (missing - 1) value) []
    -- Surrogates and codes beyond the last plane are no characters.
    else match charOfCode? value with
      | some written => .more .text [written]
      | none => .broken

def step (form : QuoteForm) (place : Place) (c : Char) (rest : List Char) : Step :=
  match place with
  | .opened =>
    if c = '\n' then .more .text []
    else if c = '\r' then .more .openedReturn []
    else textStep form [] c rest
  | .openedReturn | .foldingReturn | .lineEndReturn =>
    if c = '\n' then .more (if place = .openedReturn then .text else .folding) [] else .broken
  | .text => textStep form [] c rest
  -- Line breaks are kept as they are written.
  | .carriageReturn => if c = '\n' then .more .text ['\r', '\n'] else .broken
  | .quotes count =>
    if c = form.quote then quoteStep form (count + 1) rest
    else textStep form (List.replicate count form.quote) c rest
  | .backslash => backslashStep form c
  | .code missing value => codeStep missing value c
  | .lineEnd =>
    if c = '\n' then .more .folding []
    else if c = '\r' then .more .lineEndReturn []
    else if isBlank c then .more .lineEnd []
    else .broken
  | .folding =>
    if c = '\n' || isBlank c then .more .folding []
    else if c = '\r' then .more .foldingReturn []
    else textStep form [] c rest

def readFrom (form : QuoteForm) (place : Place) (done : List Char) :
    List Char → Option (String × List Char)
  | [] => none
  | c :: rest =>
    match step form place c rest with
    | .more place written => readFrom form place (written.reverse ++ done) rest
    | .closed written => some (String.ofList ((written.reverse ++ done).reverse), rest)
    | .broken => none

def readLine (form : QuoteForm) : List Char → Option (String × List Char) :=
  readFrom form .text []

def read? : List Char → Option (String × List Char)
  | '"' :: '"' :: '"' :: rest => readFrom .basicLines .opened [] rest
  | '"' :: rest => readLine .basic rest
  | '\'' :: '\'' :: '\'' :: rest => readFrom .verbatimLines .opened [] rest
  | '\'' :: rest => readLine .verbatim rest
  | _ => none

end Quoted

end SchemaDefaults.Toml
