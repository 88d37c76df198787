import SchemaDefaults.Json.Value
import SchemaDefaults.Number.Decimal
/-!
The tokens of a JSON text, up to the first place where the text stops being one. A reader may
keep a value or pass over it, and passing over asks for less: a lone surrogate escape and a
number beyond every range are faults only for a reader that keeps them.

A number without fraction and exponent that fits in 64 bits is a whole number. Any other is taken
from its leading digits, as many as fit in 64 bits, and from a power of ten; each step is rounded
to binary64, and a number that overflows is no number.
-/

namespace SchemaDefaults

open Number

/-- A number as it is written; `fraction` and `exponent` are empty where there is none. -/
structure NumberText where
  minus : Bool
  whole : List Char
  fraction : List Char
  exponentMinus : Bool
  exponent : List Char
deriving DecidableEq, Repr

namespace NumberText

def greatestWord : Nat := Nat.pow 2 64 - 1

/-- Appends digits to a number while the result fits in 64 bits; the second part is the rest. -/
def appendFitting (value : Nat) : List Char → Nat × List Char
  | [] => (value, [])
  | c :: rest =>
    if 10 * value + digitValue c ≤ greatestWord then
      appendFitting (10 * value + digitValue c) rest
    else (value, c :: rest)

def powerOfTen (power : Nat) : Nat := binary64.nearestDecimal 1 power

def dividedByPower (magnitude power : Nat) : Nat :=
  if power ≤ 308 then binary64.quotient magnitude (powerOfTen power)
  else if magnitude = 0 then 0
  -- No power of ten beyond `10 ^ 308` is finite, so the division goes by steps.
  else dividedByPower (binary64.quotient magnitude (powerOfTen 308)) (power - 308)
termination_by power
decreasing_by omega

def scaled? (word : Nat) (scale : Int) : Option Nat :=
  let magnitude := binary64.nearestQuotient word 1
  match scale with
  | .ofNat power =>
    if power ≤ 308 then
      let product := binary64.product magnitude (powerOfTen power)
      if binary64.infinite ≤ product then none else some product
    else if magnitude = 0 then some 0 else none
  | .negSucc power => some (dividedByPower magnitude (power + 1))

def greatestExponent : Nat := Nat.pow 2 31 - 1

def scale? (n : NumberText) (start : Int) : Option Int :=
  let exponent := digitsValue n.exponent
  -- An exponent beyond a signed word of 32 bits is not counted.
  if greatestExponent < exponent then none
  else if n.exponentMinus then some (max (start - exponent) (-greatestExponent - 1))
  else some (min (start + exponent) greatestExponent)

def float (n : NumberText) : Except Fault JsonNumber :=
  let (word, unread) := appendFitting 0 n.whole
  let (word, unreadFraction) := appendFitting word n.fraction
  let start : Int := unread.length - (n.fraction.length - unreadFraction.length : Nat)
  match n.scale? start with
  | some scale =>
    match scaled? word scale with
    | some magnitude => .ok (.float n.minus magnitude)
    | none => .error .malformed
  | none =>
    if word ≠ 0 ∧ !n.exponentMinus then .error .malformed else .ok (.float n.minus 0)

def value (n : NumberText) : Except Fault JsonNumber :=
  let whole := digitsValue n.whole
  if !n.fraction.isEmpty || !n.exponent.isEmpty then n.float
  else if n.minus then
    if 0 < whole && whole ≤ Nat.pow 2 63 then .ok (.negative whole) else n.float
  else if whole ≤ greatestWord then .ok (.natural whole) else n.float

end NumberText

/-- A fault as it is seen by a reader that keeps the value and by one that passes over it. -/
structure Break where
  kept : Fault
  passed : Fault
deriving DecidableEq, Repr

def Break.both (fault : Fault) : Break := ⟨fault, fault⟩

inductive Token where
  | openBrace | closeBrace | openBracket | closeBracket | comma | colon
  | null
  | bool (value : Bool)
  | number (kept : Except Fault JsonNumber)
  | string (kept : Except Fault String)
  | brokenString (fault : Break)
  | broken (fault : Break)

namespace Token

section Strings

inductive Escape where
  | none
  | backslash
  | code (missing value : Nat)
deriving DecidableEq, Repr

/-- `kept` holds the characters read so far in reverse, or the first fault of a reader that keeps
the string; a leading surrogate waits in `high` for its partner. -/
structure StringScan where
  kept : Except Fault (List Char)
  high : Option Nat
  escape : Escape

namespace StringScan

def start : StringScan := ⟨.ok [], none, .none⟩

def refuse (s : StringScan) (fault : Fault) : StringScan :=
  match s.kept with
  | .ok _ => ⟨.error fault, none, .none⟩
  | .error first => ⟨.error first, none, .none⟩

def push (s : StringScan) (c : Char) : StringScan :=
  match s.high, s.kept with
  | none, .ok text => ⟨.ok (c :: text), none, .none⟩
  | _, _ => s.refuse .malformed

def isHigh (unit : Nat) : Bool := 0xD800 ≤ unit && unit ≤ 0xDBFF

def isLow (unit : Nat) : Bool := 0xDC00 ≤ unit && unit ≤ 0xDFFF

def pairCode (high low : Nat) : Nat := 0x10000 + (high - 0xD800) * 0x400 + (low - 0xDC00)

def pushUnit (s : StringScan) (unit : Nat) : StringScan :=
  match s.high with
  | some high =>
    if isLow unit then { s with high := none }.push (Char.ofNat (pairCode high unit))
    else s.refuse .malformed
  | none =>
    if isLow unit then s.refuse .malformed
    else if isHigh unit then ⟨s.kept, some unit, .none⟩
    else s.push (Char.ofNat unit)

def hexValue? (c : Char) : Option Nat :=
  if '0' ≤ c ∧ c ≤ '9' then some (c.toNat - '0'.toNat)
  else if 'a' ≤ c ∧ c ≤ 'f' then some (c.toNat - 'a'.toNat + 10)
  else if 'A' ≤ c ∧ c ≤ 'F' then some (c.toNat - 'A'.toNat + 10)
  else none

def escaped? (c : Char) : Option Char :=
  if c = '"' ∨ c = '\\' ∨ c = '/' then some c
  else if c = 'b' then some '\x08'
  else if c = 'f' then some '\x0c'
  else if c = 'n' then some '\n'
  else if c = 'r' then some '\r'
  else if c = 't' then some '\t'
  else none

def stop (s : StringScan) (fault : Fault) : Break :=
  match s.kept with
  | .ok _ => ⟨fault, fault⟩
  | .error first => ⟨first, fault⟩

def finish (s : StringScan) : Except Fault String :=
  match s.high, s.kept with
  | none, .ok text => .ok (String.ofList text.reverse)
  | _, .error first => .error first
  | some _, .ok _ => .error .malformed

/-- Whether the bytes of a text are fewer than the four of an escaped code unit. -/
def underFourBytes (text : List Char) : Bool :=
  (text.take 4).foldl (fun size c => size + c.utf8Size) 0 < 4

inductive Step where
  | more (scan : StringScan)
  | closed (kept : Except Fault String)
  | stopped (fault : Break)

def step (s : StringScan) (c : Char) (rest : List Char) : Step :=
  match s.escape with
  | .none =>
    if c = '"' then .closed s.finish
    else if c = '\\' then .more { s with escape := .backslash }
    else if c.toNat < 0x20 then .stopped (s.stop .malformed)
    else .more (s.push c)
  | .backslash =>
    if c = 'u' then
      -- A code unit is taken as a whole, so a text that ends inside it is cut short here.
      if underFourBytes rest then .stopped (s.stop .cutShort)
      else .more { s with escape := .code 4 0 }
    else match escaped? c with
      | some e => .more (s.push e)
      | none => .stopped (s.stop .malformed)
  | .code missing value =>
    match hexValue? c with
    | none => .stopped (s.stop .malformed)
    | some digit =>
      if missing ≤ 1 then .more (s.pushUnit (16 * value + digit))
      else .more { s with escape := .code (missing - 1) (16 * value + digit) }

end StringScan

end Strings

section Numbers

inductive NumberPart where
  | minus | zero | whole | point | fraction | mark | power | exponent
deriving DecidableEq, Repr

/-- The digits of each part are collected in reverse. -/
structure NumberScan where
  part : NumberPart
  text : NumberText
deriving DecidableEq, Repr

namespace NumberScan

def start? (c : Char) : Option NumberScan :=
  if c = '-' then some ⟨.minus, ⟨true, [], [], false, []⟩⟩
  else if c = '0' then some ⟨.zero, ⟨false, [c], [], false, []⟩⟩
  else if c.isDigit then some ⟨.whole, ⟨false, [c], [], false, []⟩⟩
  else none

def addWhole (n : NumberScan) (part : NumberPart) (c : Char) : NumberScan :=
  ⟨part, { n.text with whole := c :: n.text.whole }⟩

def addFraction (n : NumberScan) (c : Char) : NumberScan :=
  ⟨.fraction, { n.text with fraction := c :: n.text.fraction }⟩

def addExponent (n : NumberScan) (c : Char) : NumberScan :=
  ⟨.exponent, { n.text with exponent := c :: n.text.exponent }⟩

def complete (n : NumberScan) : Bool :=
  n.part == .zero || n.part == .whole || n.part == .fraction || n.part == .exponent

def value (n : NumberScan) : Except Fault JsonNumber :=
  NumberText.value
    { n.text with
      whole := n.text.whole.reverse
      fraction := n.text.fraction.reverse
      exponent := n.text.exponent.reverse }

inductive Step where
  | more (scan : NumberScan)
  | ended
  | stopped

def isMark (c : Char) : Bool := c == 'e' || c == 'E'

def behindWhole (n : NumberScan) (c : Char) : Step :=
  if c = '.' then .more { n with part := .point }
  else if isMark c then .more { n with part := .mark }
  else .ended

def step (n : NumberScan) (c : Char) : Step :=
  match n.part with
  | .minus =>
    if c = '0' then .more (n.addWhole .zero c)
    else if c.isDigit then .more (n.addWhole .whole c)
    else .stopped
  | .zero => if c.isDigit then .stopped else n.behindWhole c
  | .whole => if c.isDigit then .more (n.addWhole .whole c) else n.behindWhole c
  | .point => if c.isDigit then .more (n.addFraction c) else .stopped
  | .fraction =>
    if c.isDigit then .more (n.addFraction c)
    else if isMark c then .more { n with part := .mark }
    else .ended
  | .mark =>
    if c = '+' then .more { n with part := .power }
    else if c = '-' then .more ⟨.power, { n.text with exponentMinus := true }⟩
    else if c.isDigit then .more (n.addExponent c)
    else .stopped
  | .power => if c.isDigit then .more (n.addExponent c) else .stopped
  | .exponent => if c.isDigit then .more (n.addExponent c) else .ended

end NumberScan

end Numbers

section Texts

inductive Mode where
  | between
  | string (scan : StringScan)
  | number (scan : NumberScan)
  | word (rest : List Char) (token : Token)

/-- What a character does: the token that it ends, if any, and the mode behind it, if the scan
goes on. -/
structure Effect where
  tokens : List Token
  next : Option Mode

def isBlank (c : Char) : Bool := c == ' ' || c == '\t' || c == '\n' || c == '\r'

def structural? (c : Char) : Option Token :=
  if c = '{' then some .openBrace
  else if c = '}' then some .closeBrace
  else if c = '[' then some .openBracket
  else if c = ']' then some .closeBracket
  else if c = ',' then some .comma
  else if c = ':' then some .colon
  else none

def word? (c : Char) : Option Mode :=
  if c = 'n' then some (.word ['u', 'l', 'l'] .null)
  else if c = 't' then some (.word ['r', 'u', 'e'] (.bool true))
  else if c = 'f' then some (.word ['a', 'l', 's', 'e'] (.bool false))
  else none

def stopAt (token : Token) : Effect := ⟨[token], none⟩

def begin (c : Char) : Effect :=
  if isBlank c then ⟨[], some .between⟩
  else if c = '"' then ⟨[], some (.string .start)⟩
  else match structural? c, NumberScan.start? c, word? c with
    | some token, _, _ => ⟨[token], some .between⟩
    | _, some scan, _ => ⟨[], some (.number scan)⟩
    | _, _, some mode => ⟨[], some mode⟩
    | none, none, none => stopAt (.broken (.both .malformed))

def effect (mode : Mode) (c : Char) (rest : List Char) : Effect :=
  match mode with
  | .between => begin c
  | .string scan =>
    match scan.step c rest with
    | .more scan => ⟨[], some (.string scan)⟩
    | .closed kept => ⟨[.string kept], some .between⟩
    | .stopped fault => stopAt (.brokenString fault)
  | .number scan =>
    match scan.step c with
    | .more scan => ⟨[], some (.number scan)⟩
    -- A number is ended by the character behind it, which begins something else.
    | .ended => ⟨.number scan.value :: (begin c).tokens, (begin c).next⟩
    | .stopped => stopAt (.broken (.both .malformed))
  | .word [] token => ⟨token :: (begin c).tokens, (begin c).next⟩
  | .word [last] token =>
    if c = last then ⟨[token], some .between⟩ else stopAt (.broken (.both .malformed))
  | .word (letter :: letters) token =>
    if c = letter then ⟨[], some (.word letters token)⟩
    else stopAt (.broken (.both .malformed))

/-- The end of the text. A number that is cut is malformed for a reader that passes over it. -/
def atEnd : Mode → List Token
  | .between => []
  | .string scan => [.brokenString (scan.stop .cutShort)]
  | .number scan =>
    if scan.complete then [.number scan.value] else [.broken ⟨.cutShort, .malformed⟩]
  | .word _ _ => [.broken (.both .cutShort)]

def scanFrom (done : List Token) (mode : Mode) : List Char → List Token
  | [] => done.reverse ++ atEnd mode
  | c :: rest =>
    match effect mode c rest with
    | ⟨tokens, some next⟩ => scanFrom (tokens.reverse ++ done) next rest
    | ⟨tokens, none⟩ => done.reverse ++ tokens

def scan (text : List Char) : List Token := scanFrom [] .between text

end Texts

end Token

end SchemaDefaults
