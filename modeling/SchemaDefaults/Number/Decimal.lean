/-!
Decimal texts of any length: an optional sign, ASCII digits, and for fractions a point with
digits on at least one side of it. `Decimal.canonical` writes the one text without redundant
signs and zeros; `Scientific` adds a power of ten. A signed word of 64 bits is read digit by
digit, a negative one downwards from zero, so that the least word can be read although its
opposite is no word; a step that leaves the range is an overflow, and the text is refused.
-/

namespace SchemaDefaults.Number

def splitSign : List Char → Bool × List Char
  | '-' :: rest => (true, rest)
  | '+' :: rest => (false, rest)
  | text => (false, text)

def allDigits (text : List Char) : Bool := text.all Char.isDigit

def digitValue (c : Char) : Nat := c.toNat - '0'.toNat

/-- The natural number that a list of digits denotes, the empty list denoting zero. -/
def digitsValue (digits : List Char) : Nat :=
  digits.foldl (fun value c => 10 * value + digitValue c) 0

/-- The digits without leading zeros, and a single zero where nothing else is left. -/
def wholeDigits (digits : List Char) : List Char :=
  match digits.dropWhile (· == '0') with
  | [] => ['0']
  | c :: rest => c :: rest

def fractionDigits (digits : List Char) : List Char :=
  (digits.reverse.dropWhile (· == '0')).reverse

structure Integer where
  negative : Bool
  digits : List Char
deriving DecidableEq, Repr

namespace Integer

def read? (text : List Char) : Option Integer :=
  let (negative, digits) := splitSign text
  if digits.isEmpty || !allDigits digits then none else some ⟨negative, digits⟩

def value (n : Integer) : Int :=
  if n.negative then -(digitsValue n.digits : Int) else digitsValue n.digits

/-- Zero has no sign, and no other number starts with a zero or a plus sign. -/
def canonical (n : Integer) : List Char :=
  let whole := wholeDigits n.digits
  if n.negative && whole != ['0'] then '-' :: whole else whole

end Integer

structure Decimal where
  negative : Bool
  whole : List Char
  fraction : List Char
deriving DecidableEq, Repr

namespace Decimal

-- The first point divides; a second one is left in the fraction, where it is no digit.
def read? (text : List Char) : Option Decimal :=
  let (negative, body) := splitSign text
  let whole := body.takeWhile (· != '.')
  let fraction := (body.dropWhile (· != '.')).drop 1
  if whole.isEmpty && fraction.isEmpty then none
  else if allDigits whole && allDigits fraction then some ⟨negative, whole, fraction⟩
  else none

def coefficient (d : Decimal) : Nat := digitsValue (d.whole ++ d.fraction)

def canonical (d : Decimal) : List Char :=
  let whole := wholeDigits d.whole
  let fraction := fractionDigits d.fraction
  let sign := if d.negative && !(whole == ['0'] && fraction.isEmpty) then ['-'] else []
  let tail := if fraction.isEmpty then [] else '.' :: fraction
  sign ++ whole ++ tail

end Decimal

structure Scientific where
  mantissa : Decimal
  exponent : Int
deriving DecidableEq, Repr

namespace Scientific

def isMark (c : Char) : Bool := c == 'e' || c == 'E'

def read? (text : List Char) : Option Scientific :=
  -- The first mark divides; behind it stands an optionally signed run of digits.
  let mantissa := text.takeWhile (!isMark ·)
  match text.dropWhile (!isMark ·) with
  | [] => (Decimal.read? mantissa).map (⟨·, 0⟩)
  | _ :: power =>
    match Decimal.read? mantissa, Integer.read? power with
    | some m, some n => some ⟨m, n.value⟩
    | _, _ => none

def negative (s : Scientific) : Bool := s.mantissa.negative

def coefficient (s : Scientific) : Nat := s.mantissa.coefficient

def scale (s : Scientific) : Int := s.exponent - s.mantissa.fraction.length

end Scientific

namespace Word

def least : Int := -9223372036854775808

def greatest : Int := 9223372036854775807

def checked (value : Int) : Option Int :=
  if least ≤ value ∧ value ≤ greatest then some value else none

def append? (negative : Bool) (word : Int) (c : Char) : Option Int :=
  if c.isDigit then
    (checked (10 * word)).bind fun shifted =>
      checked (if negative then shifted - digitValue c else shifted + digitValue c)
  else none

def read? (text : List Char) : Option Int :=
  let (negative, digits) := splitSign text
  if digits.isEmpty then none else digits.foldlM (append? negative) 0

def text (word : Int) : List Char :=
  if word < 0 then '-' :: Nat.toDigits 10 word.natAbs else Nat.toDigits 10 word.natAbs

end Word

end SchemaDefaults.Number
