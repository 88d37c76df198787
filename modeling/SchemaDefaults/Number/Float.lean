import SchemaDefaults.Number.Decimal
/-!
Binary floating point by exact arithmetic on natural numbers. The magnitudes of a format are
numbered upwards from zero: `Format.magnitude f n` is the magnitude with number `n`, counted in
units of the least positive one, and the number of infinity follows that of the largest finite
magnitude. Rounding goes to the nearest magnitude, and from the middle to the even number.

A magnitude is written as the shortest decimal that reads back as it. A magnitude times
`10 ^ unitBits` is a natural number, so the ends of the interval that rounds to it and the points
of every decimal grid are compared exactly. The coarsest grid with a point in the interval wins,
of its two neighbours of the magnitude the nearer, and of two equally near ones the larger.

What can be read is more than a decimal with an exponent: infinity and not-a-number have names of
their own, in any case of their letters.
-/

namespace SchemaDefaults.Number

/-- Finite magnitudes fill `bands` bands of `2 ^ (precision - 1)` numbers each. The first two
bands are spaced by the unit `2 ^ -unitBits`, and each later one twice as widely as the one
before it. -/
structure Format where
  precision : Nat
  unitBits : Nat
  bands : Nat
deriving DecidableEq, Repr

def binary32 : Format := ⟨24, 149, 255⟩

def binary64 : Format := ⟨53, 1074, 2047⟩

/-- Rounds a quotient to the nearest natural number, a half to the even one. -/
def roundQuotient (num den : Nat) : Nat :=
  let quotient := num / den
  let twice := 2 * (num % den)
  if twice < den then quotient
  else if den < twice then quotient + 1
  else quotient + quotient % 2

namespace Format

def band (f : Format) : Nat := Nat.pow 2 (f.precision - 1)

def infinite (f : Format) : Nat := f.bands * f.band

def magnitude (f : Format) (n : Nat) : Nat :=
  if n < f.band then n else (f.band + n % f.band) * Nat.pow 2 (n / f.band - 1)

def nearestQuotient (f : Format) (num den : Nat) : Nat :=
  let scaled := num * Nat.pow 2 f.unitBits
  let shift := Nat.log2 (scaled / den) + 1 - f.precision
  min f.infinite (shift * f.band + roundQuotient scaled (den * Nat.pow 2 shift))

/-- The number of the magnitude nearest to `coefficient * 10 ^ scale`. Powers that lie far
outside both formats are decided by size alone: `10 ^ 401` is beyond the largest magnitude, and
a value under `2 ^ -1398` rounds to zero. -/
def nearestDecimal (f : Format) (coefficient : Nat) (scale : Int) : Nat :=
  if coefficient = 0 then 0
  else match scale with
    | .ofNat power =>
      if 400 < power then f.infinite else f.nearestQuotient (coefficient * Nat.pow 10 power) 1
    | .negSucc power =>
      if Nat.log2 coefficient + 1400 < 3 * (power + 1) then 0
      else f.nearestQuotient coefficient (Nat.pow 10 (power + 1))

def product (f : Format) (n m : Nat) : Nat :=
  -- A product of two counts of units counts squares of the unit.
  f.nearestQuotient (f.magnitude n * f.magnitude m) (Nat.pow 2 (2 * f.unitBits))

def quotient (f : Format) (n m : Nat) : Nat :=
  f.nearestQuotient (f.magnitude n) (f.magnitude m)

end Format

/-- The interval of the values that round to one magnitude, everything scaled by
`10 ^ unitBits`, and its ends doubled besides so that they are natural numbers. -/
structure Rounding where
  value : Nat
  twiceLow : Nat
  twiceHigh : Nat
  closed : Bool
deriving DecidableEq, Repr

namespace Rounding

def contains (r : Rounding) (point : Nat) : Bool :=
  if r.closed then r.twiceLow ≤ 2 * point && 2 * point ≤ r.twiceHigh
  else r.twiceLow < 2 * point && 2 * point < r.twiceHigh

/-- The point of the grid `10 ^ power` that stands for the value, as a multiple of the grid. -/
def onGrid? (r : Rounding) (power : Nat) : Option Nat :=
  let step := Nat.pow 10 power
  let below := r.value / step
  let above := below + 1
  match r.contains (below * step), r.contains (above * step) with
  | true, true =>
    some (if r.value - below * step < above * step - r.value then below else above)
  | true, false => some below
  | false, true => some above
  | false, false => none

def firstOnGrid (r : Rounding) : Nat → Nat × Nat
  -- The value itself is a point of the finest grid.
  | 0 => (r.value, 0)
  | power + 1 =>
    match r.onGrid? (power + 1) with
    | some multiple => (multiple, power + 1)
    | none => r.firstOnGrid power

end Rounding

structure ShortDecimal where
  coefficient : Nat
  scale : Int
deriving DecidableEq, Repr

namespace Format

def rounding (f : Format) (n : Nat) : Rounding :=
  let unit := Nat.pow 5 f.unitBits
  { value := f.magnitude n * unit
    twiceLow := (f.magnitude (n - 1) + f.magnitude n) * unit
    twiceHigh := (f.magnitude n + f.magnitude (n + 1)) * unit
    closed := n % 2 == 0 }

def shortest (f : Format) (n : Nat) : ShortDecimal :=
  let r := f.rounding n
  let (multiple, power) := r.firstOnGrid ((Nat.toDigits 10 r.value).length - 1)
  ⟨multiple, (power : Int) - f.unitBits⟩

end Format

section Writing

/-- A written float has a point or an exponent. Which decimal exponents are written in positions,
and whether a positive exponent shows its sign, differs between outputs. -/
structure FloatStyle where
  firstPositional : Int
  lastPositional : Int
  plusSign : Bool
deriving DecidableEq, Repr

/-- Whole numbers keep `.0`, and positions end below `10 ^ 16` and `10 ^ -4`. -/
def literalStyle : FloatStyle := ⟨-4, 15, false⟩

def messageStyle : FloatStyle := ⟨-5, 15, true⟩

def zeros (count : Nat) : List Char := List.replicate count '0'

def positional (digits : List Char) (point : Int) : List Char :=
  if point ≤ 0 then ['0', '.'] ++ zeros (-point).toNat ++ digits
  else if digits.length ≤ point.toNat then
    digits ++ zeros (point.toNat - digits.length) ++ ['.', '0']
  else digits.take point.toNat ++ '.' :: digits.drop point.toNat

def exponential (style : FloatStyle) (digits : List Char) (exponent : Int) : List Char :=
  let fraction := if (digits.drop 1).isEmpty then [] else '.' :: digits.drop 1
  let sign := if exponent < 0 then ['-'] else if style.plusSign then ['+'] else []
  digits.take 1 ++ fraction ++ 'e' :: sign ++ Nat.toDigits 10 exponent.natAbs

def ShortDecimal.text (style : FloatStyle) (d : ShortDecimal) : List Char :=
  let all := Nat.toDigits 10 d.coefficient
  let digits := (all.reverse.dropWhile (· == '0')).reverse
  let point := (all.length : Int) + d.scale
  if style.firstPositional < point && point ≤ style.lastPositional + 1 then
    positional digits point
  else exponential style digits (point - 1)

def Format.text (f : Format) (style : FloatStyle) (negative : Bool) (n : Nat) : List Char :=
  -- A zero keeps its sign too.
  let magnitude := if n = 0 then ['0', '.', '0'] else (f.shortest n).text style
  if negative then '-' :: magnitude else magnitude

end Writing

/-- A magnitude is given by its number in the format. -/
inductive FloatValue where
  | nan
  | signed (negative : Bool) (magnitude : Nat)
deriving DecidableEq, Repr

structure FloatScan where
  whole : List Char
  fraction : List Char
  exponent : Int
deriving DecidableEq, Repr

namespace FloatScan

def exponent? : List Char → Option Int
  | [] => some 0
  | c :: power => if Scientific.isMark c then (Integer.read? power).map Integer.value else none

def behindPoint : List Char → List Char × List Char
  | '.' :: later => (later.takeWhile Char.isDigit, later.dropWhile Char.isDigit)
  | rest => ([], rest)

def read? (text : List Char) : Option FloatScan :=
  let whole := text.takeWhile Char.isDigit
  let behind := behindPoint (text.dropWhile Char.isDigit)
  if whole.isEmpty && behind.1.isEmpty then none
  else (exponent? behind.2).map fun exponent => ⟨whole, behind.1, exponent⟩

def coefficient (s : FloatScan) : Nat := digitsValue (s.whole ++ s.fraction)

def scale (s : FloatScan) : Int := s.exponent - s.fraction.length

end FloatScan

namespace Format

def named? (f : Format) (negative : Bool) (text : List Char) : Option FloatValue :=
  let name := text.map Char.toLower
  if name = ['i', 'n', 'f'] ∨ name = ['i', 'n', 'f', 'i', 'n', 'i', 't', 'y'] then
    some (.signed negative f.infinite)
  else if name = ['n', 'a', 'n'] then some .nan
  else none

def read? (f : Format) (text : List Char) : Option FloatValue :=
  let (negative, body) := splitSign text
  match FloatScan.read? body with
  | some s => some (.signed negative (f.nearestDecimal s.coefficient s.scale))
  | none => f.named? negative body

end Format

namespace FloatValue

/-- The same value in another format, rounded where that one is coarser. -/
def moved (source target : Format) : FloatValue → FloatValue
  | .nan => .nan
  | .signed negative magnitude =>
    .signed negative <|
      if magnitude = source.infinite then target.infinite
      else target.nearestQuotient (source.magnitude magnitude) (Nat.pow 2 source.unitBits)

def text (f : Format) (style : FloatStyle) : FloatValue → List Char
  | .nan => ['N', 'a', 'N']
  | .signed negative magnitude =>
    if magnitude = f.infinite then
      if negative then ['-', 'i', 'n', 'f'] else ['i', 'n', 'f']
    else f.text style negative magnitude

end FloatValue

end SchemaDefaults.Number
