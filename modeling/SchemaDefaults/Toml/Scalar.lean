import SchemaDefaults.Number.Decimal
import SchemaDefaults.Number.Float
import SchemaDefaults.Toml.Quoted
/-!
Values written as one word: truth values, numbers, dates and times. No setting is a number or
a date. All that is kept of a number is whether a reader could hold it at all, and dates that
exist are only told from those that do not.
-/

namespace SchemaDefaults.Toml

open Number

namespace Moment

def number? (count : Nat) (text : List Char) : Option (Nat × List Char) :=
  let digits := text.take count
  if digits.length = count && digits.all Char.isDigit then
    some (digitsValue digits, text.drop count)
  else none

def drop? (c : Char) : List Char → Option (List Char)
  | [] => none
  | first :: rest => if first = c then some rest else none

def isLeap (year : Nat) : Bool := year % 4 = 0 && (year % 100 ≠ 0 || year % 400 = 0)

def daysOf (year month : Nat) : Nat :=
  if month = 2 then if isLeap year then 29 else 28
  else if month ∈ [4, 6, 9, 11] then 30
  else 31

def date? (text : List Char) : Option (List Char) := do
  let (year, rest) ← number? 4 text
  let (month, rest) ← number? 2 (← drop? '-' rest)
  let (day, rest) ← number? 2 (← drop? '-' rest)
  if 1 ≤ month && month ≤ 12 && 1 ≤ day && day ≤ daysOf year month then some rest else none

def fraction? (text : List Char) : Option (List Char) :=
  match text with
  | '.' :: rest =>
    if (rest.takeWhile Char.isDigit).isEmpty then none else some (rest.dropWhile Char.isDigit)
  | _ => some text

def seconds? (text : List Char) : Option (List Char) :=
  match text with
  | ':' :: rest => do
    let (second, rest) ← number? 2 rest
    if second ≤ 60 then fraction? rest else none
  | _ => some text

def time? (text : List Char) : Option (List Char) := do
  let (hour, rest) ← number? 2 text
  let (minute, rest) ← number? 2 (← drop? ':' rest)
  if hour ≤ 24 && minute ≤ 59 then seconds? rest else none

def isOffset (text : List Char) : Bool :=
  match text with
  | [] => true
  | ['Z'] | ['z'] => true
  | sign :: rest => (sign == '+' || sign == '-') && (distance? rest).any (· ≤ 24 * 60)
where
  distance? (text : List Char) : Option Nat := do
    let (hours, rest) ← number? 2 text
    let (minutes, rest) ← number? 2 (← drop? ':' rest)
    if rest.isEmpty then some (60 * hours + minutes) else none

def isDelimiter (c : Char) : Bool := c == 'T' || c == 't' || c == ' '

def reads (text : List Char) : Bool :=
  match date? text with
  | some [] => true
  | some (c :: rest) => isDelimiter c && (time? rest).any isOffset
  | none => time? text == some []

end Moment

inductive Scalar where
  | bool (value : Bool)
  | number (readable : Bool)
  | moment
deriving DecidableEq, Repr

namespace Scalar

/-- Digits with single underscores between them, without the underscores. -/
def ungroup (accept : Char → Bool) (behindDigit : Bool) : List Char → Option (List Char)
  | [] => if behindDigit then some [] else none
  | c :: rest =>
    if accept c then (ungroup accept true rest).map (c :: ·)
    else if c = '_' && behindDigit then ungroup accept false rest
    else none

def digits? : List Char → Option (List Char) := ungroup Char.isDigit false

def whole? (text : List Char) : Option (List Char) := do
  let digits ← digits? text
  if text.head? = some '0' && text.length ≠ 1 then none else some digits

def inBase? (base : Nat) (text : List Char) : Option Nat := do
  let digits ← ungroup (fun c => (hexDigit? c).any (· < base)) false text
  some (digits.foldl (fun value c => base * value + (hexDigit? c).getD 0) 0)

/-- Whole numbers are held in 128 bits, with a sign or without. -/
def holdsWhole (negative : Bool) (magnitude : Nat) : Bool :=
  if negative then magnitude ≤ Nat.pow 2 127 else magnitude < Nat.pow 2 128

/-- Other numbers are held in 64 bits, where none may round to infinity. -/
def holdsFloat (digits : List Char) (scale : Int) : Bool :=
  binary64.nearestDecimal (digitsValue digits) scale < binary64.infinite

def power? (text : List Char) : Option Int := do
  let (negative, text) := splitSign text
  let digits ← digits? text
  some (if negative then -(digitsValue digits : Int) else digitsValue digits)

def isMark (c : Char) : Bool := c == 'e' || c == 'E'

def float? (text : List Char) : Option Bool := do
  let mantissa := text.takeWhile (!isMark ·)
  let power ← match text.dropWhile (!isMark ·) with
    | [] => some 0
    | _ :: power => power? power
  let whole ← whole? (mantissa.takeWhile (· != '.'))
  let fraction ← match mantissa.dropWhile (· != '.') with
    | [] => some []
    | _ :: fraction => digits? fraction
  some (holdsFloat (whole ++ fraction) (power - fraction.length))

def decimal? (text : List Char) : Option Bool :=
  let (negative, body) := splitSign text
  if body = ['i', 'n', 'f'] || body = ['n', 'a', 'n'] then some true
  else match whole? body with
    | some digits => some (holdsWhole negative (digitsValue digits))
    | none => if body.any fun c => c == '.' || isMark c then float? body else none

def number? (text : List Char) : Option Bool :=
  match text with
  | '0' :: 'x' :: rest => (inBase? 16 rest).map (holdsWhole false)
  | '0' :: 'o' :: rest => (inBase? 8 rest).map (holdsWhole false)
  | '0' :: 'b' :: rest => (inBase? 2 rest).map (holdsWhole false)
  | _ => decimal? text

def ofText? (text : List Char) : Option Scalar :=
  if text = ['t', 'r', 'u', 'e'] then some (.bool true)
  else if text = ['f', 'a', 'l', 's', 'e'] then some (.bool false)
  else match number? text with
    | some readable => some (.number readable)
    | none => if Moment.reads text then some .moment else none

def isWordChar (c : Char) : Bool :=
  c.isAlphanum || c == '_' || c == '+' || c == '-' || c == '.' || c == ':'

/-- The word at the head of a text. A date and a time may have a space between them. -/
def split (text : List Char) : List Char × List Char :=
  let word := text.takeWhile isWordChar
  match text.dropWhile isWordChar with
  | ' ' :: c :: rest =>
    if c.isDigit && Moment.date? word == some [] then
      (word ++ ' ' :: (c :: rest).takeWhile isWordChar, (c :: rest).dropWhile isWordChar)
    else (word, ' ' :: c :: rest)
  | rest => (word, rest)

def read? (text : List Char) : Option (Scalar × List Char) := do
  let (word, rest) := split text
  return (← ofText? word, rest)

end Scalar

end SchemaDefaults.Toml
