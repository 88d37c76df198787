import SchemaDefaults.Json.Value
import SchemaDefaults.Text
/-!
The program's journal: events about what it does, the filters that choose the events to be
shown, and the lines that show them. A filter is a list of directives. A directive gives a level
to all events, to those of a target, or to those that carry a field; of the directives that fit
an event the most specific one decides. Lines are for people or in JSON; for people, the
characters of a message that could steer a terminal are written by their codes.
-/

namespace SchemaDefaults

/-- From the gravest to the most detailed. -/
inductive Level where
  | error | warn | info | debug | trace
deriving DecidableEq, Repr

inductive Origin where
  | command | pass | reporter | console | document
deriving DecidableEq, Repr

structure Event where
  level : Level
  origin : Origin
  message : String
  location : Option String
deriving DecidableEq, Repr

def Level.name : Level → String
  | .error => "ERROR"
  | .warn => "WARN"
  | .info => "INFO"
  | .debug => "DEBUG"
  | .trace => "TRACE"

def Level.rank : Level → Nat
  | .error => 1
  | .warn => 2
  | .info => 3
  | .debug => 4
  | .trace => 5

def Origin.target : Origin → String
  | .command => "attr_init"
  | .pass => "attr_init::core::pass"
  | .reporter => "attr_init::core::reporter"
  | .console => "attr_init::adapters::sink"
  | .document => "attr_init::adapters::json_model"

def Event.plain (level : Level) (origin : Origin) (message : String) : Event :=
  ⟨level, origin, message, none⟩

/-- `level` is the most detailed level that is let through, `none` letting nothing through. A
target fits every target that it begins. -/
structure Directive where
  target : Option String
  field : Option String
  level : Option Level
deriving DecidableEq, Repr

namespace Directive

def rank (d : Directive) : Nat := (d.level.map Level.rank).getD 0

def carries (e : Event) (field : String) : Bool :=
  field = "message" || (field = "location" && e.location.isSome)

def fits (d : Directive) (e : Event) : Bool :=
  d.target.all (fun target => target.toList.isPrefixOf e.origin.target.toList) &&
    d.field.all (carries e)

/-- A longer target is more specific, then a field, and of two fields the later name. -/
def key (d : Directive) : Nat × Option String :=
  ((d.target.map (·.utf8ByteSize + 1)).getD 0, d.field)

def moreSpecific (d other : Directive) : Bool :=
  other.key.1 < d.key.1 ||
    (d.key.1 == other.key.1 && match other.key.2, d.key.2 with
      | none, some _ => true
      | some field, some other => field < other
      | _, none => false)

end Directive

abbrev Filter := List Directive

namespace Filter

/-- Of two directives that are equally specific the later one counts. -/
def decisive (filter : Filter) (e : Event) : Option Directive :=
  (filter.filter (·.fits e)).foldl
    (fun best d => match best with
      | some best => if best.moreSpecific d then some best else some d
      | none => some d)
    none

def shows (filter : Filter) (e : Event) : Bool :=
  (filter.decisive e).any fun d => e.level.rank ≤ d.rank

def standard (verbose : Bool) : Filter :=
  if verbose then [⟨some "attr_init", none, some .debug⟩, ⟨none, none, some .info⟩]
  else [⟨some "attr_init", none, some .info⟩]

def errorsOnly : Filter := [⟨none, none, some .error⟩]

section Texts

def levelNames : List (String × Option Level) :=
  [("off", none), ("error", some .error), ("warn", some .warn), ("info", some .info),
    ("debug", some .debug), ("trace", some .trace)]

def withoutPlus : List Char → List Char
  | '+' :: rest => rest
  | text => text

def levelNumber? (text : List Char) : Option (Option Level) :=
  let digits := withoutPlus text
  if digits.isEmpty || !digits.all Char.isDigit then none
  else
    let value := digits.foldl (fun value c => 10 * value + (c.toNat - '0'.toNat)) 0
    (levelNames[value]?).map Prod.snd

def level? (text : List Char) : Option (Option Level) :=
  match levelNumber? text with
  | some level => some level
  | none => levelNames.lookup (String.ofList (text.map Char.toLower))

def givenLevel? (text : List Char) : Option (Option Level) :=
  -- With nothing behind the equals sign everything is let through.
  if text.isEmpty then some (some .trace) else level? text

/-- A directive as it is read. One for the inside of named spans, or for fields with given
values, is well-formed but fits no event. -/
inductive Reading where
  | effective (directive : Directive)
  | idle
deriving DecidableEq, Repr

structure Scope where
  name : Option (List Char)
  field : Option (List Char)
deriving DecidableEq, Repr

def scope? (text : List Char) : Option (Scope × List Char) :=
  let name := text.takeWhile fun c => c != ']' && c != '\x7b'
  match text.dropWhile fun c => c != ']' && c != '\x7b' with
  | ']' :: rest => some (⟨some name, none⟩, rest)
  | _ :: rest =>
    let field := rest.takeWhile (· != '\x7d')
    match rest.dropWhile (· != '\x7d') with
    | '\x7d' :: ']' :: rest =>
      if field.isEmpty then none
      else some (⟨if name.isEmpty then none else some name, some field⟩, rest)
    | _ => none
  | [] => none

def inScope (target : Option (List Char)) (scope : Scope) (level : Option Level) : Reading :=
  match scope with
  | ⟨none, some field⟩ =>
    if field.contains '=' then .idle
    else .effective ⟨target.map String.ofList, some (String.ofList field), level⟩
  | _ => .idle

def scoped? (target : Option (List Char)) (text : List Char) : Option Reading := do
  let (scope, rest) ← scope? text
  match rest with
  | [] => return inScope target scope (some .trace)
  | '=' :: level => return inScope target scope (← givenLevel? level)
  | _ => none

def startsTarget (c : Char) : Bool :=
  c.isAlphanum || c == '-' || c == ':' || c == '_' || 0x80 ≤ c.toNat

def word (text : List Char) : Reading :=
  match level? text with
  | some level => .effective ⟨none, none, level⟩
  | none => .effective ⟨some (String.ofList text), none, some .trace⟩

def directive? (text : List Char) : Option Reading :=
  match text with
  | [] => none
  | '[' :: rest => scoped? none rest
  | c :: _ =>
    if !startsTarget c then none
    else
      let target := text.takeWhile fun c => c != '=' && c != '['
      match text.dropWhile fun c => c != '=' && c != '[' with
      | [] => some (word text)
      | '=' :: level => do
        return .effective ⟨some (String.ofList target), none, ← givenLevel? level⟩
      | _ :: rest => scoped? (some target) rest

/-- Blanks behind a scope are dropped, and elsewhere they belong to the target or the level. -/
def unpadded (text : List Char) : List Char :=
  let trimmed := (text.reverse.dropWhile Text.isBlank).reverse
  if trimmed.getLast? = some ']' then trimmed else text

def piece? (text : List Char) : Option Reading :=
  match text with
  | [] => none
  | c :: _ =>
    -- A piece that begins with a blank is checked but fits nothing, and may give no level.
    if Text.isBlank c then do
      discard (directive? (unpadded (text.dropWhile Text.isBlank)))
      if text.contains '=' then none else some .idle
    else directive? (unpadded text)

def effective : Reading → Option Directive
  | .effective directive => some directive
  | .idle => none

def ofText? (text : String) : Option Filter := do
  let pieces := (text.splitOn ",").filter (· ≠ "")
  if pieces.isEmpty then some errorsOnly
  else return (← pieces.mapM fun piece => piece? piece.toList).filterMap effective

end Texts

end Filter

inductive LineStyle where
  | compact
  | json
deriving DecidableEq, Repr

namespace Event

def steering : List Char := ['\x07', '\x08', '\x0c', '\x1b', '\x7f']

def shownChar (c : Char) : List Char :=
  let code := c.toNat
  if c ∈ steering then ['\\', 'x', Nat.digitChar (code / 16), Nat.digitChar (code % 16)]
  else if 0x80 ≤ code && code ≤ 0x9F then
    ['\\', 'u', '\x7b'] ++ Nat.toDigits 16 code ++ ['\x7d']
  else [c]

def shown (message : String) : String := String.ofList (message.toList.flatMap shownChar)

def compactLine (e : Event) : String :=
  let location := (e.location.map (" location=" ++ ·)).getD ""
  e.level.name ++ " " ++ shown e.message ++ location

def jsonLine (e : Event) : String :=
  let location := (e.location.map fun text => [("location", Json.string text)]).getD []
  let fields := Json.object (("message", .string e.message) :: location)
  (Json.object [("level", .string e.level.name), ("fields", fields)]).text false

def line (style : LineStyle) (e : Event) : String :=
  match style with
  | .compact => e.compactLine
  | .json => e.jsonLine

end Event

end SchemaDefaults
