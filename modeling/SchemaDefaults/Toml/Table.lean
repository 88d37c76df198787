/-!
Tables of a settings file and the rules by which they grow. A table is opened by a header of its
own, passed through by the header of another table, made by a key with dots, or written in
braces. Each kind admits additions from some places and refuses them from others, so that no
table is defined twice.
-/

namespace SchemaDefaults.Toml

inductive TableKind where
  | headed
  | passed
  | dotted
  | braced
deriving DecidableEq, Repr

mutual

/-- What a key stands for. A list of tables that headers extend is no array: `series` holds the
earlier tables and the one that still grows. -/
inductive Value where
  | bool (value : Bool)
  | text (value : String)
  | number (readable : Bool)
  | moment
  | array (items : List Value)
  | table (table : Table)
  | series (earlier : List Table) (last : Table)

inductive Table where
  | mk (kind : TableKind) (members : List (String × Value))

end

namespace Table

def kind : Table → TableKind
  | mk kind _ => kind

def members : Table → List (String × Value)
  | mk _ members => members

def empty (kind : TableKind) : Table := mk kind []

def get? (table : Table) (key : String) : Option Value := table.members.lookup key

def append (table : Table) (key : String) (value : Value) : Table :=
  mk table.kind (table.members ++ [(key, value)])

def replace (table : Table) (key : String) (value : Value) : Table :=
  mk table.kind (table.members.map fun member =>
    if member.1 = key then (key, value) else member)

def withKind (table : Table) (kind : TableKind) : Table := mk kind table.members

/-- Whether a path may lead through a table; one of a key with dots may not enter a table that
has a header. -/
def admits (table : Table) : TableKind → Bool
  | .dotted => table.kind == .passed || table.kind == .dotted
  | _ => table.kind != .braced

/-- Changes the table at the end of a path, making the tables that are missing on the way. -/
def update (made : TableKind) (change : Table → Option Table) :
    List String → Table → Option Table
  | [], table => change table
  | key :: path, table =>
    match table.get? key with
    | none => (update made change path (empty made)).map fun child =>
        table.append key (.table child)
    | some (.table child) =>
      if child.admits made then
        (update made change path child).map fun child => table.replace key (.table child)
      else none
    | some (.series earlier last) =>
      (update made change path last).map fun last => table.replace key (.series earlier last)
    | some _ => none

def addMember (key : String) (value : Value) (table : Table) : Option Table :=
  match table.get? key with
  | none => some (table.append key value)
  | some _ => none

/-- Adds the value of a key. A key without dots may not extend a table that a key with dots has
made, and a key with dots may extend no other. -/
def addPair (path : List String) (key : String) (value : Value) (table : Table) :
    Option Table :=
  update .dotted (fun parent =>
    if (parent.kind == .dotted) == !path.isEmpty then parent.addMember key value else none)
    path table

def openTable (key : String) (fill : Table → Option Table) (parent : Table) : Option Table :=
  match parent.get? key with
  | none => (fill (empty .headed)).map fun child => parent.append key (.table child)
  | some (.table child) =>
    -- Only a table that other headers have passed through may still get a header of its own.
    if child.kind = .passed then
      (fill (child.withKind .headed)).map fun child => parent.replace key (.table child)
    else none
  | some _ => none

def openNext (key : String) (fill : Table → Option Table) (parent : Table) : Option Table :=
  match parent.get? key with
  | none => (fill (empty .headed)).map fun child => parent.append key (.series [] child)
  | some (.series earlier last) =>
    (fill (empty .headed)).map fun child =>
      parent.replace key (.series (earlier ++ [last]) child)
  | some _ => none

end Table

mutual

def Value.readable : Value → Bool
  | .number readable => readable
  | .array items => readableItems items
  | .table table => table.readable
  | .series earlier last => readableTables earlier && last.readable
  | _ => true

def Table.readable : Table → Bool
  | .mk _ members => readableMembers members

def readableItems : List Value → Bool
  | [] => true
  | item :: rest => item.readable && readableItems rest

def readableTables : List Table → Bool
  | [] => true
  | table :: rest => table.readable && readableTables rest

def readableMembers : List (String × Value) → Bool
  | [] => true
  | member :: rest => member.2.readable && readableMembers rest

end

end SchemaDefaults.Toml
