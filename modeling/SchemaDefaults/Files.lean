import SchemaDefaults.Failure
/-!
Trees of files, read and written by path. A path leads from the root or from the working
directory over one name after another; every name but the last must be that of a directory, two
dots lead back, and one dot stays. Repeated slashes and single dots are no parts of a path.
Writing makes the directories that are missing and never removes anything.
-/

namespace SchemaDefaults

namespace Path

def pieces : List Char → List (List Char)
  | [] => [[]]
  | c :: rest =>
    if c = '/' then [] :: pieces rest
    else match pieces rest with
      | piece :: later => (c :: piece) :: later
      | [] => [[c]]

def names (path : String) : List String :=
  ((pieces path.toList).filter (!·.isEmpty)).map String.ofList

def parts (path : String) : List String := (names path).filter (· ≠ ".")

def isAbsolute (path : String) : Bool := path.toList.head? == some '/'

def endsInSlash (path : String) : Bool := path.toList.getLast? == some '/'

def fileName? (path : String) : Option String :=
  match (parts path).getLast? with
  | some ".." => none
  | last => last

def afterLastDot? : List Char → Option (List Char)
  | [] => none
  | c :: rest =>
    match afterLastDot? rest with
    | some extension => some extension
    | none => if c = '.' then some rest else none

/-- The extension of a file name: what follows its last dot. A dot that opens the name does not
count, so a hidden file has no extension by that dot. -/
def extensionOf? (name : String) : Option String :=
  match name.toList with
  | [] => none
  | _ :: rest => (afterLastDot? rest).map String.ofList

def extension? (path : String) : Option String := do extensionOf? (← fileName? path)

end Path

abbrev Place := List String

/-- A file that is not text is never read as such, so its content does not matter. -/
inductive Node where
  | directory
  | text (content : String)
  | binary
deriving DecidableEq, Repr

/-- Later entries stand in front and hide earlier ones of the same place. -/
structure FileTree where
  working : Place
  entries : List (Place × Node)
deriving DecidableEq, Repr

namespace FileTree

def node? (tree : FileTree) (place : Place) : Option Node :=
  -- The root is a directory, whatever the entries say.
  if place = [] then some .directory else tree.entries.lookup place

def put (tree : FileTree) (place : Place) (node : Node) : FileTree :=
  { tree with entries := (place, node) :: tree.entries }

section Walks

def longestName : Nat := 255

def longestPath : Nat := 4095

def isTooLong (name : String) : Bool := longestName < name.utf8ByteSize

/-- Follows names from a place. Of the last one only that it may stand there is checked, not
that it does. -/
def walk (tree : FileTree) (place : Place) : List String → Except FileFault Place
  | [] => .ok place
  | name :: rest =>
    match tree.node? place with
    | none => .error .notFound
    | some (.text _) | some .binary => .error .notDirectory
    | some .directory =>
      if name = "." then walk tree place rest
      else if name = ".." then walk tree place.dropLast rest
      else if isTooLong name then .error .nameTooLong
      else walk tree (place ++ [name]) rest

def start (tree : FileTree) (path : String) : Place :=
  if Path.isAbsolute path then [] else tree.working

def checkPath (path : String) : Except FileFault Unit :=
  if '\x00' ∈ path.toList then .error .nameWithNul
  else if path = "" then .error .notFound
  else if longestPath < path.utf8ByteSize then .error .nameTooLong
  else .ok ()

/-- A slash at the end asks for a directory, as a single dot behind it would. -/
def steps (path : String) : List String :=
  Path.names path ++ if Path.endsInSlash path then ["."] else []

end Walks

def readText (tree : FileTree) (path : String) : Except FileFault String := do
  checkPath path
  let place ← tree.walk (tree.start path) (steps path)
  match tree.node? place with
  | some (.text content) => return content
  | some .binary => throw .notText
  | some .directory => throw .isDirectory
  | none => throw .notFound

section Writing

structure Change where
  fault : Option FileFault
  tree : FileTree
deriving DecidableEq, Repr

def makeDirectories (tree : FileTree) (place : Place) : List String → Change
  | [] => ⟨none, tree⟩
  | name :: rest =>
    if name = ".." then makeDirectories tree place.dropLast rest
    else if isTooLong name then ⟨some .nameTooLong, tree⟩
    else
      let next := place ++ [name]
      match tree.node? next with
      | some .directory => makeDirectories tree next rest
      -- A file as the last name is in the way, one before it cannot be entered.
      | some _ => ⟨some (if rest.isEmpty then .exists else .notDirectory), tree⟩
      | none => makeDirectories (tree.put next .directory) next rest

def parents (path : String) : List String := (Path.parts path).dropLast

def target (tree : FileTree) (path : String) : Except FileFault Place := do
  checkPath path
  let place ← tree.walk (tree.start path) (Path.names path)
  if Path.endsInSlash path then throw .isDirectory
  match tree.node? place with
  | some .directory => throw .isDirectory
  | _ => return place

def writeFile (tree : FileTree) (path content : String) : Change :=
  match tree.target path with
  | .ok place => ⟨none, tree.put place (.text content)⟩
  | .error fault => ⟨some fault, tree⟩

def writeText (tree : FileTree) (path content : String) : Change :=
  if (parents path).any fun name => '\x00' ∈ name.toList then ⟨some .nameWithNul, tree⟩
  else
    let made := tree.makeDirectories (tree.start path) (parents path)
    match made.fault with
    -- Directories that were made before the failure stay.
    | some _ => made
    | none => made.tree.writeFile path content

end Writing

def ofFiles (working : Place) (files : List (String × Node)) : FileTree :=
  files.foldl addFile (addDirectories ⟨working, []⟩ [] working)
where
  addDirectories (tree : FileTree) (place : Place) (names : List String) : FileTree :=
    (tree.makeDirectories place names).tree
  addFile (tree : FileTree) (file : String × Node) : FileTree :=
    (addDirectories tree working (parents file.1)).put (working ++ Path.parts file.1) file.2

end FileTree

end SchemaDefaults
