import SchemaDefaults.Command
/-! The command on the files and the environment of the process. -/

namespace SchemaDefaults

namespace ProcessHost

def faultOfCode (code : UInt32) (details : String) : FileFault :=
  if code = 2 then .notFound
  else if code = 17 then .exists
  else if code = 20 then .notDirectory
  else if code = 21 then .isDirectory
  else if code = 36 then .nameTooLong
  else .other (details ++ " (os error " ++ toString code ++ ")")

def faultOf : IO.Error → FileFault
  | .noFileOrDirectory _ code details | .alreadyExists _ code details
  | .inappropriateType _ code details | .invalidArgument _ code details
  | .permissionDenied _ code details | .resourceExhausted _ code details
  | .noSuchThing _ code details => faultOfCode code details
  | .otherError code details | .hardwareFault code details | .illegalOperation code details
  | .unsatisfiedConstraints code details => faultOfCode code details
  | error => .other (toString error)

def attempt {α : Type} (action : IO α) : IO (Except FileFault α) := do
  match ← action.toBaseIO with
  | .ok value => return .ok value
  | .error error => return .error (faultOf error)

def readText (path : String) : IO (Except FileFault String) := do
  match FileTree.checkPath path with
  | .error fault => return .error fault
  | .ok _ =>
    match ← attempt (IO.FS.readBinFile path) with
    | .error fault => return .error fault
    | .ok bytes =>
      match String.fromUTF8? bytes with
      | some text => return .ok text
      | none => return .error .notText

def parentPath (path : String) : String :=
  (if Path.isAbsolute path then "/" else "") ++ String.intercalate "/" (FileTree.parents path)

def makeAndWrite (path content : String) : IO Unit := do
  if !(FileTree.parents path).isEmpty then IO.FS.createDirAll (parentPath path)
  IO.FS.writeFile path content

def writeText (path content : String) : IO (Option FileFault) := do
  match FileTree.checkPath path with
  | .error fault => return some fault
  | .ok _ =>
    match ← attempt (makeAndWrite path content) with
    | .ok _ => return none
    | .error fault => return some fault

def environment (names : List String) : IO Environment := do
  let bindings ← names.mapM fun name => do return (name, ← IO.getEnv name)
  return Environment.ofList (bindings.filterMap fun (name, value) => value.map (name, ·))

def host : Host IO := ⟨readText, writeText, environment⟩

end ProcessHost

end SchemaDefaults

open SchemaDefaults in
def main (arguments : List String) : IO UInt32 := do
  let done ← Command.run ProcessHost.host arguments
  for line in done.errors do IO.eprintln line
  IO.print done.output
  return done.exitCode.toUInt32
