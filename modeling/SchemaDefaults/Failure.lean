import SchemaDefaults.Json.Value
/-!
What can go wrong, by cause. Every failure has a category, a severity, a message, a friendlier
message for whoever runs the command, and a suggestion.
-/

namespace SchemaDefaults

inductive FileFault where
  | notFound
  | exists
  | notDirectory
  | isDirectory
  | nameTooLong
  | notText
  | nameWithNul
  | other (text : String)
deriving DecidableEq, Repr

def FileFault.text : FileFault → String
  | .notFound => "No such file or directory (os error 2)"
  | .exists => "File exists (os error 17)"
  | .notDirectory => "Not a directory (os error 20)"
  | .isDirectory => "Is a directory (os error 21)"
  | .nameTooLong => "File name too long (os error 36)"
  | .notText => "stream did not contain valid UTF-8"
  | .nameWithNul => "file name contained an unexpected NUL byte"
  | .other text => text

inductive Failure where
  | file (fault : FileFault)
  | model (fault : Fault)
  | settings (field message : String)
  | invalidValue (field value reason : String)
  | missing (field : String)
  | channel (message : String)
  | rejected (fatals : Nat)
deriving DecidableEq, Repr

inductive Category where
  | io | model | configuration | reporting | schema
deriving DecidableEq, Repr

inductive Severity where
  | low | medium | high | critical
deriving DecidableEq, Repr

def Category.name : Category → String
  | .io => "Io"
  | .model => "Model"
  | .configuration => "Configuration"
  | .reporting => "Reporting"
  | .schema => "Schema"

def Severity.name : Severity → String
  | .low => "Low"
  | .medium => "Medium"
  | .high => "High"
  | .critical => "Critical"

def Fault.message : Fault → String
  | .malformed => "malformed text"
  | .cutShort => "unexpected end of text"
  | .mismatch m => m.message

namespace Failure

def category : Failure → Category
  | .file _ => .io
  | .model _ => .model
  | .settings _ _ | .invalidValue _ _ _ | .missing _ => .configuration
  | .channel _ => .reporting
  | .rejected _ => .schema

def severity : Failure → Severity
  | .settings _ _ | .invalidValue _ _ _ | .missing _ => .medium
  | .model _ | .rejected _ => .high
  | .file _ | .channel _ => .critical

def message : Failure → String
  | .file fault => "IO error: " ++ fault.text
  | .model fault => "Serialization error: " ++ fault.message
  | .settings field message => "Configuration error in " ++ field ++ ": " ++ message
  | .invalidValue field value reason =>
    "Invalid value for " ++ field ++ ": " ++ value ++ " (" ++ reason ++ ")"
  | .missing field => "Missing required configuration: " ++ field
  | .channel message => "Diagnostic channel failed: " ++ message
  | .rejected fatals => "Generation failed with " ++ toString fatals ++ " fatal diagnostic(s)"

def userMessage : Failure → String
  | .file fault => "Could not read or write a file: " ++ fault.text
  | .model fault => "The class model could not be parsed: " ++ fault.message
  | .rejected fatals =>
    "Initializer generation failed (" ++ toString fatals ++ " error(s) reported above)"
  | other => other.message

def suggestion : Failure → String
  | .file _ => "Check that the input file exists and the output directory is writable"
  | .model _ => "Make sure the model file is a JSON document with a top-level \"classes\" array"
  | .settings field _ | .missing field =>
    "Review the " ++ codeSpan field ++ " setting in the configuration file or command line"
  | .invalidValue field _ _ => "Provide a valid value for " ++ codeSpan field
  | .channel _ => "The diagnostic sink is broken; rerun with --verbose to see where it failed"
  | .rejected _ =>
    "Move the attrinit customization onto an attribute declaration that has a default value"

end Failure

end SchemaDefaults
