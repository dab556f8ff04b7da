import SwiftTree.FileStore
import SwiftTree.Script.Toml
import SwiftTree.Settings
import SwiftTree.Toml.Parser

/-!
# Configuration files

Settings and scripts are read from TOML in the same way: the text is parsed, the document is
decoded, and what it holds is validated. An error names the file, if there is one.
-/

namespace SwiftTree

inductive ConfigurationError
  | unreadable (path : String)
  | malformed (path : Option String)
  | invalid (path : Option String) (issues : List ValidationIssue)
  deriving DecidableEq, Repr

namespace ConfigurationError

def path : ConfigurationError → Option String
  | unreadable path => some path
  | malformed path => path
  | invalid path _ => path

/-- What a message says before its cause. -/
def heading (error : ConfigurationError) : String :=
  let located (text : String) : String :=
    match error.path with
    | some path => text ++ " (" ++ path ++ ")"
    | none => text
  match error with
  | unreadable path => "failed to read " ++ path
  | malformed _ => located "failed to parse TOML"
  | invalid _ _ => located "invalid configuration"

/-- What the error comes from. Why a file cannot be read and where a text is malformed is not told
further. -/
def cause : ConfigurationError → String
  | unreadable _ => "the file is not a readable text"
  | malformed _ => "the text is not a valid document"
  | invalid _ issues => ValidationIssue.messages issues

def message (error : ConfigurationError) : String :=
  error.heading ++ ": " ++ error.cause

end ConfigurationError

/-- What a configuration file may hold. -/
structure Schema (α : Type) where
  decode : Toml.Value → Option α
  issues : α → List ValidationIssue

namespace Schema

/-- Reads a configuration from a text that comes from a file, or from nowhere. -/
def read {α : Type} (schema : Schema α) (path : Option String) (text : String) :
    Except ConfigurationError α :=
  match (Toml.parse? text).bind schema.decode with
  | none => .error (.malformed path)
  | some value =>
    match schema.issues value with
    | [] => .ok value
    | issues => .error (.invalid path issues)

def load {α : Type} (schema : Schema α) (store : FileStore) (path : String) :
    Except ConfigurationError α :=
  match store.read? path with
  | some (.text text) => schema.read (some path) text
  | _ => .error (.unreadable path)

end Schema

namespace Settings

def schema : Schema Settings :=
  ⟨ofToml?, issues⟩

end Settings

namespace Script

def schema : Schema Script :=
  ⟨ofToml?, issues⟩

end Script

end SwiftTree
