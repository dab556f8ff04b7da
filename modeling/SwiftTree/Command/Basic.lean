import SwiftTree.Report
import SwiftTree.Script.Basic

/-!
# Commands

What the tool can be asked to do: report diagnostics, list the nodes that have paths, change one
node, or apply a script. A changed document is printed, shown as a difference, or written back to
its file.
-/

namespace SwiftTree

/-- What happens to a changed document. It is printed if nothing else is asked for. -/
structure Delivery where
  write : Bool := false
  diff : Bool := false
  deriving DecidableEq, Repr

inductive Command
  /-- Reports diagnostics of files, and of all files in directories. -/
  | diagnose (paths : List String) (format : Option OutputFormat)
  /-- Lists the nodes that have paths. -/
  | paths (file : String) (scheme : Scheme)
  /-- Changes the node at an address, which is a path in some scheme. -/
  | edit (file : String) (scheme : Scheme) (path : String) (operation : Operation)
    (delivery : Delivery)
  /-- Applies the script in a file to a document. -/
  | apply (file script : String) (delivery : Delivery)
  deriving DecidableEq, Repr

namespace Command

def inputs : Command → List String
  | diagnose places _ => places
  | paths file _ => [file]
  | edit file _ _ _ _ => [file]
  | apply file script _ => [file, script]

end Command

structure Invocation where
  settings : Option String
  command : Command
  deriving DecidableEq, Repr

namespace Invocation

def inputs (invocation : Invocation) : List String :=
  invocation.settings.toList ++ invocation.command.inputs

end Invocation

end SwiftTree
