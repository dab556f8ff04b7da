/-!
# Diagnostics

A diagnostic says what is wrong with a source text and where. Positions are byte offsets; a
diagnostic may also point at a node of the tree by its trail. Fix-its propose changes to the text,
and notes point at related places.
-/

namespace SwiftTree

/-- The child indices that lead from the root of a tree to one of its nodes. -/
abbrev Trail := List Nat

def Trail.text (trail : Trail) : String :=
  "[" ++ ", ".intercalate (trail.map toString) ++ "]"

inductive Severity
  | error
  | warning
  | note
  | remark
  deriving DecidableEq, Repr

namespace Severity

def name : Severity → String
  | error => "error"
  | warning => "warning"
  | note => "note"
  | remark => "remark"

def ofName? (name : String) : Option Severity :=
  [error, warning, note, remark].find? fun severity => severity.name == name

end Severity

/-- One change to a text. Offsets are byte offsets, and a range may run backwards. -/
inductive Change
  | replace (start stop : Nat) (newText : String)
  | insert (offset : Nat) (newText : String)
  | delete (start stop : Nat)
  | generic (description details : String)
  deriving DecidableEq, Repr

structure FixIt where
  message : String
  changes : List Change
  deriving DecidableEq, Repr

namespace FixIt

def insert (message : String) (offset : Nat) (newText : String) : FixIt :=
  ⟨message, [.insert offset newText]⟩

def replace (message : String) (start stop : Nat) (newText : String) : FixIt :=
  ⟨message, [.replace start stop newText]⟩

def delete (message : String) (start stop : Nat) : FixIt :=
  ⟨message, [.delete start stop]⟩

end FixIt

/-- A remark on a place that a diagnostic is related to. -/
structure Note where
  message : String
  offset : Option Nat
  node : Option Trail
  deriving DecidableEq, Repr

structure Diagnostic where
  message : String
  severity : Severity := .error
  offset : Option Nat := none
  node : Option Trail := none
  fixIts : List FixIt := []
  notes : List Note := []
  deriving DecidableEq, Repr

end SwiftTree
