import SwiftTree.Text.Width

/-!
# Lines of a text

A line ends at a line feed, at a carriage return, or at a carriage return followed by a line feed.
A text that ends with a line break has one more, empty line, so every text has at least one line.
-/

namespace SwiftTree.Text

/-- One line: what stands on it and the line break that ends it. -/
structure Line where
  content : List Char
  terminator : List Char
  deriving DecidableEq, Repr

/-- Whether a character ends a line. -/
def isLineBreak (c : Char) : Bool :=
  c == '\n' || c == '\r'

namespace Line

def chars (line : Line) : List Char :=
  line.content ++ line.terminator

def cons (c : Char) (line : Line) : Line :=
  { line with content := c :: line.content }

end Line

/-- Puts a character in front of the first line. -/
def consLine (c : Char) : List Line → List Line
  | [] => [⟨[c], []⟩]
  | line :: rest => line.cons c :: rest

def lines : List Char → List Line
  | [] => [⟨[], []⟩]
  | '\r' :: '\n' :: cs => ⟨[], ['\r', '\n']⟩ :: lines cs
  | '\r' :: cs => ⟨[], ['\r']⟩ :: lines cs
  | '\n' :: cs => ⟨[], ['\n']⟩ :: lines cs
  | c :: cs => consLine c (lines cs)

def lineCount (s : String) : Nat :=
  (lines s.toList).length

/-- The byte offset at which the line with a 0-based index starts, and the line. -/
def lineFrom? (start : Nat) : List Line → Nat → Option (Nat × Line)
  | [], _ => none
  | line :: _, 0 => some (start, line)
  | line :: rest, n + 1 => lineFrom? (start + width line.chars) rest n

/-- The byte offset at which a 1-based line starts, and the line. -/
def line? (s : String) (number : Nat) : Option (Nat × Line) :=
  match number with
  | 0 => none
  | n + 1 => lineFrom? 0 (lines s.toList) n

def lineText? (s : String) (number : Nat) : Option String :=
  (line? s number).map fun (_, line) => String.ofList line.content

end SwiftTree.Text
