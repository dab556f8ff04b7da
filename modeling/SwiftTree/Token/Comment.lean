import SwiftTree.Trivia

/-!
# Block comments

Block comments nest: a comment ends where as many levels have been closed as were opened. A comment
that is still open at the end of the text runs to that end.
-/

namespace SwiftTree.Comment

inductive Extent
  /-- The comment ends after this many characters. -/
  | closed (length : Nat)
  /-- The text ends with this many levels still open. -/
  | unclosed (depth : Nat)
  deriving DecidableEq, Repr

/-- The extent of a comment that begins a number of characters earlier. -/
def Extent.add (extent : Extent) (count : Nat) : Extent :=
  match extent with
  | .closed length => .closed (length + count)
  | .unclosed depth => .unclosed depth

/-- The extent of a comment after its opening, inside a number of further levels. -/
def bodyExtent : Nat → List Char → Extent
  | outer, [] => .unclosed (outer + 1)
  | outer, '/' :: '*' :: cs => (bodyExtent (outer + 1) cs).add 2
  | 0, '*' :: '/' :: _ => .closed 2
  | outer + 1, '*' :: '/' :: cs => (bodyExtent outer cs).add 2
  | outer, _ :: cs => (bodyExtent outer cs).add 1

def extent : List Char → Extent
  | '/' :: '*' :: cs => (bodyExtent 0 cs).add 2
  | _ => .closed 0

/-- The number of characters of the block comment that a text begins with. -/
def length (cs : List Char) : Nat :=
  match extent cs with
  | .closed length => length
  | .unclosed _ => cs.length

def isUnclosed (piece : Piece) : Bool :=
  match extent piece.text.toList with
  | .closed _ => false
  | .unclosed _ => true

end SwiftTree.Comment
