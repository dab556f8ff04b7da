import SwiftTree.Text.Blank
import SwiftTree.Text.Lines
import SwiftTree.Trivia

/-!
# Documentation

The documentation of a token is the documentation comments in its leading trivia. Leading trivia is
taken line by line; the last line, which no line break ends, is the line that the token stands on.
New documentation goes right above that line and is indented like the token.

Documentation never turns into code: a block that is not closed is closed, and a block that ends
too early is written as lines instead. Which of the two it is, is found out by a scan of its own.
-/

namespace SwiftTree

namespace Trivia

/-- The lines of a run of trivia, each with the line break that ends it, and what follows the last
line break. -/
def splitLines : Trivia → List Trivia × Trivia
  | [] => ([], [])
  | piece :: rest =>
    let (lines, own) := splitLines rest
    if piece.isNewline then ([piece] :: lines, own)
    else
      match lines with
      | [] => ([], piece :: own)
      | line :: later => ((piece :: line) :: later, own)

/-- A line without its documentation, and without the blanks right after it. -/
def dropDocumentation (afterDocumentation : Bool) : Trivia → Trivia
  | [] => []
  | piece :: rest =>
    if piece.isDocumentation then dropDocumentation true rest
    else if afterDocumentation && piece.isWhitespace then dropDocumentation false rest
    else piece :: dropDocumentation false rest

/-- Whether a line holds documentation and nothing else but blanks. -/
def isDocumentationLine (line : Trivia) : Bool :=
  let body := line.dropLast
  body.any Piece.isDocumentation &&
    body.all fun piece => piece.isWhitespace || piece.isDocumentation

def indentation (line : Trivia) : String :=
  render (line.takeWhile Piece.isWhitespace)

end Trivia

namespace Documentation

/-- One line of documentation as a comment. A line that is a documentation comment already stays as
it is. -/
def lineComment (line : List Char) : String :=
  let line := Text.dropTrailingBlanks line
  let stripped := Text.dropBlanks line
  if "///".toList.isPrefixOf stripped then String.ofList stripped
  else if line.isEmpty then "///"
  else "/// " ++ String.ofList line

/-- Documentation as one comment for each line. -/
def lineComments (text : String) : Trivia :=
  (Text.lines text.toList).map fun line => ⟨.docLineComment, lineComment line.content⟩

/-- How the block comment that a text begins with fills the text. -/
inductive BlockShape
  /-- The comment ends where the text does. -/
  | closed
  /-- The text ends with this many levels still open. -/
  | unclosed (depth : Nat)
  /-- The comment ends before the text does. -/
  | closedEarly
  deriving DecidableEq, Repr

/-- The shape of what follows inside a number of levels. Where no level is open, none is closed. -/
def shapeFrom : Nat → List Char → BlockShape
  | depth, [] => .unclosed depth
  | depth, '/' :: '*' :: cs => shapeFrom (depth + 1) cs
  | depth + 1, '*' :: '/' :: cs =>
    if depth = 0 then (if cs.isEmpty then .closed else .closedEarly) else shapeFrom depth cs
  | depth, _ :: cs => shapeFrom depth cs

def blockShape (text : String) : BlockShape :=
  shapeFrom 0 text.toList

/-- The end of some levels of block comments. -/
def closing : Nat → String
  | 0 => ""
  | depth + 1 => " */" ++ closing depth

/-- The comments for a documentation text: one block if it begins as one, or else one comment for
each line. A blank text has none. -/
def pieces (text : String) : Trivia :=
  let text := Text.trim text
  if text.isEmpty then []
  else if "/**".toList.isPrefixOf text.toList then
    match blockShape text with
    | .closed => [⟨.docBlockComment, text⟩]
    | .unclosed depth => [⟨.docBlockComment, text ++ closing depth⟩]
    | .closedEarly => lineComments text
  else lineComments text

/-- Comments on lines of their own. -/
def block (indentation newline : String) (comments : Trivia) : Trivia :=
  comments.flatMap fun comment =>
    (if indentation.isEmpty then [] else [Piece.whitespace indentation]) ++
      [comment, .newline newline]

/-- Leading trivia with other documentation. If the token does not begin a line, a line break comes
first, so that the comment stands on a line of its own. -/
def setDocumentation (leading : Trivia) (text : Option String) (newline : String)
    (startsLine : Bool) : Trivia :=
  let (lines, own) := leading.splitLines
  let kept := (lines.filter fun line => !line.isDocumentationLine).flatMap
    (Trivia.dropDocumentation false)
  let own := own.dropDocumentation false
  let comments := (text.map pieces).getD []
  if comments.isEmpty then kept ++ own
  else
    kept ++ (if startsLine then [] else [.newline newline]) ++
      block own.indentation newline comments ++ own

end Documentation

end SwiftTree
