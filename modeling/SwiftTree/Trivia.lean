/-!
# Trivia

Trivia is the text between tokens: runs of blanks, line breaks and comments. Each piece of trivia
is attached to a token, so nothing of a source text is lost.
-/

namespace SwiftTree

inductive TriviaKind
  | whitespace
  | newline
  | lineComment
  | docLineComment
  | blockComment
  | docBlockComment
  deriving DecidableEq, Repr

namespace TriviaKind

/-- Documentation comments are the line comments with three slashes and the block comments with
two stars. -/
def isDocumentation : TriviaKind → Bool
  | docLineComment | docBlockComment => true
  | _ => false

def isComment : TriviaKind → Bool
  | whitespace | newline => false
  | _ => true

/-- The kind of a comment, read off how it opens. Four slashes, an empty block comment and three
stars make an ordinary comment. -/
def ofComment : List Char → TriviaKind
  | '/' :: '/' :: '/' :: '/' :: _ => lineComment
  | '/' :: '/' :: '/' :: _ => docLineComment
  | '/' :: '/' :: _ => lineComment
  | '/' :: '*' :: '*' :: '/' :: _ => blockComment
  | '/' :: '*' :: '*' :: '*' :: _ => blockComment
  | '/' :: '*' :: '*' :: _ => docBlockComment
  | _ => blockComment

end TriviaKind

/-- One piece of trivia: a run of blanks, one line break, or one comment. -/
structure Piece where
  kind : TriviaKind
  text : String
  deriving DecidableEq, Repr

namespace Piece

def whitespace (text : String) : Piece :=
  ⟨.whitespace, text⟩

def newline (text : String) : Piece :=
  ⟨.newline, text⟩

def isDocumentation (piece : Piece) : Bool :=
  piece.kind.isDocumentation

def isNewline (piece : Piece) : Bool :=
  piece.kind == .newline

def isWhitespace (piece : Piece) : Bool :=
  piece.kind == .whitespace

/-- Whether a line ends inside the piece. A carriage return counts only as a line break of its
own, not inside a comment. -/
def breaksLine (piece : Piece) : Bool :=
  piece.isNewline || piece.text.toList.contains '\n'

end Piece

abbrev Trivia := List Piece

namespace Trivia

def render : Trivia → String
  | [] => ""
  | piece :: rest => piece.text ++ render rest

def width : Trivia → Nat
  | [] => 0
  | piece :: rest => piece.text.utf8ByteSize + width rest

/-- Whether a line ends inside the run. -/
def breaksLine (trivia : Trivia) : Bool :=
  trivia.any Piece.breaksLine

@[simp] theorem utf8ByteSize_render (trivia : Trivia) :
    (render trivia).utf8ByteSize = width trivia := by
  induction trivia with
  | nil => rfl
  | cons piece rest ih => simp [render, width, ih]

end Trivia

end SwiftTree
