import SwiftTree.Diagnostic
import SwiftTree.Text.Escape
import SwiftTree.Text.Numeric
import SwiftTree.Token.Basic
import SwiftTree.Token.Comment
import SwiftTree.Token.StringLiteral

/-!
# Reading tokens

A text is cut into lexemes from left to right: pieces of trivia and bare tokens, each as long as
its kind allows. Trivia is then attached to tokens: what follows a token up to the next line break
is its trailing trivia, and everything else is leading trivia of the token after it. The trivia at
the end of the text belongs to a token of its own that marks the end.

What is wrong with a lexeme can be told from its text alone, so the diagnostics are read off the
finished tokens.
-/

namespace SwiftTree

namespace Lexer

/-- A space that does not end a line. -/
def isSpace (c : Char) : Bool :=
  c == ' ' || c == '\t' || c == '\x0b' || c == '\x0c'

def isIdentifierStart (c : Char) : Bool :=
  c == '_' || Text.isAlphabetic c

def isIdentifierPart (c : Char) : Bool :=
  c == '_' || Text.isAlphanumeric c

def isOperatorChar (c : Char) : Bool :=
  ['/', '=', '-', '+', '!', '*', '%', '<', '>', '&', '|', '^', '~', '?'].contains c

/-- The length of the longest run of characters with a property. -/
def runLength (p : Char → Bool) (cs : List Char) : Nat :=
  (cs.takeWhile p).length

def opensComment : List Char → Bool
  | '/' :: '/' :: _ => true
  | '/' :: '*' :: _ => true
  | _ => false

/-- The length of an operator after its first character. An operator stops before a comment. -/
def operatorTail : List Char → Nat
  | [] => 0
  | c :: cs =>
    if opensComment (c :: cs) || !isOperatorChar c then 0 else operatorTail cs + 1

/-- The length of an operator, given what follows its first character. -/
def operatorLength (rest : List Char) : Nat :=
  operatorTail rest + 1

/-- The kind and length of the trivia that a text begins with. A first line that begins with a hash
sign and an exclamation mark is a comment. -/
def triviaExtent? (atStart : Bool) : List Char → Option (TriviaKind × Nat)
  | [] => none
  | c :: cs =>
    if isSpace c then some (.whitespace, runLength isSpace (c :: cs))
    else if c == '\r' && cs.head? == some '\n' then some (.newline, 2)
    else if Text.isLineBreak c then some (.newline, 1)
    else if c == '/' && cs.head? == some '/' then
      let length := runLength (!Text.isLineBreak ·) (c :: cs)
      some (.ofComment ((c :: cs).take length), length)
    else if c == '/' && cs.head? == some '*' then
      let length := Comment.length (c :: cs)
      some (.ofComment ((c :: cs).take length), length)
    else if atStart && c == '#' && cs.head? == some '!' then
      some (.lineComment, runLength (!Text.isLineBreak ·) (c :: cs))
    else none

/-- A digit of a number, or an underscore between digits. -/
def isDigitPart (c : Char) : Bool :=
  c == '_' || c.isDigit

/-- A digit of a number with a base, or an underscore between digits. -/
def isHexDigitPart (c : Char) : Bool :=
  isDigitPart c || ('a' ≤ c && c ≤ 'f') || ('A' ≤ c && c ≤ 'F')

/-- The length of the fraction that follows the whole part of a number. -/
def fractionLength : List Char → Nat
  | '.' :: d :: cs => if d.isDigit then runLength isDigitPart (d :: cs) + 1 else 0
  | _ => 0

/-- The length of the exponent that follows the digits of a number. -/
def exponentLength : List Char → Nat
  | e :: sign :: d :: cs =>
    if e == 'e' || e == 'E' then
      if (sign == '+' || sign == '-') && d.isDigit then runLength isDigitPart (d :: cs) + 2
      else if sign.isDigit then runLength isDigitPart (sign :: d :: cs) + 1
      else 0
    else 0
  | [e, d] => if (e == 'e' || e == 'E') && d.isDigit then 2 else 0
  | _ => 0

def hasBase : List Char → Bool
  | '0' :: b :: _ => b == 'x' || b == 'X' || b == 'b' || b == 'o'
  | _ => false

def numberExtent (cs : List Char) : TokenKind × Nat :=
  if hasBase cs then (.integerLiteral, runLength isHexDigitPart (cs.drop 2) + 2)
  else
    let whole := runLength isDigitPart cs
    let fraction := fractionLength (cs.drop whole)
    let exponent := exponentLength (cs.drop (whole + fraction))
    (if fraction + exponent = 0 then .integerLiteral else .floatLiteral,
      whole + fraction + exponent)

/-- The length of an identifier between backquotes after the first of them, if it is closed before
the line ends. -/
def backquotedTail? : List Char → Option Nat
  | [] => none
  | c :: cs =>
    if c == '`' then some 1
    else if Text.isLineBreak c then none
    else (backquotedTail? cs).map (· + 1)

def wordExtent (cs : List Char) : TokenKind × Nat :=
  let length := runLength isIdentifierPart cs
  (if isKeyword (String.ofList (cs.take length)) then .keyword else .identifier, length)

/-- The kind and length of the token that a text begins with, when its first character is not part
of a word or a number. -/
def punctuationExtent (c : Char) (cs : List Char) : TokenKind × Nat :=
  match c, cs with
  | '`', _ =>
    match backquotedTail? cs with
    | some length => (.identifier, length + 1)
    | none => (.unknown, 1)
  | '$', _ => (.identifier, runLength isIdentifierPart cs + 1)
  | '"', _ => (.stringLiteral, (StringLiteral.extent (c :: cs)).length)
  | '#', _ =>
    if (cs.dropWhile (· == '#')).head? == some '"' then
      (.stringLiteral, (StringLiteral.extent (c :: cs)).length)
    else (.pound, 1)
  | '(', _ => (.leftParen, 1)
  | ')', _ => (.rightParen, 1)
  | '\x7b', _ => (.leftBrace, 1)
  | '\x7d', _ => (.rightBrace, 1)
  | '[', _ => (.leftSquare, 1)
  | ']', _ => (.rightSquare, 1)
  | ',', _ => (.comma, 1)
  | ':', _ => (.colon, 1)
  | ';', _ => (.semicolon, 1)
  | '@', _ => (.atSign, 1)
  | '\\', _ => (.operator, 1)
  | '.', '.' :: '.' :: _ => (.operator, 3)
  | '.', '.' :: '<' :: _ => (.operator, 3)
  | '.', _ => (.period, 1)
  | '<', '=' :: _ => (.operator, operatorLength cs)
  | '<', '<' :: _ => (.operator, operatorLength cs)
  | '<', _ => (.leftAngle, 1)
  | '>', '=' :: _ => (.operator, 2)
  | '>', _ => (.rightAngle, 1)
  | '-', '>' :: _ => (.arrow, 2)
  | '?', '?' :: '=' :: _ => (.operator, 3)
  | '?', '?' :: _ => (.operator, 2)
  | '?', _ => (.questionMark, 1)
  | '!', '=' :: '=' :: _ => (.operator, 3)
  | '!', '=' :: _ => (.operator, 2)
  | '!', _ => (.exclamationMark, 1)
  | '=', _ => (if operatorLength cs = 1 then .equal else .operator, operatorLength cs)
  | _, _ => if isOperatorChar c then (.operator, operatorLength cs) else (.unknown, 1)

def tokenExtent : List Char → TokenKind × Nat
  | [] => (.endOfFile, 0)
  | c :: cs =>
    if isIdentifierStart c then wordExtent (c :: cs)
    else if c.isDigit then numberExtent (c :: cs)
    else punctuationExtent c cs

/-- A piece of a text: trivia, or a token without its trivia. -/
inductive Lexeme
  | piece (piece : Piece)
  | token (kind : TokenKind) (text : String)
  deriving DecidableEq, Repr

/-- The lexeme that a text begins with, and its length. -/
def lexeme (atStart : Bool) (cs : List Char) : Lexeme × Nat :=
  match triviaExtent? atStart cs with
  | some (kind, length) => (.piece ⟨kind, String.ofList (cs.take length)⟩, length)
  | none =>
    let (kind, length) := tokenExtent cs
    (.token kind (String.ofList (cs.take length)), length)

/-- The lexemes of a text. The first `taken` characters belong to a lexeme that has been read. -/
def lexemes (atStart : Bool) : Nat → List Char → List Lexeme
  | _, [] => []
  | taken + 1, _ :: cs => lexemes false taken cs
  | 0, c :: cs =>
    let (lexeme, length) := lexeme atStart (c :: cs)
    lexeme :: lexemes false (length - 1) cs

/-- Attaches trivia to tokens. The first token of the result holds the trivia in front of it as
leading trivia; there is always one, since the end has a token of its own. -/
def attach : List Lexeme → Token × List Token
  | [] => (⟨.endOfFile, "", [], []⟩, [])
  | .piece piece :: rest =>
    let (next, later) := attach rest
    ({ next with leading := piece :: next.leading }, later)
  | .token kind text :: rest =>
    let (next, later) := attach rest
    (⟨kind, text, [], next.leading.takeWhile (!·.isNewline)⟩,
      { next with leading := next.leading.dropWhile (!·.isNewline) } :: later)

end Lexer

/-- The tokens of a text. The last one marks the end. -/
def lex (text : String) : List Token :=
  let (first, later) := Lexer.attach (Lexer.lexemes true 0 text.toList)
  first :: later

namespace Lexer

/-- What is wrong with a piece of trivia at a byte offset. -/
def pieceDiagnostic? (offset : Nat) (piece : Piece) : Option Diagnostic :=
  if Comment.isUnclosed piece then
    some {
      message := "unterminated '/*' comment"
      offset := some offset
      fixIts := [.insert "insert '*/'" (offset + piece.text.utf8ByteSize) "*/"] }
  else none

def triviaDiagnostics (offset : Nat) : Trivia → List Diagnostic
  | [] => []
  | piece :: rest =>
    (pieceDiagnostic? offset piece).toList ++
      triviaDiagnostics (offset + piece.text.utf8ByteSize) rest

def unclosedString (offset : Nat) (text : String) : Diagnostic :=
  let closing := (StringLiteral.delimiter text.toList).closing
  let shown := closing.flatMap fun c => if c = '"' then ['\\', '"'] else [c]
  { message := "unterminated string literal"
    offset := some offset
    fixIts := [.insert ("insert '" ++ String.ofList shown ++ "'") (offset + text.utf8ByteSize)
      (String.ofList closing)]
    notes := [⟨"string literal starts here", some offset, none⟩] }

/-- What is wrong with the text of a token at a byte offset. A lone backquote is an unknown token
that nothing is said about. -/
def textDiagnostic? (offset : Nat) (token : Token) : Option Diagnostic :=
  match token.kind with
  | .stringLiteral =>
    if StringLiteral.isClosed token.text.toList then none
    else some (unclosedString offset token.text)
  | .unknown =>
    if token.text == "`" then none
    else some {
      message := "unexpected character '" ++
        String.ofList (token.text.toList.flatMap Text.escapeLiteral) ++ "'"
      offset := some offset }
  | _ => none

/-- What is wrong with a token that starts, trivia included, at a byte offset. -/
def tokenDiagnostics (offset : Nat) (token : Token) : List Diagnostic :=
  let contentStart := offset + token.leading.width
  triviaDiagnostics offset token.leading ++
    ((textDiagnostic? contentStart token).toList ++
      triviaDiagnostics (contentStart + token.text.utf8ByteSize) token.trailing)

/-- What is wrong with the tokens that start at a byte offset, in order. -/
def diagnosticsFrom (offset : Nat) : List Token → List Diagnostic
  | [] => []
  | token :: rest => tokenDiagnostics offset token ++ diagnosticsFrom (offset + token.width) rest

/-- The byte offset at which each token starts, trivia included. -/
def startsFrom (offset : Nat) : List Token → List Nat
  | [] => []
  | token :: rest => offset :: startsFrom (offset + token.width) rest

end Lexer

def lexDiagnostics (tokens : List Token) : List Diagnostic :=
  Lexer.diagnosticsFrom 0 tokens

def tokenStarts (tokens : List Token) : List Nat :=
  Lexer.startsFrom 0 tokens

end SwiftTree
