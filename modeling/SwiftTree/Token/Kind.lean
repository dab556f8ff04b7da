/-!
# Kinds of tokens

The kinds a token may have, and the words that are keywords. Some keywords begin a declaration and
some may stand in front of one.
-/

namespace SwiftTree

inductive TokenKind
  | identifier
  | keyword
  | integerLiteral
  | floatLiteral
  | stringLiteral
  | leftParen
  | rightParen
  | leftBrace
  | rightBrace
  | leftSquare
  | rightSquare
  | leftAngle
  | rightAngle
  | comma
  | colon
  | semicolon
  | period
  | equal
  | arrow
  | atSign
  | pound
  | questionMark
  | exclamationMark
  | operator
  | unknown
  | endOfFile
  deriving DecidableEq, Repr

namespace TokenKind

def name : TokenKind → String
  | identifier => "Identifier"
  | keyword => "Keyword"
  | integerLiteral => "IntegerLiteral"
  | floatLiteral => "FloatLiteral"
  | stringLiteral => "StringLiteral"
  | leftParen => "LeftParen"
  | rightParen => "RightParen"
  | leftBrace => "LeftBrace"
  | rightBrace => "RightBrace"
  | leftSquare => "LeftSquare"
  | rightSquare => "RightSquare"
  | leftAngle => "LeftAngle"
  | rightAngle => "RightAngle"
  | comma => "Comma"
  | colon => "Colon"
  | semicolon => "Semicolon"
  | period => "Period"
  | equal => "Equal"
  | arrow => "Arrow"
  | atSign => "AtSign"
  | pound => "Pound"
  | questionMark => "QuestionMark"
  | exclamationMark => "ExclamationMark"
  | operator => "Operator"
  | unknown => "Unknown"
  | endOfFile => "EndOfFile"

/-- A kind as it is named to a reader: by its spelling where it has only one. -/
def description : TokenKind → String
  | identifier => "identifier"
  | keyword => "keyword"
  | integerLiteral => "integer literal"
  | floatLiteral => "float literal"
  | stringLiteral => "string literal"
  | leftParen => "'('"
  | rightParen => "')'"
  | leftBrace => "'\x7b'"
  | rightBrace => "'\x7d'"
  | leftSquare => "'['"
  | rightSquare => "']'"
  | leftAngle => "'<'"
  | rightAngle => "'>'"
  | comma => "','"
  | colon => "':'"
  | semicolon => "';'"
  | period => "'.'"
  | equal => "'='"
  | arrow => "'->'"
  | atSign => "'@'"
  | pound => "'#'"
  | questionMark => "'?'"
  | exclamationMark => "'!'"
  | operator => "operator"
  | unknown => "unknown"
  | endOfFile => "end of file"

def all : List TokenKind :=
  [identifier, keyword, integerLiteral, floatLiteral, stringLiteral, leftParen, rightParen,
    leftBrace, rightBrace, leftSquare, rightSquare, leftAngle, rightAngle, comma, colon, semicolon,
    period, equal, arrow, atSign, pound, questionMark, exclamationMark, operator, unknown,
    endOfFile]

def ofName? (name : String) : Option TokenKind :=
  all.find? fun kind => kind.name == name

end TokenKind

def keywords : List String :=
  ["actor", "any", "Any", "as", "associatedtype", "async", "await", "break", "case", "catch",
    "class", "continue", "convenience", "default", "defer", "deinit", "do", "dynamic", "else",
    "enum", "extension", "fallthrough", "false", "fileprivate", "final", "for", "func", "guard",
    "if", "import", "in", "indirect", "init", "inout", "internal", "is", "lazy", "let", "mutating",
    "nil", "nonmutating", "open", "operator", "optional", "override", "private", "protocol",
    "public", "repeat", "required", "rethrows", "return", "self", "Self", "some", "static",
    "struct", "subscript", "super", "switch", "throw", "throws", "true", "try", "typealias",
    "unowned", "var", "weak", "where", "while"]

/-- The keywords that introduce a declaration. -/
def declarationKeywords : List String :=
  ["actor", "associatedtype", "case", "class", "deinit", "enum", "extension", "func", "import",
    "init", "let", "protocol", "struct", "subscript", "typealias", "var"]

/-- The keywords that may stand in front of a declaration. -/
def modifierKeywords : List String :=
  ["class", "convenience", "dynamic", "fileprivate", "final", "indirect", "internal", "lazy",
    "mutating", "nonmutating", "open", "optional", "override", "private", "public", "required",
    "static", "unowned", "weak"]

def isKeyword (word : String) : Bool :=
  keywords.contains word

def isDeclarationKeyword (word : String) : Bool :=
  declarationKeywords.contains word

def isModifierKeyword (word : String) : Bool :=
  modifierKeywords.contains word

end SwiftTree
