import SwiftTree.Grammar.Goal

/-!
# Expressions

An expression is a run of tokens, groups and closures. It ends with its line unless the line break
stands next to an operator, at a closing bracket, at a keyword that begins a statement, and at the
tokens that the construct around it keeps for itself.
-/

namespace SwiftTree.Grammar

/-- The tokens at which an expression ends because the construct around it needs them. -/
structure ExpressionStop where
  comma : Bool := false
  brace : Bool := false
  colon : Bool := false
  deriving DecidableEq, Repr

namespace ExpressionStop

def kinds (stop : ExpressionStop) : List TokenKind :=
  (if stop.comma then [.comma] else []) ++ (if stop.brace then [.leftBrace] else []) ++
    (if stop.colon then [.colon] else [])

end ExpressionStop

namespace Test

/-- An expression can begin. -/
def expressionStart : Test :=
  ~~~kindIn [.rightParen, .rightSquare, .rightBrace, .rightAngle, .comma, .colon, .semicolon,
      .equal, .arrow, .endOfFile] &&&
    ~~~keywordIn ["else", "case", "default", "catch", "in", "where", "throws", "rethrows"]

/-- An expression begins that the construct around it does not keep from beginning. -/
def expressionBefore (stop : ExpressionStop) : Test :=
  expressionStart &&& ~~~kindIn stop.kinds

/-- A keyword that begins the next statement. -/
def statementKeyword : Test :=
  keywordIn ["return", "let", "var", "func", "if", "guard", "while", "for", "switch", "case",
    "default", "else", "catch", "do", "defer", "repeat", "break", "continue", "throw", "struct",
    "class", "enum", "protocol", "extension", "import", "typealias"]

/-- The kinds of tokens that join the lines before and after them. -/
def joining : List TokenKind :=
  [.operator, .equal, .period, .arrow]

/-- The current token belongs to the expression that has begun. -/
def expressionGoesOn (stop : ExpressionStop) : Test :=
  ~~~kindIn ([.endOfFile, .rightParen, .rightSquare, .rightBrace, .semicolon] ++ stop.kinds) &&&
    (~~~lineStart ||| kindIn joining ||| lastIn joining) &&&
    ~~~statementKeyword

end Test

namespace Rule

/-- The next part of an expression. -/
def expressionPart : Rule Goal :=
  choose (.kind .leftBrace) closure <|
  choose (.kind .pound) (steps [shift, when (.word &&& .glued) shift]) <|
  tokenOrGroup "expression"

/-- The parts of an expression after the first. -/
def expressionRest (stop : ExpressionStop) : Rule Goal :=
  while_ (.expressionGoesOn stop) expressionPart

/-- An expression, or another rule if none begins. -/
def expression (stop : ExpressionStop) (otherwise : Rule Goal) : Rule Goal :=
  choose (.expressionBefore stop)
    (node .expr (steps [expressionPart, expressionRest stop])) otherwise

/-- An expression that may begin with one of some keywords, or another rule if none begins. -/
def expressionAfter (words : List String) (stop : ExpressionStop) (otherwise : Rule Goal) :
    Rule Goal :=
  choose (.keywordIn words) (node .expr (steps [shift, expressionRest stop])) <|
  expression stop otherwise

end Rule

end SwiftTree.Grammar
