import SwiftTree.Grammar.Rule

/-!
# The goals of the Swift grammar

Only what can contain itself needs a goal: lists of items, groups in brackets, parameters, the
cases of a switch, and an `if` after an `else`. All other constructs are rules that stand in the
rules that use them.
-/

namespace SwiftTree.Grammar

/-- Where a list of items stands. -/
inductive ItemContext
  | topLevel
  | codeBlock
  | members
  | switchCase
  | closure
  deriving DecidableEq, Repr

/-- A construct that can contain itself. A label or an owner is there for messages. -/
inductive Goal
  /-- The items of a block that belongs to a construct. -/
  | items (context : ItemContext) (owner : NodeKind)
  /-- What stands between parentheses or square brackets. -/
  | group (label : String)
  /-- What stands between angle brackets. -/
  | angles (label : String)
  /-- The parameters of a function. -/
  | parameters
  /-- The cases of a switch. -/
  | cases
  /-- An `if` with its branches. -/
  | conditional
  deriving DecidableEq, Repr

namespace Test

def atEnd : Test :=
  kind .endOfFile

/-- The current token is an identifier or a keyword. -/
def word : Test :=
  kindIn [.identifier, .keyword]

def operator (content : String) : Test :=
  kind .operator &&& text content

/-- The current token is an identifier on the same line. -/
def name : Test :=
  kind .identifier &&& ~~~lineStart

/-- A label of a switch begins. -/
def switchLabel : Test :=
  keywordIn ["case", "default"] ||| (kind .atSign &&& ahead 1 (text "unknown"))

/-- A modifier of a declaration. The word `class` is one only in front of another keyword that
belongs to a declaration. -/
def modifier : Test :=
  keywordIn (modifierKeywords.filter (· != "class")) |||
    (keyword "class" &&& ahead 1 (keywordIn (declarationKeywords ++ modifierKeywords)))

end Test

namespace Rule

def parens (label : String) : Rule Goal :=
  delimited .paren label (.group label)

def squares (label : String) : Rule Goal :=
  delimited .square label (.group label)

def angles (label : String) : Rule Goal :=
  delimited .angle label (.angles label)

def tokenOrGroup (label : String) : Rule Goal :=
  choose (.kind .leftParen) (parens label) <|
  choose (.kind .leftSquare) (squares label) shift

def block (kind : NodeKind) (context : ItemContext) (owner : NodeKind) : Rule Goal :=
  node kind (delimited .brace owner.description (.items context owner))

def closure : Rule Goal :=
  block .closureExpr .closure .closureExpr

/-- The block of code of a statement or declaration. -/
def codeBlock (owner : NodeKind) : Rule Goal :=
  block .codeBlock .codeBlock owner

/-- The block of code of a statement, which must not be missing. -/
def requiredBlock (owner : NodeKind) : Rule Goal :=
  choose (.kind .leftBrace) (codeBlock owner) <|
  missing ("expected '\x7b' in " ++ owner.description) "insert '\x7b'" " \x7b\x7d"

/-- What stands between parentheses or square brackets: tokens, groups and closures. -/
def group (label : String) : Rule Goal :=
  while_ (~~~.kindIn [.rightParen, .rightSquare, .rightBrace, .endOfFile]) <|
    choose (.kind .leftBrace) closure (tokenOrGroup label)

/-- What stands between angle brackets. Only the outermost pair has to be closed. -/
def angleGroup (label : String) : Rule Goal :=
  while_ (~~~.kindIn [.rightAngle, .leftBrace, .rightBrace, .rightParen, .rightSquare, .semicolon,
      .equal, .endOfFile]) <|
    choose (.kind .leftAngle)
      (steps [shift, call (.angles label), when (.kind .rightAngle) shift])
      (tokenOrGroup label)

def attributes : Rule Goal :=
  node .attributeList <| while_ (.kind .atSign) <| node .declAttribute <| steps [
    shift,
    when (.word &&& .glued) <| steps [
      shift,
      when (.kind .leftParen &&& .glued) (parens "attribute")]]

end Rule

end SwiftTree.Grammar
