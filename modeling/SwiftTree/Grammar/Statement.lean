import SwiftTree.Grammar.Expression

/-!
# Statements
-/

namespace SwiftTree.Grammar

namespace Test

def statementEnd : Test :=
  lineStart ||| kindIn [.endOfFile, .rightBrace, .semicolon]

end Test

namespace Rule

def missingExpression (place : String) : Rule Goal :=
  missing ("expected expression in " ++ place) "insert expression" " <#expression#>"

def returnStatement : Rule Goal :=
  node .returnStmt <| steps [shift, when (~~~.statementEnd) (expression {} skip)]

def throwStatement : Rule Goal :=
  let absent := missingExpression "'throw' statement"
  node .throwStmt <| steps [shift, choose .statementEnd absent (expression {} absent)]

/-- A jump with an optional label. -/
def jumpStatement (kind : NodeKind) : Rule Goal :=
  node kind <| steps [shift, when .name shift]

def conditions : Rule Goal :=
  let words := ["let", "var", "case"]
  let stop : ExpressionStop := { comma := true, brace := true }
  node .conditionList <| loop <|
    choose (.keywordIn words ||| .expressionBefore stop)
      (steps [expressionAfter words stop skip, when (.kind .comma) (steps [shift, again])])
      (missing "expected expression in condition" "insert condition" " <#condition#>")

def conditional : Rule Goal :=
  node .ifExpr <| steps [
    shift,
    conditions,
    requiredBlock .ifExpr,
    when (.keyword "else") <| steps [
      shift,
      choose (.keyword "if") (call .conditional) (requiredBlock .ifExpr)]]

def guardStatement : Rule Goal :=
  node .guardStmt <| steps [
    shift,
    conditions,
    choose (.keyword "else") shift <|
      missing "expected 'else' after 'guard' condition" "insert 'else'" " else",
    requiredBlock .guardStmt]

def whileStatement : Rule Goal :=
  node .whileStmt <| steps [shift, conditions, requiredBlock .whileStmt]

def repeatStatement : Rule Goal :=
  node .repeatStmt <| steps [
    shift,
    requiredBlock .repeatStmt,
    choose (.keyword "while")
      (steps [
        shift,
        expression {} <|
          missing "expected expression in 'repeat-while' condition" "insert condition"
            " <#condition#>"])
      (missing "expected 'while' after 'repeat' body" "insert 'while'" " while <#condition#>")]

def forStatement : Rule Goal :=
  node .forStmt <| steps [
    shift,
    expressionAfter ["case", "try", "await"] { brace := true } <|
      missing "expected pattern in 'for' statement" "insert pattern" " <#pattern#>",
    requiredBlock .forStmt]

/-- A label of a switch with the items that follow it. -/
def switchCase : Rule Goal :=
  node .switchCase <| steps [
    when (.kind .atSign) attributes,
    choose (.keyword "case")
      (steps [
        shift,
        expression { colon := true } <|
          missing "expected pattern in 'case' label" "insert pattern" " <#pattern#>"])
      (when (.keyword "default") shift),
    choose (.kind .colon) shift <|
      missing "expected ':' after switch label" "insert ':'" ":",
    call (.items .switchCase .switchCase)]

def switchCases : Rule Goal :=
  node .switchCaseList <| while_ (~~~.kindIn [.rightBrace, .endOfFile]) <|
    choose .switchLabel switchCase <|
    recover { stop := .switchLabel ||| .lineStart, phrase := "in 'switch' statement" }

def switchStatement : Rule Goal :=
  node .switchExpr <| steps [
    shift,
    expression { brace := true } (missingExpression "'switch' statement"),
    choose (.kind .leftBrace) (delimited .brace "'switch' statement" .cases) <|
      missing "expected '\x7b' in 'switch' statement" "insert '\x7b'" " \x7b\x7d"]

def doStatement : Rule Goal :=
  node .doStmt <| steps [
    shift,
    requiredBlock .doStmt,
    while_ (.keyword "catch") <| steps [
      shift,
      expressionAfter ["let", "var"] { comma := true, brace := true } skip,
      requiredBlock .doStmt]]

def deferStatement : Rule Goal :=
  node .deferStmt <| steps [shift, requiredBlock .deferStmt]

/-- A statement. What cannot begin one is set aside up to the end of the line. -/
def statement (phrase : String) : Rule Goal :=
  dispatch [
    ("return", returnStatement),
    ("throw", throwStatement),
    ("break", jumpStatement .breakStmt),
    ("continue", jumpStatement .continueStmt),
    ("if", conditional),
    ("guard", guardStatement),
    ("while", whileStatement),
    ("repeat", repeatStatement),
    ("for", forStatement),
    ("switch", switchStatement),
    ("do", doStatement),
    ("defer", deferStatement)] <|
  choose .expressionStart (node .expressionStmt (expression {} skip)) <|
  recover { stop := .lineStart, phrase }

end Rule

end SwiftTree.Grammar
