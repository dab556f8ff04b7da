import SwiftTree.Grammar.Goal

/-!
# Types

A type is kept as a flat run of tokens.
-/

namespace SwiftTree.Grammar

namespace Test

def typeStart : Test :=
  kindIn [.atSign, .identifier, .leftParen, .leftSquare] |||
    keywordIn ["inout", "some", "any", "Any", "Self"]

/-- What may stand between the parameters of a function and its result. -/
def effect : Test :=
  keywordIn ["async", "throws", "rethrows"]

def optionalMark : Test :=
  kindIn [.questionMark, .exclamationMark] &&& glued

end Test

namespace Rule

/-- What may follow a name or group in a type: arguments and marks of an optional, and then a
member, another part of a composition, or the result of a function type. -/
def typeSuffix : Rule Goal :=
  steps [
    when (.kind .leftAngle &&& .glued) (angles "generic argument clause"),
    while_ .optionalMark shift,
    when (.operator "...") shift,
    choose ((.kind .period &&& .ahead 1 .word) ||| .operator "&") (steps [shift, again]) <|
      steps [
        while_ .effect shift,
        when (.kind .arrow) (steps [shift, again])]]

/-- A type that begins at the current token. -/
def typeRun : Rule Goal :=
  node .type <| loop <| steps [
    while_ (.kind .atSign) (steps [shift, when (.word &&& .glued) shift]),
    while_ (.keywordIn ["inout", "some", "any"]) shift,
    choose (.kind .identifier ||| .keywordIn ["Any", "Self"]) (steps [shift, typeSuffix]) <|
    choose (.kind .leftParen) (steps [parens "tuple type", typeSuffix]) <|
    when (.kind .leftSquare) (steps [squares "array type", typeSuffix])]

/-- A type, or a complaint that it is missing. -/
def requiredType (place : String) : Rule Goal :=
  choose .typeStart typeRun <|
  missing ("expected type in " ++ place) "insert type" " <#type#>"

end Rule

end SwiftTree.Grammar
