import SwiftTree.Grammar.Declaration
import SwiftTree.Grammar.Run
import SwiftTree.Grammar.Statement

/-!
# The Swift grammar

The rule for each goal. A list of items takes declarations and statements one after the other; a
semicolon belongs to the item in front of it. Among members only declarations are expected, and
everything else up to the next declaration or line is set aside.
-/

namespace SwiftTree.Grammar

namespace ItemContext

/-- The kind of the node that holds the items. -/
def listKind : ItemContext → NodeKind
  | members => .memberBlockItemList
  | _ => .codeBlockItemList

/-- Whether there may be another item. -/
def goesOn : ItemContext → Test
  | topLevel => ~~~.atEnd
  | switchCase => ~~~(.kindIn [.rightBrace, .endOfFile] ||| .switchLabel)
  | _ => ~~~.kindIn [.rightBrace, .endOfFile]

/-- Where code is found that cannot be placed. -/
def phrase (context : ItemContext) (owner : NodeKind) : String :=
  if context = topLevel then "at top level" else "in " ++ owner.description

end ItemContext

namespace Rule

/-- A brace that closes nothing. -/
def extraneousBrace : Rule Goal :=
  steps [
    report {
      message := "extraneous '\x7d' at top level"
      place := .current
      remedies := [.remove "remove '\x7d'"]
      subject := some .unexpectedNodes },
    node .unexpectedNodes shift]

/-- What stands among members and declares nothing. -/
def nonMember (owner : NodeKind) : Rule Goal :=
  recover {
    stop := .lineStart ||| .declarationStart true
    phrase := "in " ++ owner.description
    suggests := true }

def item (context : ItemContext) (owner : NodeKind) : Rule Goal :=
  choose (.declarationStart (context == .members)) declaration <|
  match context with
  | .topLevel =>
    choose (.kind .rightBrace) extraneousBrace (statement (context.phrase owner))
  | .members => nonMember owner
  | _ => statement (context.phrase owner)

def items (context : ItemContext) (owner : NodeKind) : Rule Goal :=
  node context.listKind <| while_ context.goesOn <|
    choose (.kind .semicolon) attach (item context owner)

end Rule

def swift : Goal → Rule Goal
  | .items context owner => .items context owner
  | .group label => .group label
  | .angles label => .angleGroup label
  | .parameters => .parameters
  | .cases => .switchCases
  | .conditional => .conditional

/-- Parses tokens as the items of a block. The list of items is the only child in the resulting
state. -/
def parseItems (context : ItemContext) (owner : NodeKind) (tokens : List Token) : State :=
  pursue swift (tokens.length + 1) (.items context owner) (State.start .sourceFile tokens)

end SwiftTree.Grammar
