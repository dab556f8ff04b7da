import SwiftTree.Grammar.Test
import SwiftTree.Node.Kind

/-!
# Rules

A grammar is given by rules, and rules are data. A rule takes tokens into the node that is being
built, opens nodes inside it, complains about what is missing and sets aside what it cannot place.
Rules refer to one another by goals; a goal may lead back to itself only after a token has been
taken.

Because a rule is made of a few constructors, a law of parsing is proved once for all rules and not
for each construct of the language.
-/

namespace SwiftTree.Grammar

inductive Bracket
  | paren
  | square
  | angle
  | brace
  deriving DecidableEq, Repr

namespace Bracket

def openingKind : Bracket → TokenKind
  | paren => .leftParen
  | square => .leftSquare
  | angle => .leftAngle
  | brace => .leftBrace

def closingKind : Bracket → TokenKind
  | paren => .rightParen
  | square => .rightSquare
  | angle => .rightAngle
  | brace => .rightBrace

def opening : Bracket → String
  | paren => "("
  | square => "["
  | angle => "<"
  | brace => "\x7b"

def closing : Bracket → String
  | paren => ")"
  | square => "]"
  | angle => ">"
  | brace => "\x7d"

/-- What is inserted to close the bracket. A brace is closed on a line of its own. -/
def insertion : Bracket → String
  | paren => ")"
  | square => "]"
  | angle => ">"
  | brace => "\n\x7d"

end Bracket

/-- Where a complaint is placed. -/
inductive Place
  /-- Right after the text of the token taken last. -/
  | afterLast
  /-- At the text of the current token. -/
  | current
  deriving DecidableEq, Repr

/-- How a complaint may be remedied. -/
inductive Remedy
  /-- Insert a text at the place of the complaint. -/
  | insert (message newText : String)
  /-- Remove the current token. -/
  | remove (message : String)
  deriving DecidableEq, Repr

/-- Something to report. The subject is the kind of the node that starts at the current token. -/
structure Complaint where
  message : String
  place : Place := .afterLast
  remedies : List Remedy := []
  subject : Option NodeKind := none
  deriving DecidableEq, Repr

/-- How tokens that fit nowhere are set aside. -/
structure Recovery where
  /-- Where to go on with the grammar, outside of all brackets. -/
  stop : Test
  /-- Where the tokens were found, for the message. -/
  phrase : String
  /-- Whether the first token is set aside in any case. -/
  forced : Bool := true
  /-- Whether a misspelled keyword may be at fault. -/
  suggests : Bool := false
  deriving Repr

/-- A rule of a grammar with the given goals. -/
inductive Rule (Goal : Type)
  /-- Do nothing. -/
  | skip
  /-- Take the current token. -/
  | shift
  /-- Take the current token into the child built last. -/
  | attach
  /-- Set aside tokens that fit nowhere. -/
  | recover (recovery : Recovery)
  /-- Complain. -/
  | report (complaint : Complaint)
  /-- Change the kind of the node that is being built. -/
  | become (kind : NodeKind)
  /-- Build a node. -/
  | node (kind : NodeKind) (body : Rule Goal)
  /-- One rule after the other. -/
  | seq (first second : Rule Goal)
  /-- One rule or the other. -/
  | choose (test : Test) (yes no : Rule Goal)
  /-- Repeat a rule as long as it asks for it and takes tokens. -/
  | loop (body : Rule Goal)
  /-- Ask for another round of the innermost loop. -/
  | again
  /-- Pursue a goal, if a token has been taken since the current goal began. -/
  | call (goal : Goal)
  /-- Take an opening bracket, pursue a goal, and take the closing bracket or complain that it is
  missing. The label says what the brackets enclose. -/
  | delimited (bracket : Bracket) (label : String) (goal : Goal)
  deriving Repr

namespace Rule

variable {Goal : Type}

/-- Rules one after the other. -/
def steps (rules : List (Rule Goal)) : Rule Goal :=
  rules.foldr seq skip

/-- The rule if the test holds, and nothing otherwise. -/
def when (test : Test) (rule : Rule Goal) : Rule Goal :=
  choose test rule skip

/-- The rule again and again while the test holds. -/
def while_ (test : Test) (rule : Rule Goal) : Rule Goal :=
  loop (when test (seq rule again))

/-- The rule of the first keyword in the table that is the current token, or else another rule. -/
def dispatch (table : List (String × Rule Goal)) (otherwise : Rule Goal) : Rule Goal :=
  table.foldr (fun (word, rule) later => choose (.keyword word) rule later) otherwise

/-- Complain that something is missing after the token taken last, and offer to insert it. -/
def missing (message fix newText : String) : Rule Goal :=
  report { message, remedies := [.insert fix newText] }

end Rule

end SwiftTree.Grammar
