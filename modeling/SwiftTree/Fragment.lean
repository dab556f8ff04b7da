import SwiftTree.Parse

/-!
# Fragments

A fragment is a piece of code that is parsed on its own, to be put into a tree. It must be free of
errors. The trivia at its end goes to its last token, so a fragment renders as it was written.
-/

namespace SwiftTree

inductive FragmentError
  | empty
  | wrongShape (expected : String) (found : Nat)
  | invalid (message : String)
  deriving DecidableEq, Repr

namespace FragmentError

def message : FragmentError → String
  | empty => "fragment is empty"
  | wrongShape expected found =>
    "expected exactly one " ++ expected ++ ", found " ++ toString found
  | invalid message => "fragment does not parse: " ++ message

end FragmentError

/-- The list of items that a fragment is to stand in. -/
inductive FragmentContext
  | codeBlock
  | members
  deriving DecidableEq, Repr

namespace FragmentContext

def items : FragmentContext → Grammar.ItemContext
  | codeBlock => .codeBlock
  | members => .members

/-- What the fragment is said to stand in. -/
def owner : FragmentContext → NodeKind
  | codeBlock => .codeBlock
  | members => .memberBlock

end FragmentContext

namespace Fragment

/-- Gives the trivia at the end of a fragment to the last of its nodes. -/
def close (nodes : List Node) (trivia : Trivia) : Except FragmentError (List Node) :=
  match nodes.getLast? with
  | some last => .ok (nodes.dropLast ++ [last.appendTrailing trivia])
  | none => .error .empty

def endTrivia (tokens : List Token) : Trivia :=
  (tokens.getLast?.map Token.leading).getD []

def tokens (text : String) : Except FragmentError (List Node) :=
  let tokens := lex text
  match lexDiagnostics tokens with
  | diagnostic :: _ => .error (.invalid diagnostic.message)
  | [] => close (tokens.dropLast.map Node.token) (endTrivia tokens)

def token (text : String) : Except FragmentError Node := do
  match ← tokens text with
  | [node] => return node
  | nodes => throw (.wrongShape "token" nodes.length)

def items (context : FragmentContext) (text : String) : Except FragmentError (List Node) :=
  let tokens := lex text
  let parsed := Grammar.parseItems context.items context.owner tokens
  let reported := parsed.reports.toList.map fun report => report.diagnostic
  match lexDiagnostics tokens ++ reported with
  | diagnostic :: _ => .error (.invalid diagnostic.message)
  | [] =>
    match parsed.rest with
    | token :: _ :: _ => .error (.invalid ("unexpected '" ++ token.text ++ "' in fragment"))
    | rest => close (parsed.children.toList.flatMap Node.children) (endTrivia rest)

def expression (text : String) : Except FragmentError Node := do
  match ← items .codeBlock text with
  | [.composite .expressionStmt [expression]] => return expression
  | [_] => throw (.wrongShape "expression" 0)
  | nodes => throw (.wrongShape "expression" nodes.length)

end Fragment

end SwiftTree
