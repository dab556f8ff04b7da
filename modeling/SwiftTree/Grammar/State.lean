import SwiftTree.Grammar.Rule
import SwiftTree.Grammar.Suggestion
import SwiftTree.Tree

/-!
# The state of parsing

The state holds the tokens that are left, the node that is being built, and what has been reported
so far. A token leaves the input only by becoming a leaf of that node, and the token that marks the
end is never taken.

A report may be about a node that starts at an offset. Which node that is, is known only when the
tree is complete.
-/

namespace SwiftTree.Grammar

/-- A diagnostic together with the kind and offset of the node that it is about. -/
structure Report where
  diagnostic : Diagnostic
  subject : Option (NodeKind × Nat) := none
  deriving Repr

/-- The diagnostic of a report, with the node that it is about looked up among the nodes of a
tree. -/
def Report.resolve (report : Report) (sites : List Site) : Diagnostic :=
  match report.subject with
  | none => report.diagnostic
  | some (kind, offset) =>
    match Site.lastComposite? sites kind offset with
    | some trail => { report.diagnostic with node := some trail }
    | none => report.diagnostic

/-- The diagnostics of reports on a tree. Its nodes are listed only if there is a report. -/
def Report.resolveAll (tree : Tree) : List Report → List Diagnostic
  | [] => []
  | report :: rest =>
    let sites := tree.sites
    (report :: rest).map fun report => report.resolve sites

/-- The state between two steps of a rule. -/
structure State where
  /-- The token taken last. -/
  last : Option Token
  /-- The tokens that are left. -/
  rest : List Token
  /-- The number of tokens taken. -/
  taken : Nat
  /-- The byte offset at which the tokens that are left start. -/
  offset : Nat
  /-- The byte offset at which the text of the token taken last ends. -/
  contentEnd : Nat
  /-- The kind of the node that is being built. -/
  kind : NodeKind
  /-- The children of the node that is being built. -/
  children : Array Node
  /-- The reports so far. -/
  reports : Array Report
  /-- Whether another round of the innermost loop was asked for. -/
  again : Bool
  deriving Repr

namespace State

/-- The state in which nothing has been taken. -/
def start (kind : NodeKind) (tokens : List Token) : State where
  last := none
  rest := tokens
  taken := 0
  offset := 0
  contentEnd := 0
  kind
  children := #[]
  reports := #[]
  again := false

/-- Removes the current token from the input. There is none to remove at the end. -/
def take? (s : State) : Option (Token × State) :=
  match s.rest with
  | [] => none
  | token :: rest =>
    if token.isEnd then none
    else some (token,
      { s with
        last := some token
        rest
        taken := s.taken + 1
        offset := s.offset + token.width
        contentEnd := s.offset + (token.leading.width + token.text.utf8ByteSize) })

def push (s : State) (node : Node) : State :=
  { s with children := s.children.push node }

/-- Takes the current token as a child. -/
def shift (s : State) : State :=
  match s.take? with
  | some (token, s) => s.push (.token token)
  | none => s

/-- Takes a number of tokens as children. -/
def shiftMany : Nat → State → State
  | 0, s => s
  | count + 1, s => shiftMany count s.shift

/-- Takes the current token into the child built last. Where there is no composite to take it into,
it is set aside. -/
def attach (s : State) : State :=
  match s.take? with
  | none => s
  | some (token, s) =>
    match s.children.back? with
    | some (.composite kind children) =>
      { s with children := s.children.pop.push (.composite kind (children ++ [.token token])) }
    | _ => s.push (.composite .unexpectedNodes [.token token])

/-- Begins a node inside the one that is being built. -/
def enter (s : State) (kind : NodeKind) : State :=
  { s with kind, children := #[] }

/-- Ends a node that was begun in `outer` and has been built in `inner`. -/
def leave (outer inner : State) : State :=
  { inner with
    kind := outer.kind
    children := outer.children.push (.composite inner.kind inner.children.toList) }

def say (s : State) (report : Report) : State :=
  { s with reports := s.reports.push report }

def contentStart (s : State) : Nat :=
  s.offset + (s.rest.head?.map fun token => token.leading.width).getD 0

def contentWidth (s : State) : Nat :=
  (s.rest.head?.map fun token => token.text.utf8ByteSize).getD 0

/-- The fix-it for a remedy of a complaint that is placed at an offset. -/
def fixIt (s : State) (offset : Nat) : Remedy → FixIt
  | .insert message newText => .insert message offset newText
  | .remove message => .delete message s.contentStart (s.contentStart + s.contentWidth)

def complain (s : State) (complaint : Complaint) : State :=
  let offset :=
    match complaint.place with
    | .afterLast => s.contentEnd
    | .current => s.contentStart
  s.say {
    diagnostic := {
      message := complaint.message
      offset := some offset
      fixIts := complaint.remedies.map (s.fixIt offset) }
    subject := complaint.subject.map fun kind => (kind, s.offset) }

/-- Takes the closing bracket, or reports that it is missing. The opening bracket stands at the
given offset. -/
def close (s : State) (bracket : Bracket) (label : String) (openedAt : Nat) : State :=
  if currentKind s.rest = bracket.closingKind then s.shift
  else
    s.say {
      diagnostic := {
        message := "expected '" ++ bracket.closing ++ "' to end " ++ label
        offset := some s.contentEnd
        fixIts := [.insert ("insert '" ++ bracket.closing ++ "'") s.contentEnd bracket.insertion]
        notes := [⟨"to match this opening '" ++ bracket.opening ++ "'", some openedAt, none⟩] } }

/-- Whether a token opens a bracket that tokens are set aside up to the end of. -/
def opensGroup (token : Token) : Bool :=
  [TokenKind.leftParen, .leftSquare, .leftBrace].contains token.kind

def closesGroup (token : Token) : Bool :=
  [TokenKind.rightParen, .rightSquare, .rightBrace].contains token.kind

/-- The tokens to set aside, inside a number of brackets: up to a token where the grammar can go on,
or a closing bracket that was not opened among them. A forced token is set aside in any case. -/
def misplaced (stop : Test) (last : Option Token) (forced : Bool) (depth : Nat) :
    List Token → List Token
  | [] => []
  | token :: rest =>
    if token.isEnd then []
    else if !forced && depth == 0 && stop.holds last (token :: rest) then []
    else if opensGroup token then token :: misplaced stop (some token) false (depth + 1) rest
    else if closesGroup token then
      if depth == 0 && !forced then []
      else token :: misplaced stop (some token) false (depth - 1) rest
    else token :: misplaced stop (some token) false depth rest

/-- The fix-its for tokens that are set aside: the first of them may be a misspelled keyword. -/
def suggestions (s : State) : List FixIt :=
  match s.rest with
  | token :: _ =>
    if token.kind = .identifier then
      match suggestKeyword? token.text with
      | some keyword =>
        [.replace ("replace '" ++ token.text ++ "' with '" ++ keyword ++ "'") s.contentStart
          (s.contentStart + s.contentWidth) keyword]
      | none => []
    else []
  | [] => []

/-- Sets aside tokens that fit nowhere, and reports them as unexpected code. -/
def recover (s : State) (recovery : Recovery) : State :=
  match (misplaced recovery.stop s.last recovery.forced 0 s.rest).length with
  | 0 => s
  | count + 1 =>
    let inner := shiftMany (count + 1) (s.enter .unexpectedNodes)
    let node := Node.composite .unexpectedNodes inner.children.toList
    (s.leave inner).say {
      diagnostic := {
        message := "unexpected code '" ++ node.contentText ++ "' " ++ recovery.phrase
        offset := some s.offset
        fixIts := if recovery.suggests then s.suggestions else [] }
      subject := some (.unexpectedNodes, s.offset) }

end State

end SwiftTree.Grammar
