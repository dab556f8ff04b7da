import SwiftTree.Addressing
import SwiftTree.Documentation
import SwiftTree.Mutation.Policy

/-!
# Mutations

A mutation makes a new tree from a tree: it replaces or deletes the node at an address, inserts
nodes next to it, or changes the documentation of a token. The address is resolved before anything
else is checked. All of the tree outside the changed place stays as it is.
-/

namespace SwiftTree

/-- Why a tree cannot be changed in some way at all. -/
inductive Impossibility
  | rootReplaced
  | rootDeleted
  | nothingToInsert
  /-- The way to the place to be changed leads past the children of a node. -/
  | noChild (index : Nat)
  /-- The way to the place to be changed leads into a token. -/
  | childrenOfToken
  deriving DecidableEq, Repr

namespace Impossibility

def message : Impossibility → String
  | rootReplaced => "the root cannot be replaced"
  | rootDeleted => "the root cannot be deleted"
  | nothingToInsert => "nothing to insert"
  | noChild index => "child index " ++ toString index ++ " is out of range"
  | childrenOfToken => "cannot edit the children of a token"

end Impossibility

inductive MutationError
  | nodeNotFound (path : String)
  | invalidInsertionPoint (refusal : Refusal)
  | invalidReplacement (refusal : Refusal)
  | modificationFailed (impossibility : Impossibility)
  deriving DecidableEq, Repr

namespace MutationError

/-- The reason of a failure without its kind. -/
def reason : MutationError → String
  | nodeNotFound path => "no node at path '" ++ path ++ "'"
  | invalidInsertionPoint refusal => refusal.message
  | invalidReplacement refusal => refusal.message
  | modificationFailed impossibility => impossibility.message

def message (error : MutationError) : String :=
  match error with
  | nodeNotFound _ => error.reason
  | invalidInsertionPoint _ => "invalid insertion point: " ++ error.reason
  | invalidReplacement _ => "invalid replacement: " ++ error.reason
  | modificationFailed _ => "tree modification failed: " ++ error.reason

end MutationError

inductive InsertPosition
  | before
  | after
  deriving DecidableEq, Repr

namespace InsertPosition

def name : InsertPosition → String
  | before => "before"
  | after => "after"

/-- The index at which nodes are inserted next to the child at an index. -/
def slot (index : Nat) : InsertPosition → Nat
  | before => index
  | after => index + 1

end InsertPosition

namespace Node

/-- The node with the children of the composite at the end of a trail changed. The trail is followed
anew from the top. -/
def rebuild (change : List Node → Except Impossibility (List Node)) :
    Node → Trail → Except Impossibility Node
  | token _, _ => throw .childrenOfToken
  | composite kind children, [] => return composite kind (← change children)
  | composite kind children, index :: rest => do
    match children[index]? with
    | some child => return composite kind (children.set index (← rebuild change child rest))
    | none => throw (.noChild index)

/-- The children with another node at an index. -/
def setChild (new : Node) (index : Nat) (children : List Node) :
    Except Impossibility (List Node) :=
  if index < children.length then return children.set index new else throw (.noChild index)

def removeChild (index : Nat) (children : List Node) : Except Impossibility (List Node) :=
  if index < children.length then return children.eraseIdx index else throw (.noChild index)

/-- The children with nodes put in at an index. -/
def insertChildren (nodes : List Node) (index : Nat) (children : List Node) :
    Except Impossibility (List Node) :=
  if index ≤ children.length then return children.take index ++ nodes ++ children.drop index
  else throw (.noChild index)

/-- The node with another node at the end of a trail. -/
def exchange (node : Node) (trail : Trail) (new : Node) : Except Impossibility Node :=
  match trail.getLast? with
  | some index => node.rebuild (setChild new index) trail.dropLast
  | none => return new

mutual

def firstTokenTrail? : Node → Option Trail
  | token _ => some []
  | composite _ children => firstTokenTrailAll? 0 children

def firstTokenTrailAll? (index : Nat) : List Node → Option Trail
  | [] => none
  | node :: rest =>
    match firstTokenTrail? node with
    | some trail => some (index :: trail)
    | none => firstTokenTrailAll? (index + 1) rest

end

end Node

namespace Tree

def withRoot (tree : Tree) (root : Node) : Tree :=
  { tree with root }

def withChanged (tree : Tree) (root : Except Impossibility Node) : Except MutationError Tree :=
  (root.map tree.withRoot).mapError .modificationFailed

def resolve (tree : Tree) (address : Address) : Except MutationError Site :=
  match tree.resolve? address with
  | some site => .ok site
  | none => .error (.nodeNotFound address.path.text)

def replace (policy : ReplacementPolicy) (tree : Tree) (address : Address) (new : Node) :
    Except MutationError Tree := do
  let target ← tree.resolve address
  if target.trail.isEmpty then throw (.modificationFailed .rootReplaced)
  match policy.check (tree.parentKind? target.trail) target.node new with
  | .ok () => tree.withChanged (tree.root.exchange target.trail new)
  | .error refusal => throw (.invalidReplacement refusal)

/-- Deletes the node at an address, and returns its text with all its trivia. -/
def delete (tree : Tree) (address : Address) : Except MutationError (String × Tree) := do
  let target ← tree.resolve address
  match target.trail.getLast? with
  | none => throw (.modificationFailed .rootDeleted)
  | some index =>
    let root := tree.root.rebuild (Node.removeChild index) target.trail.dropLast
    return (target.node.render, ← tree.withChanged root)

def insert (tree : Tree) (nodes : List Node) (address : Address) (position : InsertPosition) :
    Except MutationError Tree := do
  let target ← tree.resolve address
  if nodes.isEmpty then throw (.modificationFailed .nothingToInsert)
  match target.trail.getLast? with
  | none => throw (.invalidInsertionPoint .noSiblings)
  | some index =>
    match checkInsertion (tree.parentKind? target.trail) nodes with
    | .ok () =>
      let change := Node.insertChildren nodes (position.slot index)
      tree.withChanged (tree.root.rebuild change target.trail.dropLast)
    | .error refusal => throw (.invalidInsertionPoint refusal)

/-- The line break that new lines are written with: a carriage return and a line feed if any line
of the tree ends so. -/
def newline (tree : Tree) : String :=
  let ends (token : Token) :=
    token.leading.any fun piece => piece.isNewline && piece.text == "\r\n"
  if tree.root.leaves.any ends then "\r\n" else "\n"

/-- Whether a token begins a line, given the offset that it stands at. -/
def startsLine (offset : Nat) (token : Token) : Bool :=
  offset == 0 || token.leading.breaksLine

/-- Sets the documentation of the token at an address, or removes it if the text is blank or
missing. -/
def documentToken (tree : Tree) (address : Address) (text : Option String) :
    Except MutationError Tree := do
  let target ← tree.resolve address
  match target.node with
  | .composite _ _ => throw (.nodeNotFound address.path.text)
  | .token token =>
    let leading := Documentation.setDocumentation token.leading text tree.newline
      (startsLine target.offset token)
    tree.withChanged (tree.root.exchange target.trail (.token { token with leading }))

/-- Sets the documentation of the node at an address, which is that of its first token. -/
def document (tree : Tree) (address : Address) (text : Option String) :
    Except MutationError Tree := do
  match address.scheme with
  | .token => tree.documentToken address text
  | .declaration =>
    let target ← tree.resolve address
    let first := target.node.firstTokenTrail?.bind fun trail =>
      tree.compute? (target.trail ++ trail) .token
    match first with
    | some path => tree.documentToken ⟨.token, path⟩ text
    | none => throw (.nodeNotFound address.path.text)

end Tree

end SwiftTree
