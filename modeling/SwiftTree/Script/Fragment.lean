import SwiftTree.Fragment
import SwiftTree.Mutation.Basic

/-!
# Nodes from texts

A step of a script gives code as a text. The text is parsed for the place where it goes, and what
is written without trivia takes over trivia from its surroundings: a replacement from the node that
it replaces, an insertion from the node next to it.
-/

namespace SwiftTree

inductive StepFailure
  | mutation (error : MutationError)
  | fragment (error : FragmentError)
  /-- No text can be parsed to replace a node with this kind at its place. -/
  | unsupported (target : String)
  deriving DecidableEq, Repr

namespace StepFailure

def message : StepFailure → String
  | mutation error => error.message
  | fragment error => error.message
  | unsupported target => "cannot build a replacement for a " ++ target

end StepFailure

/-- The list of items that the children of a node are. -/
def itemContext? : Option NodeKind → Option FragmentContext
  | some .memberBlockItemList => some .members
  | some .codeBlockItemList => some .codeBlock
  | _ => none

namespace Node

/-- The node with the given leading trivia if it has none of its own. -/
def inheritLeading (node : Node) (trivia : Trivia) : Node :=
  if 0 < node.leadingWidth then node else node.withLeading trivia

end Node

namespace Token

/-- The token with the trivia of another one if it has none of its own. -/
def inheritTrivia (token old : Token) : Token :=
  if token.width = token.text.utf8ByteSize then
    { token with leading := old.leading, trailing := old.trailing }
  else token

end Token

namespace Tree

/-- The only item of a text, for a place among items. -/
def singleItem (context : FragmentContext) (text : String) : Except FragmentError Node := do
  match ← Fragment.items context text with
  | [item] => return item
  | items => throw (.wrongShape "item" items.length)

/-- The node that a text stands for in place of the node at an address. -/
def replacementFor (tree : Tree) (address : Address) (text : String) : Except StepFailure Node := do
  let target ← (tree.resolve address).mapError .mutation
  match target.node with
  | .token old =>
    match ← (Fragment.token text).mapError .fragment with
    | .token new => return .token (new.inheritTrivia old)
    | node => return node
  | old =>
    match itemContext? (tree.parentKind? target.trail) with
    | none => throw (.unsupported old.kindName)
    | some context =>
      return (← (singleItem context text).mapError .fragment).inheritLeading old.leading

/-- Tokens for a place after a node. They are kept apart from it by a blank. -/
def separate (anchor : Node) : List Node → List Node
  | first :: rest =>
    if anchor.trailingWidth = 0 then first.inheritLeading [.whitespace " "] :: rest
    else first :: rest
  | [] => []

/-- Items for a place in front of a node that begins the document: they end with a line break. -/
def endLine (items : List Node) : List Node :=
  match items.getLast? with
  | some last =>
    if last.trailingWidth = 0 then items.dropLast ++ [last.appendTrailing [.newline "\n"]]
    else items
  | none => items

/-- The nodes that a text stands for next to the node at an address. -/
def insertionFor (tree : Tree) (address : Address) (text : String) (position : InsertPosition) :
    Except StepFailure (List Node) := do
  let anchor ← (tree.resolve address).mapError .mutation
  match itemContext? (tree.parentKind? anchor.trail) with
  | none =>
    let tokens ← (Fragment.tokens text).mapError .fragment
    return if position = .after then separate anchor.node tokens else tokens
  | some context =>
    let leading := anchor.node.leading
    let items ← (Fragment.items context text).mapError .fragment
    let items := items.map fun item => item.inheritLeading leading
    return if position = .before && leading.isEmpty then endLine items else items

end Tree

end SwiftTree
