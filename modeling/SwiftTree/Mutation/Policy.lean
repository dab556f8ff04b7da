import SwiftTree.Node.Basic

/-!
# Which nodes may stand where

A token is replaced by a token only, and a composite by one of a compatible role. Lists of items
accept items of their own sort, and every other node accepts tokens.
-/

namespace SwiftTree

/-- Why a node may not stand at a place. -/
inductive Refusal
  | notAToken
  | tokenFor (target : String)
  | nestedSourceFile
  | kindFor (replacement target : String)
  | categoryFor (replacement target : NodeCategory)
  | noParent
  | noSiblings
  | notAccepted (parent : NodeKind) (expected node : String)
  deriving DecidableEq, Repr

namespace Refusal

def message : Refusal → String
  | notAToken => "replacement node is not a token"
  | tokenFor target => "a token cannot replace a " ++ target
  | nestedSourceFile => "a source file cannot be nested"
  | kindFor replacement target => "a " ++ replacement ++ " cannot replace a " ++ target
  | categoryFor replacement target =>
    "a " ++ replacement.description ++ " cannot replace a " ++ target.description
  | noParent => "the root has no parent"
  | noSiblings => "the root has no siblings"
  | notAccepted parent expected node =>
    "a " ++ parent.description ++ " accepts only " ++ expected ++ ", not a " ++ node

end Refusal

/-- What a node with some kind may have as further children, and how that is called. -/
def NodeKind.accepts (parent : NodeKind) (node : Node) : Bool × String :=
  match parent with
  | .codeBlockItemList => (node.category.isCodeItem, "declarations, statements and expressions")
  | .memberBlockItemList => (node.category == .declaration, "declarations")
  | .switchCaseList => (node.kind? == some .switchCase, "switch cases")
  | _ => (node.isToken, "tokens")

def checkAccepted (parent : Option NodeKind) (node : Node) : Except Refusal Unit :=
  match parent with
  | none => .error .noParent
  | some kind =>
    let (accepted, expected) := kind.accepts node
    if accepted then .ok () else .error (.notAccepted kind expected node.description)

def checkInsertion (parent : Option NodeKind) (nodes : List Node) : Except Refusal Unit :=
  nodes.forM (checkAccepted parent)

structure ReplacementPolicy where
  /-- Whether declarations, statements and expressions may replace one another among the items of a
  code block. -/
  allowItemSwap : Bool := true
  deriving DecidableEq, Repr

namespace ReplacementPolicy

def check (policy : ReplacementPolicy) (parent : Option NodeKind) (target replacement : Node) :
    Except Refusal Unit :=
  match target.category, replacement.category with
  | .token, .token => .ok ()
  | .token, _ => .error .notAToken
  | _, .token => .error (.tokenFor target.description)
  | _, .sourceFile => .error .nestedSourceFile
  | .sourceFile, _ => .error .nestedSourceFile
  | .unexpected, _ => checkAccepted parent replacement
  | .clause, _ | .list, _ =>
    if target.kind? = replacement.kind? then .ok ()
    else .error (.kindFor replacement.description target.description)
  | old, new =>
    if old = new then .ok ()
    else if policy.allowItemSwap && parent == some .codeBlockItemList && old.isCodeItem &&
        new.isCodeItem then .ok ()
    else .error (.categoryFor new old)

end ReplacementPolicy

end SwiftTree
