import SwiftTree.Node.Basic

/-!
# Trees

A tree is a root node with the identity of the document it stands for, usually a file name. Trails
and offsets are meaningful for one tree only: a changed tree is a different tree.
-/

namespace SwiftTree

structure Tree where
  identity : String
  root : Node
  deriving DecidableEq, Repr

namespace Tree

def render (tree : Tree) : String :=
  tree.root.render

def at? (tree : Tree) (trail : Trail) : Option Node :=
  tree.root.at? trail

def offsetAt? (tree : Tree) (trail : Trail) : Option Nat :=
  tree.root.offsetAt? trail

/-- All nodes of the tree, each before its children. -/
def sites (tree : Tree) : List Site :=
  tree.root.sites

/-- The kind of the node that holds the node at the end of a trail. -/
def parentKind? (tree : Tree) (trail : Trail) : Option NodeKind :=
  if trail.isEmpty then none else (tree.at? trail.dropLast).bind Node.kind?

/-- The trail of the innermost composite of a kind that starts at an offset. Of several that follow
one another without any text, it is the last. -/
def findComposite? (tree : Tree) (kind : NodeKind) (offset : Nat) : Option Trail :=
  Site.lastComposite? tree.sites kind offset

end Tree

end SwiftTree
