import SwiftTree.Diagnostic
import SwiftTree.Node.Kind
import SwiftTree.Text.Width
import SwiftTree.Token.Basic

/-!
# Nodes

A node is a token or a composite of a kind with children. The text of a composite is the text of
its children one after the other, so the leaves of a node, its tokens from left to right, determine
its text and its width.
-/

namespace SwiftTree

inductive Node
  | token (token : Token)
  | composite (kind : NodeKind) (children : List Node)
  deriving Repr

namespace Node

mutual

/-- Equality of nodes is decided by comparing them level by level. -/
def decEq : (a b : Node) → Decidable (a = b)
  | token s, token t => decidable_of_iff (s = t) (by simp)
  | token _, composite _ _ => isFalse nofun
  | composite _ _, token _ => isFalse nofun
  | composite j as, composite k bs =>
    match decEqAll as bs with
    | isTrue h => decidable_of_iff (j = k) (by simp [h])
    | isFalse h => isFalse (by simp [h])

def decEqAll : (as bs : List Node) → Decidable (as = bs)
  | [], [] => isTrue rfl
  | [], _ :: _ => isFalse nofun
  | _ :: _, [] => isFalse nofun
  | a :: as, b :: bs =>
    match decEq a b, decEqAll as bs with
    | isTrue h, isTrue t => isTrue (by rw [h, t])
    | isFalse h, _ => isFalse (by simp [h])
    | _, isFalse t => isFalse (by simp [t])

end

instance : DecidableEq Node := decEq

def isToken : Node → Bool
  | token _ => true
  | composite _ _ => false

def kind? : Node → Option NodeKind
  | token _ => none
  | composite kind _ => some kind

def children : Node → List Node
  | token _ => []
  | composite _ children => children

def category : Node → NodeCategory
  | token _ => .token
  | composite kind _ => kind.category

def isDeclaration (node : Node) : Bool :=
  node.category == .declaration

def kindName : Node → String
  | token t => t.kind.name
  | composite kind _ => kind.name

def description : Node → String
  | token _ => "token"
  | composite kind _ => kind.description

mutual

def leaves : Node → List Token
  | token t => [t]
  | composite _ children => leavesAll children

def leavesAll : List Node → List Token
  | [] => []
  | node :: rest => leaves node ++ leavesAll rest

end

mutual

/-- The text of a node with all its trivia. -/
def render : Node → String
  | token t => t.render
  | composite _ children => renderAll children

def renderAll : List Node → String
  | [] => ""
  | node :: rest => render node ++ renderAll rest

end

mutual

/-- The number of bytes of a node with all its trivia. -/
def width : Node → Nat
  | token t => t.width
  | composite _ children => widthAll children

def widthAll : List Node → Nat
  | [] => 0
  | node :: rest => width node + widthAll rest

end

mutual

def firstToken? : Node → Option Token
  | token t => some t
  | composite _ children => firstTokenAll? children

def firstTokenAll? : List Node → Option Token
  | [] => none
  | node :: rest => (firstToken? node).or (firstTokenAll? rest)

end

mutual

def lastToken? : Node → Option Token
  | token t => some t
  | composite _ children => lastTokenAll? children

def lastTokenAll? : List Node → Option Token
  | [] => none
  | node :: rest => (lastTokenAll? rest).or (lastToken? node)

end

def leading (node : Node) : Trivia :=
  (firstToken? node).elim [] Token.leading

def trailing (node : Node) : Trivia :=
  (lastToken? node).elim [] Token.trailing

def leadingWidth (node : Node) : Nat :=
  node.leading.width

def trailingWidth (node : Node) : Nat :=
  node.trailing.width

mutual

def mapFirst (f : Token → Token) : Node → Node
  | token t => token (f t)
  | composite kind children => composite kind (mapFirstAll f children)

def mapFirstAll (f : Token → Token) : List Node → List Node
  | [] => []
  | node :: rest =>
    if (firstToken? node).isSome then mapFirst f node :: rest else node :: mapFirstAll f rest

end

mutual

def mapLast (f : Token → Token) : Node → Node
  | token t => token (f t)
  | composite kind children => composite kind (mapLastAll f children)

def mapLastAll (f : Token → Token) : List Node → List Node
  | [] => []
  | node :: rest =>
    if (lastTokenAll? rest).isSome then node :: mapLastAll f rest else mapLast f node :: rest

end

def withLeading (node : Node) (trivia : Trivia) : Node :=
  node.mapFirst fun t => { t with leading := trivia }

/-- The node with more trivia after its last token. -/
def appendTrailing (node : Node) (trivia : Trivia) : Node :=
  node.mapLast fun t => { t with trailing := t.trailing ++ trivia }

/-- The byte offset, inside a node, at which the trivia after its last token begins, or at which
that in front of its first token ends if this comes later. -/
def contentStop (node : Node) : Nat :=
  max (node.render.utf8ByteSize - node.trailingWidth) node.leadingWidth

/-- The text of a node without the trivia around it, cut out of the text with all trivia. -/
def contentText (node : Node) : String :=
  (Text.between? node.render node.leadingWidth node.contentStop).getD ""

def at? : Node → Trail → Option Node
  | node, [] => some node
  | node, index :: rest => node.children[index]?.bind (at? · rest)

/-- The byte offset, inside a node, of the node at the end of a trail. -/
def offsetAt? : Node → Trail → Option Nat
  | _, [] => some 0
  | node, index :: rest => do
    let child ← node.children[index]?
    return widthAll (node.children.take index) + (← offsetAt? child rest)

mutual

theorem utf8ByteSize_render : (node : Node) → (render node).utf8ByteSize = width node
  | token t => by simp [render, width]
  | composite _ children => by simp [render, width, utf8ByteSize_renderAll children]

theorem utf8ByteSize_renderAll :
    (nodes : List Node) → (renderAll nodes).utf8ByteSize = widthAll nodes
  | [] => rfl
  | node :: rest => by
    simp [renderAll, widthAll, utf8ByteSize_render node, utf8ByteSize_renderAll rest]

end

end Node

/-- A node of a tree together with where it stands. The offset counts from the start of the tree
and includes the trivia in front of the node. -/
structure Site where
  node : Node
  trail : Trail
  offset : Nat
  deriving DecidableEq, Repr

namespace Site

def contentOffset (site : Site) : Nat :=
  site.offset + site.node.leadingWidth

/-- The trail of the last composite of a kind that starts at an offset. -/
def lastComposite? (sites : List Site) (kind : NodeKind) (offset : Nat) : Option Trail :=
  (sites.filter fun site => site.offset == offset && site.node.kind? == some kind).getLast?.map
    Site.trail

end Site

namespace Node

mutual

/-- All nodes of a node that stands at a trail and an offset, each before its children. -/
def sitesFrom (trail : Trail) (offset : Nat) : Node → List Site
  | token t => [⟨token t, trail, offset⟩]
  | composite kind children =>
    ⟨composite kind children, trail, offset⟩ :: sitesFromAll trail 0 offset children

/-- All nodes of the children of a node, the first of which has an index and an offset. -/
def sitesFromAll (trail : Trail) (index offset : Nat) : List Node → List Site
  | [] => []
  | node :: rest =>
    sitesFrom (trail ++ [index]) offset node ++
      sitesFromAll trail (index + 1) (offset + node.width) rest

end

def sites (node : Node) : List Site :=
  sitesFrom [] 0 node

end Node

end SwiftTree
