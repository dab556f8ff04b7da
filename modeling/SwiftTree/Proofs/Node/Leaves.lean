import SwiftTree.Tree

/-!
# The leaves of a node

Text and width of a node are determined by its leaves. The functions on nodes come in pairs, one for
a node and one for a list of nodes; the list functions turn appending of lists into appending or
adding of results, which is all that later arguments use of them.
-/

namespace SwiftTree

namespace Trivia

theorem render_append (as bs : Trivia) : render (as ++ bs) = render as ++ render bs := by
  induction as with
  | nil => simp [render]
  | cons piece rest ih => simp [render, ih, String.append_assoc]

end Trivia

namespace Token

def renderAll : List Token → String
  | [] => ""
  | token :: rest => token.render ++ renderAll rest

@[simp] theorem renderAll_nil : renderAll [] = "" := rfl

@[simp] theorem renderAll_cons (token : Token) (rest : List Token) :
    renderAll (token :: rest) = token.render ++ renderAll rest := rfl

@[simp] theorem renderAll_append (as bs : List Token) :
    renderAll (as ++ bs) = renderAll as ++ renderAll bs := by
  induction as with
  | nil => simp
  | cons token rest ih => simp [ih, String.append_assoc]

end Token

namespace Node

@[simp] theorem leavesAll_nil : leavesAll [] = [] := rfl

@[simp] theorem leavesAll_cons (node : Node) (rest : List Node) :
    leavesAll (node :: rest) = node.leaves ++ leavesAll rest := rfl

@[simp] theorem leaves_token (t : Token) : (token t).leaves = [t] := rfl

@[simp] theorem leaves_composite (kind : NodeKind) (children : List Node) :
    (composite kind children).leaves = leavesAll children := rfl

@[simp] theorem leavesAll_append (as bs : List Node) :
    leavesAll (as ++ bs) = leavesAll as ++ leavesAll bs := by
  induction as with
  | nil => rfl
  | cons node rest ih => simp [ih]

@[simp] theorem leavesAll_map_token (tokens : List Token) :
    leavesAll (tokens.map token) = tokens := by
  induction tokens with
  | nil => rfl
  | cons t rest ih => simp [ih]

@[simp] theorem widthAll_nil : widthAll [] = 0 := rfl

@[simp] theorem widthAll_cons (node : Node) (rest : List Node) :
    widthAll (node :: rest) = node.width + widthAll rest := rfl

mutual

/-- The text of a node is the text of its leaves. -/
theorem render_eq_leaves : (node : Node) → node.render = Token.renderAll node.leaves
  | token t => by simp [render]
  | composite _ children => by
    rw [render, leaves_composite, renderAll_eq_leavesAll children]

theorem renderAll_eq_leavesAll :
    (nodes : List Node) → renderAll nodes = Token.renderAll (leavesAll nodes)
  | [] => rfl
  | node :: rest => by
    rw [renderAll, leavesAll_cons, Token.renderAll_append, render_eq_leaves node,
      renderAll_eq_leavesAll rest]

end

end Node

end SwiftTree
