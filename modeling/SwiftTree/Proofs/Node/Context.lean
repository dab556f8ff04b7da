import SwiftTree.Mutation.Basic
import SwiftTree.Proofs.Node.Sites

/-!
# Nodes with a gap

A context is a node with a gap among the children of one of its composites. It records the
composites from the node down to the parent of the gap, with the children on both sides at each
level, so all of the node that lies outside the gap is part of the context. Each node below the root
is what fills the gap of a context, and changing it or its siblings fills the same gap with other
nodes. A trail to a node can always be followed once more, so none of these changes fails.
-/

namespace SwiftTree

/-- Nodes put into a list at an index. -/
def insertNodes (nodes : List Node) (index : Nat) (siblings : List Node) : List Node :=
  siblings.take index ++ nodes ++ siblings.drop index

namespace Node

/-- The node with another node at the end of a trail. -/
def replaceAt : Node → Trail → Node → Node
  | _, [], new => new
  | token t, _ :: _, _ => token t
  | composite kind children, index :: rest, new =>
    composite kind (children.modify index (replaceAt · rest new))

/-- The node with the siblings of the node at the end of a trail changed. The change is given the
index of that node among them. -/
def modifySiblings (change : Nat → List Node → List Node) : Node → Trail → Node
  | node, [] => node
  | token t, _ :: _ => token t
  | composite kind children, [index] => composite kind (change index children)
  | composite kind children, index :: next :: rest =>
    composite kind (children.modify index (modifySiblings change · (next :: rest)))

end Node

/-- A node with a gap among the children of one of its composites. -/
inductive Context
  /-- The gap is among the children of this composite. -/
  | parent (kind : NodeKind) (left right : List Node)
  /-- The gap is inside one of the children. -/
  | within (kind : NodeKind) (left : List Node) (inner : Context) (right : List Node)

namespace Context

def fill (nodes : List Node) : Context → Node
  | parent kind left right => .composite kind (left ++ nodes ++ right)
  | within kind left inner right => .composite kind (left ++ inner.fill nodes :: right)

/-- The trail to the first node in the gap. -/
def trail : Context → Trail
  | parent _ left _ => [left.length]
  | within _ left inner _ => left.length :: inner.trail

/-- The leaves to the left of the gap. -/
def before : Context → List Token
  | parent _ left _ => Node.leavesAll left
  | within _ left inner _ => Node.leavesAll left ++ inner.before

/-- The leaves to the right of the gap. -/
def after : Context → List Token
  | parent _ _ right => Node.leavesAll right
  | within _ _ inner right => inner.after ++ Node.leavesAll right

theorem exists_trail_eq_cons (context : Context) : ∃ index t, context.trail = index :: t := by
  cases context with
  | parent kind left right => exact ⟨_, _, rfl⟩
  | within kind left inner right => exact ⟨_, _, rfl⟩

theorem trail_ne_nil (context : Context) : context.trail ≠ [] := by
  obtain ⟨index, t, htrail⟩ := context.exists_trail_eq_cons
  simp [htrail]

theorem leaves_fill (context : Context) (nodes : List Node) :
    (context.fill nodes).leaves = context.before ++ Node.leavesAll nodes ++ context.after := by
  induction context with
  | parent kind left right => simp [fill, before, after]
  | within kind left inner right ih => simp [fill, before, after, ih]

theorem render_fill (context : Context) (nodes : List Node) :
    (context.fill nodes).render =
      Token.renderAll context.before ++ Node.renderAll nodes ++ Token.renderAll context.after := by
  rw [Node.render_eq_leaves, leaves_fill, Token.renderAll_append, Token.renderAll_append,
    Node.renderAll_eq_leavesAll]

end Context

namespace Node

theorem utf8ByteSize_renderAll_leavesAll (nodes : List Node) :
    (Token.renderAll (leavesAll nodes)).utf8ByteSize = widthAll nodes := by
  rw [← renderAll_eq_leavesAll, utf8ByteSize_renderAll]

/-- Every node below another one fills the gap of a context, and the text in front of the gap is as
long as the offset of the node. -/
theorem Holds.exists_context {node inner : Node} {index offset : Nat} {t : Trail}
    (h : node.Holds (index :: t) offset inner) :
    ∃ context : Context, context.trail = index :: t ∧ node = context.fill [inner] ∧
      (Token.renderAll context.before).utf8ByteSize = offset := by
  induction t generalizing node index offset with
  | nil =>
    obtain ⟨child, inside, found, here, rfl⟩ := holds_cons_iff.mp h
    obtain ⟨left, right, split, rfl⟩ := exists_split found
    obtain ⟨rfl, rfl⟩ := holds_nil_iff.mp here
    cases node with
    | token t => simp [children] at split
    | composite kind nodes =>
      obtain rfl : nodes = left ++ child :: right := split
      refine ⟨.parent kind left right, rfl, by simp [Context.fill], ?_⟩
      rw [children, List.take_left, Context.before, utf8ByteSize_renderAll_leavesAll, Nat.add_zero]
  | cons next t ih =>
    obtain ⟨child, inside, found, here, rfl⟩ := holds_cons_iff.mp h
    obtain ⟨left, right, split, rfl⟩ := exists_split found
    obtain ⟨context, htrail, rfl, hoffset⟩ := ih here
    cases node with
    | token t => simp [children] at split
    | composite kind nodes =>
      obtain rfl : nodes = left ++ context.fill [inner] :: right := split
      refine ⟨.within kind left context right, by rw [Context.trail, htrail], rfl, ?_⟩
      rw [children, List.take_left, Context.before, Token.renderAll_append,
        String.utf8ByteSize_append, utf8ByteSize_renderAll_leavesAll, hoffset]

/-- The text of a node is that of each node below it between two other texts, of which the first is
as long as the offset says. -/
theorem Holds.exists_render_split {node inner : Node} {offset : Nat} {t : Trail}
    (h : node.Holds t offset inner) :
    ∃ before after, node.render = before ++ inner.render ++ after ∧
      before.utf8ByteSize = offset := by
  cases t with
  | nil =>
    obtain ⟨rfl, rfl⟩ := holds_nil_iff.mp h
    exact ⟨"", "", by simp, rfl⟩
  | cons index t =>
    obtain ⟨context, -, rfl, size⟩ := h.exists_context
    refine ⟨Token.renderAll context.before, Token.renderAll context.after, ?_, size⟩
    rw [context.render_fill, renderAll, renderAll, String.append_empty]

def leavesBefore : Node → Trail → List Token
  | composite _ children, index :: t =>
    leavesAll (children.take index) ++ children[index]?.elim [] (leavesBefore · t)
  | _, _ => []

def leavesAfter : Node → Trail → List Token
  | composite _ children, index :: t =>
    children[index]?.elim [] (leavesAfter · t) ++ leavesAll (children.drop (index + 1))
  | _, _ => []

theorem modify_middle (change : Node → Node) (left right : List Node) (node : Node) :
    (left ++ node :: right).modify left.length change = left ++ change node :: right := by
  induction left with
  | nil => rfl
  | cons first left ih => simp [ih]

end Node

namespace Context

theorem leavesBefore_fill (context : Context) (node : Node) :
    (context.fill [node]).leavesBefore context.trail = context.before := by
  induction context with
  | parent kind left right => simp [fill, trail, before, Node.leavesBefore]
  | within kind left inner right ih => simp [fill, trail, before, Node.leavesBefore, ih]

theorem leavesAfter_fill (context : Context) (node : Node) :
    (context.fill [node]).leavesAfter context.trail = context.after := by
  induction context with
  | parent kind left right => simp [fill, trail, after, Node.leavesAfter]
  | within kind left inner right ih => simp [fill, trail, after, Node.leavesAfter, ih]

/-- Replacing the node in a gap leaves the context as it is. -/
theorem replaceAt_fill (context : Context) (old new : Node) :
    (context.fill [old]).replaceAt context.trail new = context.fill [new] := by
  induction context with
  | parent kind left right =>
    rw [fill, List.append_assoc, List.singleton_append, trail, Node.replaceAt, Node.modify_middle,
      Node.replaceAt, fill, List.append_assoc, List.singleton_append]
  | within kind left inner right ih =>
    rw [fill, trail, Node.replaceAt, Node.modify_middle, ih, fill]

/-- So does a change of the siblings that only puts other nodes in the place of one. -/
theorem modifySiblings_fill {change : Nat → List Node → List Node} {old : Node} {new : List Node}
    (exchange : ∀ left right, change left.length (left ++ [old] ++ right) = left ++ new ++ right)
    (context : Context) :
    (context.fill [old]).modifySiblings change context.trail = context.fill new := by
  induction context with
  | parent kind left right => rw [fill, trail, Node.modifySiblings, exchange, fill]
  | within kind left inner right ih =>
    obtain ⟨next, rest, htrail⟩ := inner.exists_trail_eq_cons
    rw [fill, trail, htrail, Node.modifySiblings, Node.modify_middle, ← htrail, ih, fill]

/-- The way from the top down to the gap can be followed once more: a rebuild does not fail if the
change of the children does not. -/
theorem rebuild_fill {change : Nat → List Node → Except Impossibility (List Node)} {old : Node}
    {new : List Node}
    (exchange : ∀ left right, change left.length (left ++ [old] ++ right) =
      .ok (left ++ new ++ right))
    (context : Context) :
    ∃ index, context.trail.getLast? = some index ∧
      (context.fill [old]).rebuild (change index) context.trail.dropLast =
        .ok (context.fill new) := by
  induction context with
  | parent kind left right =>
    refine ⟨left.length, rfl, ?_⟩
    rw [fill, trail, List.dropLast_singleton, Node.rebuild, exchange, fill]
    rfl
  | within kind left inner right ih =>
    obtain ⟨index, last, rebuilt⟩ := ih
    refine ⟨index, by rw [trail, List.getLast?_cons, last]; rfl, ?_⟩
    rw [fill, trail, List.dropLast_cons_of_ne_nil inner.trail_ne_nil, Node.rebuild,
      List.getElem?_append_right (Nat.le_refl _), Nat.sub_self, List.getElem?_cons_zero]
    simp [rebuilt, bind, Except.bind, pure, Except.pure, fill]

end Context

end SwiftTree
