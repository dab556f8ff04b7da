import SwiftTree.Proofs.Node.Context
import SwiftTree.Proofs.Parse.Layout

/-!
# Where nodes stand

A list of items holds items and nothing else, items stand in such lists only, and the token that
marks the end stands below the root only. Which children a composite may have depends on its kind
alone, and of a child it matters only what kind it has, so trivia has no bearing on it. If all nodes
of a tree are in their places, they still are after a gap has been filled with other nodes that may
stand there.
-/

namespace SwiftTree

/-- What a composite has as children. -/
inductive Holding
  /-- The items of a document and the token that marks its end. -/
  | document
  /-- The items of a code block. -/
  | codeItems
  /-- The members of a type. -/
  | members
  /-- The cases of a switch. -/
  | switchCases
  /-- Tokens and composites that declare nothing. -/
  | parts
  deriving DecidableEq, Repr

def NodeKind.holding : NodeKind → Holding
  | .sourceFile => .document
  | .codeBlockItemList => .codeItems
  | .memberBlockItemList => .members
  | .switchCaseList => .switchCases
  | _ => .parts

namespace Node

/-- Whether the node is the token that marks the end. -/
def marksEnd : Node → Bool
  | token t => t.isEnd
  | composite _ _ => false

theorem marksEnd_bare (node : Node) : node.bare.marksEnd = node.marksEnd := by
  cases node with
  | token t => rw [bare_token]; rfl
  | composite kind children => rw [bare_composite]; rfl

end Node

namespace Holding

/-- Whether a composite with some kind may be a child. What was set aside may stand in every list of
items. -/
def admitsKind : Holding → NodeKind → Bool
  | document, kind => kind == .codeBlockItemList
  | codeItems, kind => kind.category.isCodeItem || kind == .unexpectedNodes
  | members, kind => kind.isDeclaration || kind == .unexpectedNodes
  | switchCases, kind => kind == .switchCase || kind == .unexpectedNodes
  | parts, kind => !kind.isDeclaration && kind != .sourceFile

def admitsToken : Holding → Token → Bool
  | document, t => t.isEnd
  | parts, t => !t.isEnd
  | _, _ => false

def admits (holding : Holding) : Node → Bool
  | .token t => holding.admitsToken t
  | .composite kind _ => holding.admitsKind kind

@[simp] theorem admits_token (holding : Holding) (t : Token) :
    holding.admits (.token t) = holding.admitsToken t := rfl

@[simp] theorem admits_composite (holding : Holding) (kind : NodeKind) (children : List Node) :
    holding.admits (.composite kind children) = holding.admitsKind kind := rfl

theorem admits_bare (holding : Holding) (node : Node) :
    holding.admits node.bare = holding.admits node := by
  cases node with
  | token t => rw [Node.bare_token]; cases holding <;> rfl
  | composite kind children => rw [Node.bare_composite]; rfl

/-- Items are made of parts. -/
theorem parts_of_item {holding : Holding} {kind : NodeKind}
    (items : holding = .codeItems ∨ holding = .members) (h : holding.admitsKind kind) :
    kind.holding = .parts := by
  obtain rfl | rfl := items
  · cases kind <;> first | rfl | cases h
  · cases kind <;> first | rfl | cases h

/-- Only lists of items hold declarations. -/
theorem items_of_declaration {kind inner : NodeKind} (h : kind.holding.admitsKind inner)
    (declares : inner.isDeclaration) :
    kind = .codeBlockItemList ∨ kind = .memberBlockItemList := by
  cases kind with
  | codeBlockItemList => exact .inl rfl
  | memberBlockItemList => exact .inr rfl
  | sourceFile =>
    obtain rfl : inner = .codeBlockItemList := by simpa [NodeKind.holding, admitsKind] using h
    cases declares
  | switchCaseList =>
    obtain rfl | rfl : inner = .switchCase ∨ inner = .unexpectedNodes := by
      simpa [NodeKind.holding, admitsKind] using h
    · cases declares
    · cases declares
  | _ => simp [NodeKind.holding, admitsKind, declares] at h

/-- Where a declaration may stand, every other one may. -/
theorem admitsKind_of_isDeclaration {kind old new : NodeKind} (h : kind.holding.admitsKind old)
    (declares : old.isDeclaration) (declaration : new.isDeclaration) :
    kind.holding.admitsKind new := by
  obtain rfl | rfl := items_of_declaration h declares
  · have category : new.category = .declaration := by
      simpa [NodeKind.isDeclaration] using declaration
    simp [NodeKind.holding, admitsKind, category, NodeCategory.isCodeItem]
  · simp [NodeKind.holding, admitsKind, declaration]

/-- Tokens that do not mark the end stand only below composites that are made of parts. -/
theorem parts_of_token {holding : Holding} {t : Token} (h : holding.admitsToken t)
    (inner : ¬t.isEnd) : holding = .parts := by
  cases holding with
  | document => exact absurd h inner
  | parts => rfl
  | codeItems => cases h
  | members => cases h
  | switchCases => cases h

/-- Only documents hold the token that marks the end. -/
theorem document_of_marksEnd {kind : NodeKind} {node : Node} (h : kind.holding.admits node)
    (marks : node.marksEnd) : kind = .sourceFile := by
  cases node with
  | composite inner children => cases marks
  | token t =>
    have ends : t.isEnd = true := marks
    cases kind with
    | sourceFile => rfl
    | codeBlockItemList => cases h
    | memberBlockItemList => cases h
    | switchCaseList => cases h
    | _ => simp [NodeKind.holding, admitsToken, ends] at h

end Holding

namespace Node

/-- Every node below this one may stand where it stands. -/
inductive Placed : Node → Prop
  | token (t : Token) : Placed (token t)
  | composite {kind : NodeKind} {children : List Node}
    (admitted : ∀ child ∈ children, kind.holding.admits child)
    (placed : ∀ child ∈ children, Placed child) : Placed (composite kind children)

namespace Placed

theorem admitted {kind : NodeKind} {children : List Node} (h : Placed (.composite kind children)) :
    ∀ child ∈ children, kind.holding.admits child := by
  cases h with
  | composite admitted placed => exact admitted

theorem children {kind : NodeKind} {children : List Node} (h : Placed (.composite kind children)) :
    ∀ child ∈ children, Placed child := by
  cases h with
  | composite admitted placed => exact placed

protected theorem bare {node : Node} (h : Placed node) : Placed node.bare := by
  induction h with
  | token t => rw [bare_token]; exact .token _
  | composite admitted placed ih =>
    rw [bare_composite]
    constructor
    · simp only [List.forall_mem_map, Holding.admits_bare]
      exact admitted
    · simp only [List.forall_mem_map]
      exact ih

theorem of_bare {node : Node} (h : Placed node.bare) : Placed node := by
  generalize equation : node.bare = shape at h
  induction h generalizing node with
  | token t =>
    cases node with
    | token u => exact .token u
    | composite kind children => rw [bare_composite] at equation; cases equation
  | composite admitted placed ih =>
    cases node with
    | token u => rw [bare_token] at equation; cases equation
    | composite kind children =>
      rw [bare_composite] at equation
      cases equation
      simp only [List.forall_mem_map, Holding.admits_bare] at admitted
      exact .composite admitted fun child member => ih _ (List.mem_map_of_mem member) rfl

end Placed

theorem Holds.placed {node inner : Node} {trail : Trail} {offset : Nat}
    (h : node.Holds trail offset inner) (placed : node.Placed) : inner.Placed := by
  induction trail generalizing node offset with
  | nil =>
    obtain ⟨rfl, -⟩ := holds_nil_iff.mp h
    exact placed
  | cons index trail ih =>
    obtain ⟨child, inside, found, below, -⟩ := holds_cons_iff.mp h
    cases node with
    | token t => cases found
    | composite kind children => exact ih below (placed.children child (List.mem_of_getElem? found))

end Node

namespace Context

def kind : Context → NodeKind
  | parent kind _ _ => kind
  | within _ _ inner _ => inner.kind

/-- The composite with the gap among its children is at the end of the trail without its last
index. -/
theorem exists_parent (context : Context) (nodes : List Node) :
    ∃ siblings, (context.fill nodes).at? context.trail.dropLast =
      some (.composite context.kind siblings) := by
  induction context with
  | parent kind left right => exact ⟨_, rfl⟩
  | within kind left inner right ih =>
    obtain ⟨siblings, found⟩ := ih
    refine ⟨siblings, ?_⟩
    rw [trail, List.dropLast_cons_of_ne_nil inner.trail_ne_nil, fill]
    simp [Node.at?, Node.children, found, Context.kind]

theorem parentKind?_fill (context : Context) (identity : String) (nodes : List Node) :
    Tree.parentKind? ⟨identity, context.fill nodes⟩ context.trail = some context.kind := by
  obtain ⟨siblings, found⟩ := context.exists_parent nodes
  have below : ¬context.trail.isEmpty := mt List.isEmpty_iff.mp context.trail_ne_nil
  rw [Tree.parentKind?, if_neg below, Tree.at?, found]
  rfl

/-- What fills the gap has no bearing on the kind of the whole. -/
theorem admits_fill (context : Context) (holding : Holding) (old new : List Node) :
    holding.admits (context.fill new) = holding.admits (context.fill old) := by
  cases context with
  | parent kind left right => rfl
  | within kind left inner right => rfl

theorem admits_of_placed_fill {context : Context} {nodes : List Node}
    (h : (context.fill nodes).Placed) : ∀ node ∈ nodes, context.kind.holding.admits node := by
  induction context with
  | parent kind left right =>
    intro node member
    exact h.admitted node (by simp [member])
  | within kind left inner right ih => exact ih (h.children _ (by simp))

/-- Nodes that may stand in a gap are in their places there. -/
theorem placed_fill {context : Context} {old new : List Node} (h : (context.fill old).Placed)
    (admitted : ∀ node ∈ new, context.kind.holding.admits node)
    (placed : ∀ node ∈ new, node.Placed) : (context.fill new).Placed := by
  induction context with
  | parent kind left right =>
    have admitted' := h.admitted
    have placed' := h.children
    simp only [List.forall_mem_append] at admitted' placed'
    constructor
    · simp only [List.forall_mem_append]
      exact ⟨⟨admitted'.1.1, admitted⟩, admitted'.2⟩
    · simp only [List.forall_mem_append]
      exact ⟨⟨placed'.1.1, placed⟩, placed'.2⟩
  | within kind left inner right ih =>
    have admitted' := h.admitted
    have placed' := h.children
    simp only [List.forall_mem_append, List.forall_mem_cons] at admitted' placed'
    constructor
    · simp only [List.forall_mem_append, List.forall_mem_cons]
      rw [inner.admits_fill kind.holding old new]
      exact admitted'
    · simp only [List.forall_mem_append, List.forall_mem_cons]
      exact ⟨placed'.1, ih placed'.2.1 admitted, placed'.2.2⟩

end Context

end SwiftTree
