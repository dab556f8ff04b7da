import SwiftTree.Proofs.Grammar.Placement

/-!
# Parsed trees are well-formed

A tree is arranged if a list of items and the token that marks the end are below its root and all
nodes in it are in their places. Parsed trees are arranged, whatever is wrong with the text. What is
promised of the tree of a document follows from that, so it is enough to keep a tree arranged.
-/

namespace SwiftTree

/-- What is promised of the tree of a document. -/
structure Tree.WellFormed (tree : Tree) : Prop where
  /-- Below the root are one list of items and the token that marks the end. -/
  root : ∃ items last, tree.root =
    .composite .sourceFile [.composite .codeBlockItemList items, .token last] ∧ last.isEnd
  /-- No document is inside of another one. -/
  sourceFile : ∀ site ∈ tree.sites, site.node.kind? = some .sourceFile → site.trail = []
  /-- Only the last child of the root marks the end. -/
  endOfFile : ∀ site ∈ tree.sites, site.node.marksEnd → site.trail = [1]
  codeBlockItems : ∀ site ∈ tree.sites, site.node.kind? = some .codeBlockItemList →
    ∀ child ∈ site.node.children,
      child.category ∈ [NodeCategory.declaration, .statement, .expression] ∨
        child.kind? = some .unexpectedNodes
  memberBlockItems : ∀ site ∈ tree.sites, site.node.kind? = some .memberBlockItemList →
    ∀ child ∈ site.node.children,
      child.category = .declaration ∨ child.kind? = some .unexpectedNodes
  switchCases : ∀ site ∈ tree.sites, site.node.kind? = some .switchCaseList →
    ∀ child ∈ site.node.children,
      child.kind? = some .switchCase ∨ child.kind? = some .unexpectedNodes
  /-- Declarations stand among items. -/
  declarations : ∀ site ∈ tree.sites, site.node.isDeclaration →
    tree.parentKind? site.trail = some .codeBlockItemList ∨
      tree.parentKind? site.trail = some .memberBlockItemList

/-- A list of items and the token that marks the end make up the tree, and all nodes in it are in
their places. -/
structure Tree.Arranged (tree : Tree) : Prop where
  root : ∃ items last, tree.root =
    .composite .sourceFile [.composite .codeBlockItemList items, .token last]
  placed : tree.root.Placed

theorem arranged_parse (identity text : String) : (parse identity text).tree.Arranged := by
  obtain ⟨list, last, root, marks, -, -⟩ := root_parse identity text
  obtain ⟨items, children, placed⟩ := Grammar.exists_items .topLevel .sourceFile (lex text)
  obtain rfl := eq_of_root_parse root children
  refine ⟨⟨items, last, root⟩, ?_⟩
  rw [root]
  constructor
  · simp only [List.forall_mem_cons]
    exact ⟨rfl, marks, nofun⟩
  · simp only [List.forall_mem_cons]
    exact ⟨placed, .token last, nofun⟩

namespace Tree.Arranged

variable {tree : Tree} {site : Site}

/-- Each node below the root fills a gap where it may stand. -/
theorem exists_context (h : tree.Arranged) (member : site ∈ tree.sites) (below : site.trail ≠ []) :
    ∃ context : Context, context.trail = site.trail ∧ tree.root = context.fill [site.node] ∧
      tree.parentKind? site.trail = some context.kind ∧
      context.kind.holding.admits site.node := by
  obtain ⟨index, t, htrail⟩ := List.exists_cons_of_ne_nil below
  have holds : tree.root.Holds site.trail site.offset site.node := mem_sites_iff.mp member
  rw [htrail] at holds
  obtain ⟨context, path, root, -⟩ := holds.exists_context
  rw [← htrail] at path
  refine ⟨context, path, root, ?_, ?_⟩
  · rw [← path, ← context.parentKind?_fill tree.identity [site.node], ← root]
  · have placed := h.placed
    rw [root] at placed
    exact Context.admits_of_placed_fill placed site.node List.mem_cons_self

/-- Below each composite stand only nodes that may stand there. -/
theorem admits {kind : NodeKind} (h : tree.Arranged) (member : site ∈ tree.sites)
    (composite : site.node.kind? = some kind) :
    ∀ child ∈ site.node.children, kind.holding.admits child := by
  have holds : tree.root.Holds site.trail site.offset site.node := mem_sites_iff.mp member
  have placed := holds.placed h.placed
  cases node : site.node with
  | token t => exact nofun
  | composite inner children =>
    obtain rfl : inner = kind := by simpa [node, Node.kind?] using composite
    rw [node] at placed
    exact placed.admitted

theorem trail_of_sourceFile (h : tree.Arranged) (member : site ∈ tree.sites)
    (document : site.node.kind? = some .sourceFile) : site.trail = [] := by
  by_contra below
  obtain ⟨context, -, -, -, admitted⟩ := h.exists_context member below
  cases node : site.node with
  | token t => rw [node] at document; cases document
  | composite kind children =>
    obtain rfl : kind = .sourceFile := by simpa [node, Node.kind?] using document
    rw [node, Holding.admits_composite] at admitted
    cases holding : context.kind.holding <;> rw [holding] at admitted <;> cases admitted

/-- The token that marks the end is below a document, and the whole is the only one. -/
theorem trail_of_marksEnd (h : tree.Arranged) (member : site ∈ tree.sites)
    (marks : site.node.marksEnd) : site.trail = [1] := by
  obtain ⟨items, last, root⟩ := h.root
  have found : tree.root.at? site.trail = some site.node := (mem_sites_iff.mp member).1
  rw [root] at found
  have below : site.trail ≠ [] := by
    intro top
    rw [top] at found
    rw [← Option.some.inj found] at marks
    cases marks
  obtain ⟨context, path, filled, -, admitted⟩ := h.exists_context member below
  have document : context.kind = .sourceFile := Holding.document_of_marksEnd admitted marks
  have alone : site.trail.dropLast = [] := by
    obtain ⟨siblings, parent⟩ := context.exists_parent [site.node]
    rw [← filled, path, document] at parent
    obtain ⟨offset, holds⟩ := Node.exists_holds parent
    have among :
        Site.mk (.composite .sourceFile siblings) site.trail.dropLast offset ∈ tree.sites :=
      mem_sites_iff.mpr holds
    exact h.trail_of_sourceFile among rfl
  obtain ⟨index, only⟩ : ∃ index, site.trail = [index] :=
    ⟨_, by rw [← List.dropLast_append_getLast below, alone, List.nil_append]⟩
  rw [only] at found ⊢
  match index with
  | 0 =>
    have list : Node.composite .codeBlockItemList items = site.node := Option.some.inj found
    rw [← list] at marks
    cases marks
  | 1 => rfl
  | index + 2 => cases found

/-- Only lists of items hold declarations. -/
theorem parentKind?_of_isDeclaration (h : tree.Arranged) (member : site ∈ tree.sites)
    (declares : site.node.isDeclaration) :
    tree.parentKind? site.trail = some .codeBlockItemList ∨
      tree.parentKind? site.trail = some .memberBlockItemList := by
  have below : site.trail ≠ [] := by
    intro top
    obtain ⟨items, last, root⟩ := h.root
    have found : tree.root.at? site.trail = some site.node := (mem_sites_iff.mp member).1
    rw [top, root] at found
    rw [← Option.some.inj found] at declares
    cases declares
  obtain ⟨context, -, -, parent, admitted⟩ := h.exists_context member below
  rw [parent, Option.some.injEq, Option.some.injEq]
  cases node : site.node with
  | token t => rw [node] at declares; cases declares
  | composite kind children =>
    rw [node] at admitted declares
    exact Holding.items_of_declaration admitted declares

/-- If all nodes are in their places, the tree is what the tree of a document should be. -/
theorem wellFormed (h : tree.Arranged) : tree.WellFormed where
  root := by
    obtain ⟨items, last, root⟩ := h.root
    have placed := h.placed
    rw [root] at placed
    exact ⟨items, last, root, placed.admitted (.token last) (by simp)⟩
  sourceFile := fun _ member => h.trail_of_sourceFile member
  endOfFile := fun _ member => h.trail_of_marksEnd member
  codeBlockItems := by
    intro site member list child among
    have admitted := h.admits member list child among
    cases child with
    | token t => cases admitted
    | composite kind children =>
      obtain item | aside : kind.category.isCodeItem ∨ kind = .unexpectedNodes := by
        simpa [NodeKind.holding, Holding.admitsKind] using admitted
      · refine .inl ?_
        rw [Node.category]
        cases category : kind.category <;> rw [category] at item <;> first | decide | cases item
      · exact .inr (congrArg some aside)
  memberBlockItems := by
    intro site member list child among
    have admitted := h.admits member list child among
    cases child with
    | token t => cases admitted
    | composite kind children =>
      simpa [NodeKind.holding, Holding.admitsKind, NodeKind.isDeclaration, Node.category,
        Node.kind?] using admitted
  switchCases := by
    intro site member list child among
    have admitted := h.admits member list child among
    cases child with
    | token t => cases admitted
    | composite kind children =>
      simpa [NodeKind.holding, Holding.admitsKind, Node.kind?] using admitted
  declarations := fun _ member => h.parentKind?_of_isDeclaration member

/-- An arranged tree stays so if a gap that is not below the root is filled with other nodes that
may stand there. -/
theorem fill {context : Context} {old new : List Node} (h : tree.Arranged)
    (root : tree.root = context.fill old) (inside : context.kind ≠ .sourceFile)
    (admitted : ∀ node ∈ new, context.kind.holding.admits node)
    (placed : ∀ node ∈ new, node.Placed) : (tree.withRoot (context.fill new)).Arranged := by
  have arranged := h.placed
  rw [root] at arranged
  refine ⟨?_, Context.placed_fill arranged admitted placed⟩
  obtain ⟨items, last, shape⟩ := h.root
  rw [shape] at root
  cases context with
  | parent kind left right =>
    rw [Context.fill, Node.composite.injEq] at root
    exact absurd root.1.symm inside
  | within kind left inner right =>
    rw [Context.fill, Node.composite.injEq] at root
    obtain ⟨rfl, children⟩ := root
    cases left with
    | nil =>
      rw [List.nil_append, List.cons.injEq] at children
      obtain ⟨list, rfl⟩ := children
      cases inner with
      | parent kind left right =>
        cases list
        exact ⟨_, last, rfl⟩
      | within kind left inner right =>
        cases list
        exact ⟨_, last, rfl⟩
    | cons first left =>
      -- the gap would be inside of the token that marks the end
      rw [List.cons_append, List.cons.injEq] at children
      obtain ⟨-, children⟩ := children
      cases left with
      | nil => cases inner <;> cases children
      | cons second left => cases left <;> cases children

end Tree.Arranged

end SwiftTree
