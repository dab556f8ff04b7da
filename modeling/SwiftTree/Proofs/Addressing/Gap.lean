import SwiftTree.Proofs.Mutation.Splice

/-!
# Numbers at a gap

The numbers of a node that stands first in a gap depend on the context of the gap alone: those of
the declarations around it, and how many nodes of its own level are counted to its left. So a node
that is put into a gap has the numbers that its place gives, and nodes to its left raise the last of
them by their count.
-/

namespace SwiftTree

namespace Scheme

/-- Whether a node is numbered below the root. -/
def counts : Scheme → Node → Bool
  | token, node => node.isNumberedToken
  | declaration, node => node.isDeclaration

/-- How many numbered nodes are reached first on the way into nodes. -/
def count : Scheme → List Node → Nat
  | token, nodes => Node.tokenCountAll nodes
  | declaration, nodes => Node.declarationCountAll nodes

/-- Whether the numbers inside a composite start a level of their own. -/
def opens : Scheme → NodeKind → Bool
  | token, _ => false
  | declaration, kind => kind.isDeclaration

theorem numbers_cons (scheme : Scheme) (index : Nat) (trail : Trail) (node : Node) :
    scheme.numbers (index :: trail) node = scheme.counts node := by
  cases scheme with
  | token => exact numbers_token _ node
  | declaration => exact numbers_declaration_cons index trail node

theorem count_append (scheme : Scheme) (left right : List Node) :
    scheme.count (left ++ right) = scheme.count left + scheme.count right := by
  induction left with
  | nil => cases scheme <;> simp [count, Node.tokenCountAll, Node.declarationCountAll]
  | cons node left ih =>
    cases scheme with
    | token => simp_all [count, Node.tokenCountAll, Nat.add_assoc]
    | declaration => simp_all [count, Node.declarationCountAll, Nat.add_assoc]

/-- A numbered node is reached before any node inside it. -/
theorem count_singleton {scheme : Scheme} {node : Node} (h : scheme.counts node) :
    scheme.count [node] = 1 := by
  cases scheme with
  | token =>
    cases node with
    | token t => simp_all [counts, count, Node.tokenCountAll, Node.tokenCount, Node.isNumberedToken]
    | composite kind children => cases h
  | declaration =>
    cases node with
    | token t => cases h
    | composite kind children =>
      have declares : kind.isDeclaration := h
      simp [count, Node.declarationCountAll, Node.declarationCount, declares]

end Scheme

/-- The numbers that are computed for a place lead to the node there. -/
theorem Tree.resolve_of_numbersOf? {tree : Tree} {scheme : Scheme} {path : Path} {trail : Trail}
    {node : Node} {offset : Nat} (numbered : tree.numbersOf? trail scheme = some path.segments)
    (holds : tree.root.Holds trail offset node) :
    tree.resolve ⟨scheme, path⟩ = .ok ⟨node, trail, offset⟩ := by
  obtain ⟨site, member, same⟩ := numbersOf?_eq_some_iff.mp numbered
  have found := resolve_eq_ok_iff.mpr (resolve?_eq_some_iff.mpr member)
  have here : ⟨node, trail, offset⟩ ∈ tree.sites := mem_sites_iff.mpr holds
  rw [found, eq_of_trail_eq (mem_sites_of_resolve found) here same]

namespace Context

/-- The kind of the outermost composite. -/
def top : Context → NodeKind
  | parent kind _ _ => kind
  | within kind _ _ _ => kind

theorem isDeclaration_fill (context : Context) (nodes : List Node) :
    (context.fill nodes).isDeclaration = context.top.isDeclaration := by
  cases context with
  | parent kind left right => rfl
  | within kind left inner right => rfl

/-- The numbers of the level that the gap is on, and how many nodes are counted on this level in
front of the gap. -/
def level (scheme : Scheme) (counted : Nat) : Context → List Nat × Nat
  | parent _ left _ => ([], counted + scheme.count left)
  | within _ left inner _ =>
    let before := counted + scheme.count left
    if scheme.opens inner.top then
      ((before + 1) :: (inner.level scheme 0).1, (inner.level scheme 0).2)
    else inner.level scheme before

/-- The numbers of a numbered node that stands first in the gap. -/
def numbers (context : Context) (scheme : Scheme) : List Nat :=
  (context.level scheme 0).1 ++ [(context.level scheme 0).2 + 1]

/-- The context of the place between nodes that stand in a gap. -/
def widen (left right : List Node) : Context → Context
  | parent kind before after => parent kind (before ++ left) (right ++ after)
  | within kind before inner after => within kind before (inner.widen left right) after

theorem fill_widen (context : Context) (left nodes right : List Node) :
    (context.widen left right).fill nodes = context.fill (left ++ nodes ++ right) := by
  induction context with
  | parent kind before after => simp [widen, fill]
  | within kind before inner after ih => rw [widen, fill, ih, fill]

theorem top_widen (context : Context) (left right : List Node) :
    (context.widen left right).top = context.top := by
  cases context with
  | parent kind before after => rfl
  | within kind before inner after => rfl

/-- Nodes in front of a place are counted on its level. -/
theorem level_widen (context : Context) (scheme : Scheme) (counted : Nat) (left right : List Node) :
    (context.widen left right).level scheme counted =
      ((context.level scheme counted).1, (context.level scheme counted).2 + scheme.count left) := by
  induction context generalizing counted with
  | parent kind before after =>
    rw [widen, level, level, scheme.count_append, Nat.add_assoc]
  | within kind before inner after ih =>
    simp only [widen, level, top_widen, ih]
    split
    · rfl
    · rfl

/-- Tokens are numbered on a single level. -/
theorem level_token (context : Context) (counted : Nat) :
    context.level .token counted = ([], counted + (context.level .token 0).2) := by
  induction context generalizing counted with
  | parent kind left right => simp [level]
  | within kind left inner right ih =>
    simp only [level, Scheme.opens, Bool.false_eq_true, if_false]
    rw [ih (counted + _), ih (0 + _)]
    simp [Nat.add_assoc]

theorem tokensBefore?_fill {node : Node} (numbered : node.isNumberedToken) (rest : List Node)
    (context : Context) :
    (context.fill (node :: rest)).tokensBefore? context.trail =
      some (context.level .token 0).2 := by
  induction context with
  | parent kind left right =>
    refine Node.tokensBefore?_cons_eq_some.mpr ⟨left, node, rest ++ right, 0, ?_, rfl, ?_, ?_⟩
    · simp [fill, Node.children]
    · simp [Node.tokensBefore?, numbered]
    · simp [level, Scheme.count]
  | within kind left inner right ih =>
    refine Node.tokensBefore?_cons_eq_some.mpr ⟨left, _, right, _, rfl, rfl, ih, ?_⟩
    simp only [level, Scheme.opens, Bool.false_eq_true, if_false]
    rw [inner.level_token (0 + _), Nat.zero_add]
    rfl

theorem declarationPath?_fill {node : Node} (declared : node.isDeclaration) (rest : List Node)
    (context : Context) (counted : Nat) :
    (context.fill (node :: rest)).declarationPath? counted context.trail =
      some ((context.level .declaration counted).1 ++
        [(context.level .declaration counted).2 + 1]) := by
  induction context generalizing counted with
  | parent kind left right =>
    have split : (fill (node :: rest) (.parent kind left right)).children =
        left ++ node :: (rest ++ right) := by simp [fill, Node.children]
    rw [trail, Node.declarationPath?_cons split, if_pos declared]
    rfl
  | within kind left inner right ih =>
    have split : (fill (node :: rest) (.within kind left inner right)).children =
        left ++ inner.fill (node :: rest) :: right := rfl
    have inside : ¬inner.trail.isEmpty := mt List.isEmpty_iff.mp inner.trail_ne_nil
    rw [trail, Node.declarationPath?_cons split, isDeclaration_fill, if_neg inside, ih, ih]
    by_cases opens : inner.top.isDeclaration
    · simp [level, Scheme.opens, Scheme.count, opens]
    · simp [level, Scheme.opens, Scheme.count, opens]

/-- A numbered node that stands first in a gap has the numbers of its place. -/
theorem numbersOf?_fill {scheme : Scheme} {node : Node} (counted : scheme.counts node)
    (identity : String) (rest : List Node) (context : Context) :
    Tree.numbersOf? ⟨identity, context.fill (node :: rest)⟩ context.trail scheme =
      some (context.numbers scheme) := by
  cases scheme with
  | token =>
    rw [Tree.numbersOf?, tokensBefore?_fill counted, numbers, level_token]
    simp
  | declaration => exact declarationPath?_fill counted rest context 0

/-- The numbers of a place next to a node continue those of the node. -/
theorem numbers_widen {context : Context} {scheme : Scheme} {level : List Nat} {number : Nat}
    (h : context.numbers scheme = level ++ [number]) (left right : List Node) :
    (context.widen left right).numbers scheme = level ++ [number + scheme.count left] := by
  obtain ⟨rfl, last⟩ := List.append_inj' h rfl
  obtain rfl := List.singleton_inj.mp last
  rw [numbers, level_widen]
  simp [Nat.add_right_comm]

theorem at?_fill (context : Context) (node : Node) (rest : List Node) :
    (context.fill (node :: rest)).at? context.trail = some node := by
  induction context with
  | parent kind left right => simp [fill, trail, Node.at?, Node.children]
  | within kind left inner right ih => simp [fill, trail, Node.at?, Node.children, ih]

/-- So the path with these numbers leads to the node. -/
theorem exists_resolve_fill {scheme : Scheme} {node : Node} (counted : scheme.counts node)
    (identity : String) (rest : List Node) {context : Context} {path : Path}
    (numbers : path.segments = context.numbers scheme) :
    ∃ offset, Tree.resolve ⟨identity, context.fill (node :: rest)⟩ ⟨scheme, path⟩ =
      .ok ⟨node, context.trail, offset⟩ := by
  obtain ⟨offset, holds⟩ := Node.exists_holds (context.at?_fill node rest)
  have numbered := numbersOf?_fill counted identity rest context
  rw [← numbers] at numbered
  exact ⟨offset, Tree.resolve_of_numbersOf? numbered holds⟩

end Context

end SwiftTree
