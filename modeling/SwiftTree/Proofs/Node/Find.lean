import SwiftTree.Proofs.Node.Leaves
import SwiftTree.Proofs.Node.Sites

/-!
# Finding a node by its kind and offset

In the list of all nodes, those inside a node come right after it, and all that come after them
start where the node ends or later. So a composite that holds nothing but tokens, and at least some
text, is the last one of its kind that starts where it starts.
-/

namespace SwiftTree

namespace Node

theorem widthAll_append (as bs : List Node) : widthAll (as ++ bs) = widthAll as + widthAll bs := by
  induction as with
  | nil => simp
  | cons node as ih => simp [ih, Nat.add_assoc]

theorem width_composite (kind : NodeKind) (children : List Node) :
    (composite kind children).width = widthAll children := by
  rw [width]

/-- A node ends inside of the nodes that it is in. -/
theorem Holds.offset_add_width_le {node inner : Node} {trail : Trail} {offset : Nat}
    (h : node.Holds trail offset inner) : offset + inner.width ≤ node.width := by
  induction trail generalizing node offset with
  | nil =>
    obtain ⟨rfl, rfl⟩ := holds_nil_iff.mp h
    omega
  | cons index trail ih =>
    obtain ⟨child, inside, found, below, rfl⟩ := holds_cons_iff.mp h
    obtain ⟨left, right, split, rfl⟩ := exists_split found
    have inner := ih below
    cases node with
    | token t => cases found
    | composite kind children =>
      obtain rfl : children = left ++ child :: right := split
      rw [width_composite, Node.children, List.take_left, widthAll_append, widthAll_cons]
      omega

/-- Nothing is inside of a token. -/
theorem Holds.eq_token {t : Token} {inner : Node} {trail : Trail} {offset : Nat}
    (h : (token t).Holds trail offset inner) : inner = token t := by
  cases trail with
  | nil => exact (holds_nil_iff.mp h).1.symm
  | cons index trail =>
    obtain ⟨child, inside, found, -, -⟩ := holds_cons_iff.mp h
    cases found

theorem le_offset_of_mem_sitesFromAll {trail : Trail} {index offset : Nat} {nodes : List Node}
    {site : Site} (h : site ∈ sitesFromAll trail index offset nodes) : offset ≤ site.offset := by
  obtain ⟨_, _, _, _, -, -, -, start⟩ := (mem_sitesFromAll nodes).mp h
  omega

/-- The nodes of a node, with those of one of them in the middle. What follows these starts at their
end or later. -/
theorem Holds.exists_sitesFrom_split {node inner : Node} {t : Trail} {o : Nat}
    (h : node.Holds t o inner) (trail : Trail) (offset : Nat) :
    ∃ before after,
      node.sitesFrom trail offset = before ++ inner.sitesFrom (trail ++ t) (offset + o) ++ after ∧
        ∀ site ∈ after, offset + o + inner.width ≤ site.offset := by
  induction t generalizing node o trail offset with
  | nil =>
    obtain ⟨rfl, rfl⟩ := holds_nil_iff.mp h
    exact ⟨[], [], by simp, nofun⟩
  | cons index t ih =>
    obtain ⟨child, inside, found, below, rfl⟩ := holds_cons_iff.mp h
    obtain ⟨left, right, split, rfl⟩ := exists_split found
    have ends := below.offset_add_width_le
    obtain ⟨before, after, sites, later⟩ :=
      ih below (trail ++ [left.length]) (offset + widthAll left)
    cases node with
    | token t => cases found
    | composite kind children =>
      obtain rfl : children = left ++ child :: right := split
      let whole : Site := ⟨composite kind (left ++ child :: right), trail, offset⟩
      refine ⟨whole :: sitesFromAll trail 0 offset left ++ before,
        after ++ sitesFromAll trail (left.length + 1) (offset + widthAll left + child.width) right,
        ?_, ?_⟩
      · rw [sitesFrom, sitesFromAll_append, sitesFromAll, Nat.zero_add, sites, Node.children,
          List.take_left]
        simp [whole, Nat.add_assoc]
      · rw [Node.children, List.take_left]
        intro site member
        obtain inside' | beyond := List.mem_append.mp member
        · have bound := later site inside'
          omega
        · have bound := le_offset_of_mem_sitesFromAll beyond
          omega

/-- A node stands at an offset among nodes or inside of one of them. -/
def Occurs (inner : Node) (offset : Nat) (nodes : List Node) : Prop :=
  ∃ before child after trail inside, nodes = before ++ child :: after ∧
    child.Holds trail inside inner ∧ offset = widthAll before + inside

namespace Occurs

variable {inner child : Node} {offset inside : Nat} {trail : Trail} {nodes : List Node}

theorem append (h : Occurs inner offset nodes) (more : List Node) :
    Occurs inner offset (nodes ++ more) := by
  obtain ⟨before, child, after, trail, inside, rfl, holds, rfl⟩ := h
  exact ⟨before, child, after ++ more, trail, inside, by simp, holds, rfl⟩

theorem concat (nodes : List Node) (h : child.Holds trail inside inner) :
    Occurs inner (widthAll nodes + inside) (nodes ++ [child]) :=
  ⟨nodes, child, [], trail, inside, rfl, h, rfl⟩

theorem exists_holds (h : Occurs inner offset nodes) (kind : NodeKind) :
    ∃ trail, (composite kind nodes).Holds trail offset inner := by
  obtain ⟨before, child, after, trail, inside, rfl, holds, rfl⟩ := h
  refine ⟨before.length :: trail, holds_cons_iff.mpr ⟨child, inside, ?_, holds, ?_⟩⟩
  · simp [Node.children]
  · rw [Node.children, List.take_left]

/-- What is added to the last composite leaves everything where it is, and what changes is that
composite only. -/
theorem reopen {kind : NodeKind} {before children : List Node}
    (h : Occurs inner offset (before ++ [composite kind children])) (more : List Node) :
    (inner = composite kind children ∧ offset = widthAll before) ∨
      Occurs inner offset (before ++ [composite kind (children ++ more)]) := by
  obtain ⟨left, child, right, trail, inside, split, holds, rfl⟩ := h
  obtain rfl | ⟨right, last, rfl⟩ := List.eq_nil_or_concat right
  · obtain ⟨rfl, last⟩ := List.append_inj' split rfl
    obtain rfl := (List.cons.inj last).1
    cases trail with
    | nil =>
      obtain ⟨rfl, rfl⟩ := holds_nil_iff.mp holds
      exact .inl ⟨rfl, rfl⟩
    | cons index trail =>
      obtain ⟨child, deep, found, below, rfl⟩ := holds_cons_iff.mp holds
      obtain ⟨first, second, split, rfl⟩ := exists_split found
      obtain rfl : children = first ++ child :: second := split
      have kept : (composite kind (first ++ child :: second ++ more)).Holds (first.length :: trail)
          (widthAll first + deep) inner :=
        holds_cons_iff.mpr ⟨child, deep, by simp [Node.children], below, by simp [Node.children]⟩
      rw [Node.children, List.take_left]
      exact .inr (concat before kept)
  · rw [List.concat_eq_append, ← List.cons_append, ← List.append_assoc] at split
    obtain ⟨rfl, -⟩ := List.append_inj' split rfl
    exact .inr (append ⟨left, child, right, trail, inside, rfl, holds, rfl⟩ _)

end Occurs

end Node

/-- A composite of tokens is found by its kind and offset. -/
theorem Tree.findComposite?_of_holds {tree : Tree} {trail : Trail} {offset : Nat} {kind : NodeKind}
    {tokens : List Token}
    (h : tree.root.Holds trail offset (.composite kind (tokens.map .token)))
    (positive : 0 < Node.widthAll (tokens.map .token)) :
    Site.lastComposite? tree.sites kind offset = some trail := by
  obtain ⟨before, after, sites, later⟩ := h.exists_sitesFrom_split [] 0
  have inside : (Node.sitesFromAll trail 0 offset (tokens.map .token)).filter
      (fun site => site.offset == offset && site.node.kind? == some kind) = [] := by
    rw [List.filter_eq_nil_iff]
    intro site member
    obtain ⟨_, child, _, _, found, holds, -, -⟩ := (Node.mem_sitesFromAll _).mp member
    obtain ⟨t, -, rfl⟩ := List.mem_map.mp (List.mem_of_getElem? found)
    simp [holds.eq_token, Node.kind?]
  have beyond : after.filter
      (fun site => site.offset == offset && site.node.kind? == some kind) = [] := by
    rw [List.filter_eq_nil_iff]
    intro site member
    have bound := later site member
    rw [Node.width_composite] at bound
    have differ : site.offset ≠ offset := by omega
    simp [differ]
  rw [Site.lastComposite?, Tree.sites, Node.sites, sites, Node.sitesFrom]
  simp only [List.nil_append, Nat.zero_add]
  rw [List.filter_append, List.filter_append, List.filter_cons, inside, beyond]
  simp [Node.kind?]

end SwiftTree
