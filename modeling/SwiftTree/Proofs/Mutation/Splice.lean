import SwiftTree.Parse
import SwiftTree.Proofs.Addressing.Bijection
import SwiftTree.Proofs.Node.Context
import SwiftTree.Proofs.Result

/-!
# Mutations are splices

A mutation that succeeds fills the gap that its target leaves. What stands outside the gap is one
context before and after, so the tokens and the text change inside the span of the target only, and
what comes there is the text of the nodes that are put there.
-/

namespace SwiftTree

/-- What stands in the place of a node after nodes are inserted next to it. -/
def InsertPosition.join (nodes : List Node) (node : Node) : InsertPosition → List Node
  | before => nodes ++ [node]
  | after => node :: nodes

theorem insertNodes_slot (nodes : List Node) (position : InsertPosition) (node : Node)
    (left right : List Node) :
    insertNodes nodes (position.slot left.length) (left ++ [node] ++ right) =
      left ++ position.join nodes node ++ right := by
  cases position with
  | before => simp [insertNodes, InsertPosition.slot, InsertPosition.join]
  | after =>
    have length : left.length + 1 = (left ++ [node]).length := by simp
    rw [insertNodes, InsertPosition.slot, length, List.take_left, List.drop_left]
    simp [InsertPosition.join]

theorem eraseIdx_middle {node : Node} (left right : List Node) :
    (left ++ [node] ++ right).eraseIdx left.length = left ++ [] ++ right := by
  rw [List.append_assoc, List.eraseIdx_append_of_length_le (Nat.le_refl _), Nat.sub_self]
  simp

theorem setChild_middle (node new : Node) (left right : List Node) :
    Node.setChild new left.length (left ++ [node] ++ right) = .ok (left ++ [new] ++ right) := by
  simp [Node.setChild, pure, Except.pure]

theorem removeChild_middle {node : Node} (left right : List Node) :
    Node.removeChild left.length (left ++ [node] ++ right) = .ok (left ++ [] ++ right) := by
  rw [Node.removeChild, if_pos (by simp), eraseIdx_middle]
  rfl

theorem insertChildren_slot (nodes : List Node) (position : InsertPosition) (node : Node)
    (left right : List Node) :
    Node.insertChildren nodes (position.slot left.length) (left ++ [node] ++ right) =
      .ok (left ++ position.join nodes node ++ right) := by
  have within : position.slot left.length ≤ (left ++ [node] ++ right).length := by
    cases position <;> simp [InsertPosition.slot]
  rw [Node.insertChildren, if_pos within, ← insertNodes_slot]
  rfl

/-- A token may replace a token, whatever the policy is. -/
theorem ReplacementPolicy.check_token (policy : ReplacementPolicy) (parent : Option NodeKind)
    {old new : Node} (target : old.isToken) (replacement : new.isToken) :
    policy.check parent old new = .ok () := by
  cases old with
  | composite kind children => cases target
  | token old =>
    cases new with
    | composite kind children => cases replacement
    | token new => rfl

/-- A tree results when nodes are put into the gap of a context. Its tokens and its text are those
of the nodes, between what stands on both sides of the gap. -/
structure Context.Yields (context : Context) (identity : String) (nodes : List Node)
    (tree : Tree) : Prop where
  identity : tree.identity = identity
  root : tree.root = context.fill nodes
  leaves : tree.root.leaves = context.before ++ Node.leavesAll nodes ++ context.after
  render : tree.render =
    Token.renderAll context.before ++ Node.renderAll nodes ++ Token.renderAll context.after

theorem Context.Yields.of_root {context : Context} {nodes : List Node} {identity : String}
    {root : Node} (h : root = context.fill nodes) :
    context.Yields identity nodes ⟨identity, root⟩ := by
  subst h
  exact ⟨rfl, rfl, context.leaves_fill nodes, context.render_fill nodes⟩

namespace Tree

theorem resolve_eq_ok_iff {tree : Tree} {address : Address} {site : Site} :
    tree.resolve address = .ok site ↔ tree.resolve? address = some site := by
  unfold resolve
  cases tree.resolve? address with
  | none => simp
  | some found => simp

/-- Addresses lead to sites of the tree. -/
theorem mem_sites_of_resolve {tree : Tree} {address : Address} {site : Site}
    (found : tree.resolve address = .ok site) : site ∈ tree.sites := by
  have member := resolve?_eq_some_iff.mp (resolve_eq_ok_iff.mp found)
  exact (exists_mem_numbered_iff.mp ⟨_, member⟩).1

/-- The place of a node below the root, as a context that the node fills. -/
theorem exists_context_of_resolve {tree : Tree} {address : Address} {site : Site}
    (found : tree.resolve address = .ok site) (below : site.trail ≠ []) :
    ∃ context : Context, context.trail = site.trail ∧ tree.root = context.fill [site.node] ∧
      (Token.renderAll context.before).utf8ByteSize = site.offset := by
  obtain ⟨index, t, trail⟩ := List.exists_cons_of_ne_nil below
  have holds : tree.root.Holds site.trail site.offset site.node :=
    mem_sites_iff.mp (mem_sites_of_resolve found)
  rw [trail] at holds ⊢
  exact holds.exists_context

theorem isNumberedToken_of_resolve {tree : Tree} {path : Path} {site : Site}
    (found : tree.resolve ⟨.token, path⟩ = .ok site) : site.node.isNumberedToken := by
  have member := resolve?_eq_some_iff.mp (resolve_eq_ok_iff.mp found)
  have numbers := (exists_mem_numbered_iff.mp ⟨_, member⟩).2
  rwa [Scheme.numbers_token] at numbers

theorem exists_token_of_resolve {tree : Tree} {path : Path} {site : Site}
    (found : tree.resolve ⟨.token, path⟩ = .ok site) : ∃ token, site.node = .token token := by
  have numbered := isNumberedToken_of_resolve found
  cases node : site.node with
  | token token => exact ⟨token, rfl⟩
  | composite kind children =>
    rw [node] at numbered
    cases numbered

/-- Where an address leads, a node can be exchanged. -/
theorem exchange_of_resolve {tree : Tree} {address : Address} {site : Site}
    (found : tree.resolve address = .ok site) (new : Node) :
    tree.root.exchange site.trail new = .ok (tree.root.replaceAt site.trail new) := by
  cases htrail : site.trail with
  | nil => cases tree.root <;> rfl
  | cons index t =>
    obtain ⟨context, path, root, -⟩ := exists_context_of_resolve found (by simp [htrail])
    obtain ⟨last, final, rebuilt⟩ := context.rebuild_fill (setChild_middle site.node new)
    rw [← htrail, ← path, Node.exchange, final, root, context.replaceAt_fill]
    exact rebuilt

/-- The siblings of a node below the root that an address leads to can be changed. -/
theorem rebuild_of_resolve {tree : Tree} {address : Address} {site : Site} {new : List Node}
    (change : Nat → List Node → List Node)
    (checked : Nat → List Node → Except Impossibility (List Node))
    (found : tree.resolve address = .ok site) (below : site.trail ≠ [])
    (exchange : ∀ left right, change left.length (left ++ [site.node] ++ right) =
      left ++ new ++ right)
    (succeeds : ∀ left right, checked left.length (left ++ [site.node] ++ right) =
      .ok (left ++ new ++ right)) :
    ∃ index, site.trail.getLast? = some index ∧
      tree.root.rebuild (checked index) site.trail.dropLast =
        .ok (tree.root.modifySiblings change site.trail) := by
  obtain ⟨context, path, root, -⟩ := exists_context_of_resolve found below
  rw [← path, root, context.modifySiblings_fill exchange]
  exact context.rebuild_fill succeeds

theorem rebuild_removeChild {tree : Tree} {address : Address} {site : Site}
    (found : tree.resolve address = .ok site) (below : site.trail ≠ []) :
    ∃ index, site.trail.getLast? = some index ∧
      tree.root.rebuild (Node.removeChild index) site.trail.dropLast =
        .ok (tree.root.modifySiblings (fun index siblings => siblings.eraseIdx index)
          site.trail) :=
  rebuild_of_resolve (fun index siblings => siblings.eraseIdx index) Node.removeChild found below
    eraseIdx_middle removeChild_middle

theorem rebuild_insertChildren {tree : Tree} {address : Address} {site : Site}
    (found : tree.resolve address = .ok site) (below : site.trail ≠ []) (nodes : List Node)
    (position : InsertPosition) :
    ∃ index, site.trail.getLast? = some index ∧
      tree.root.rebuild (Node.insertChildren nodes (position.slot index)) site.trail.dropLast =
        .ok (tree.root.modifySiblings (fun index => insertNodes nodes (position.slot index))
          site.trail) :=
  rebuild_of_resolve (fun index => insertNodes nodes (position.slot index))
    (fun index => Node.insertChildren nodes (position.slot index)) found below
    (insertNodes_slot nodes position site.node) (insertChildren_slot nodes position site.node)

theorem withChanged_ok (tree : Tree) (root : Node) :
    tree.withChanged (.ok root) = .ok (tree.withRoot root) := rfl

theorem replace_eq_ok_iff {tree result : Tree} {address : Address} {site : Site}
    {policy : ReplacementPolicy} {new : Node} (found : tree.resolve address = .ok site) :
    tree.replace policy address new = .ok result ↔
      site.trail ≠ [] ∧ policy.check (tree.parentKind? site.trail) site.node new = .ok () ∧
        tree.withRoot (tree.root.replaceAt site.trail new) = result := by
  simp only [replace, found, ok_bind, exchange_of_resolve found]
  cases site.trail with
  | nil => simp [throw_eq_error, error_bind]
  | cons index t =>
    cases policy.check (tree.parentKind? (index :: t)) site.node new with
    | error refusal => simp [throw_eq_error]
    | ok _ => simp [withChanged_ok]

theorem delete_eq_ok {tree : Tree} {address : Address} {site : Site}
    (found : tree.resolve address = .ok site) (below : site.trail ≠ []) :
    tree.delete address = .ok (site.node.render, tree.withRoot (tree.root.modifySiblings
      (fun index siblings => siblings.eraseIdx index) site.trail)) := by
  obtain ⟨index, last, rebuilt⟩ := rebuild_removeChild found below
  simp only [delete, found, ok_bind, last, rebuilt, withChanged_ok]
  rfl

theorem insert_eq_ok_iff {tree result : Tree} {address : Address} {site : Site}
    {nodes : List Node} {position : InsertPosition} (found : tree.resolve address = .ok site) :
    tree.insert nodes address position = .ok result ↔
      nodes ≠ [] ∧ site.trail ≠ [] ∧
        checkInsertion (tree.parentKind? site.trail) nodes = .ok () ∧
        tree.withRoot (tree.root.modifySiblings
          (fun index => insertNodes nodes (position.slot index)) site.trail) = result := by
  simp only [insert, found, ok_bind]
  cases nodes with
  | nil => simp [throw_eq_error, error_bind]
  | cons node nodes =>
    by_cases below : site.trail = []
    · simp [below, throw_eq_error]
    · obtain ⟨index, last, rebuilt⟩ := rebuild_insertChildren found below (node :: nodes) position
      simp only [last, rebuilt]
      cases checkInsertion (tree.parentKind? site.trail) (node :: nodes) with
      | error refusal => simp [throw_eq_error]
      | ok _ => simp [below, withChanged_ok]

def documented (tree : Tree) (text : Option String) (offset : Nat) (token : Token) : Token :=
  { token with
    leading := Documentation.setDocumentation token.leading text tree.newline
      (startsLine offset token) }

theorem documentToken_eq_ok_iff {tree result : Tree} {address : Address} {site : Site}
    {text : Option String} (found : tree.resolve address = .ok site) :
    tree.documentToken address text = .ok result ↔
      ∃ token, site.node = .token token ∧ tree.withRoot (tree.root.replaceAt site.trail
        (.token (tree.documented text site.offset token))) = result := by
  simp only [documentToken, found, ok_bind, exchange_of_resolve found]
  cases site.node with
  | composite kind children => simp [throw_eq_error]
  | token token => simp [withChanged_ok, documented]

end Tree

/-- Mutations are exact in their spans. Let an address lead to a node below the root. The text of
the tree is that of the node between two other texts, the first as long as the offset of the node.
After a replacement the new node stands between these texts, after a deletion, which returns the
text of the node, nothing does, and after an insertion the nodes inserted do with the old one after
or before them. The tokens change in the same way, the identity is kept, and all nodes that do not
enclose the place, on both sides of it and at each level, are the same as before. -/
theorem mutations_splice {tree : Tree} {address : Address} {site : Site}
    (found : tree.resolve address = .ok site) (below : site.trail ≠ []) :
    ∃ context : Context,
      context.trail = site.trail ∧
      (Token.renderAll context.before).utf8ByteSize = site.offset ∧
      site.node.render.utf8ByteSize = site.node.width ∧
      context.Yields tree.identity [site.node] tree ∧
      (∀ policy new result, tree.replace policy address new = .ok result →
        context.Yields tree.identity [new] result) ∧
      (∃ result, tree.delete address = .ok (site.node.render, result) ∧
        context.Yields tree.identity [] result) ∧
      (∀ nodes result, tree.insert nodes address .before = .ok result →
        context.Yields tree.identity (nodes ++ [site.node]) result) ∧
      (∀ nodes result, tree.insert nodes address .after = .ok result →
        context.Yields tree.identity (site.node :: nodes) result) := by
  obtain ⟨index, t, htrail⟩ := List.exists_cons_of_ne_nil below
  have holds : tree.root.Holds site.trail site.offset site.node :=
    Tree.mem_sites_iff.mp (Tree.mem_sites_of_resolve found)
  rw [htrail] at holds
  obtain ⟨context, path, root, offset⟩ := holds.exists_context
  rw [← htrail] at path
  have inserted (nodes : List Node) (position : InsertPosition) (result : Tree)
      (h : tree.insert nodes address position = .ok result) :
      context.Yields tree.identity (position.join nodes site.node) result := by
    obtain ⟨_, _, _, rfl⟩ := (Tree.insert_eq_ok_iff found).mp h
    refine .of_root ?_
    rw [root, ← path]
    exact context.modifySiblings_fill (insertNodes_slot nodes position site.node)
  refine ⟨context, path, offset, site.node.utf8ByteSize_render, .of_root root, ?_, ?_, ?_, ?_⟩
  · intro policy new result h
    obtain ⟨_, _, rfl⟩ := (Tree.replace_eq_ok_iff found).mp h
    refine .of_root ?_
    rw [root, ← path]
    exact context.replaceAt_fill site.node new
  · refine ⟨_, Tree.delete_eq_ok found below, ?_⟩
    refine .of_root ?_
    rw [root, ← path]
    exact context.modifySiblings_fill eraseIdx_middle
  · exact fun nodes => inserted nodes .before
  · exact fun nodes => inserted nodes .after

/-- The second member of a structure is deleted together with the line break in front of it. -/
theorem mutations_splice_second_member :
    ∃ (tree : Tree) (address : Address) (site : Site) (context : Context) (result : Tree),
      tree = (parse "a" "struct S \x7b var x\n var y \x7d").tree ∧
      address = ⟨.declaration, [1, 2], by decide, by decide⟩ ∧
      tree.resolve address = .ok site ∧ site.trail = [0, 0, 2, 1, 1] ∧
      context.trail = site.trail ∧ (Token.renderAll context.before).utf8ByteSize = 16 ∧
      tree.delete address = .ok ("\n var y ", result) ∧ context.Yields "a" [] result := by
  let tree := (parse "a" "struct S \x7b var x\n var y \x7d").tree
  let address : Address := ⟨.declaration, [1, 2], by decide, by decide⟩
  have facts : (tree.resolve address).map
      (fun site => (site.trail, site.offset, site.node.render)) =
        .ok ([0, 0, 2, 1, 1], 16, "\n var y ") := by decide +kernel
  cases found : tree.resolve address with
  | error error => simp [found, Except.map] at facts
  | ok site =>
    obtain ⟨trail, offset, text⟩ : site.trail = [0, 0, 2, 1, 1] ∧ site.offset = 16 ∧
        site.node.render = "\n var y " := by simpa [found, Except.map] using facts
    obtain ⟨context, path, before, _, _, _, ⟨result, deleted, yields⟩, _⟩ :=
      mutations_splice found (by simp [trail])
    exact ⟨tree, address, site, context, result, rfl, rfl, found, trail, path, before.trans offset,
      text ▸ deleted, yields⟩

end SwiftTree
