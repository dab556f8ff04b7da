import SwiftTree.Proofs.Addressing.Exchange
import SwiftTree.Proofs.Mutation.Frame
import SwiftTree.Proofs.Node.Placement

/-!
# Mutations that take each other back

A node that is inserted next to an address has an address of its own, and deleting it there gives
back the tree. A node that replaces another one has the address of that one, so replacing it by the
old node gives back the tree, and in between all addresses apart from it lead to the same nodes.
-/

namespace SwiftTree

namespace Path

/-- The path to the place right after a node: its last number is one more. -/
def next (path : Path) : Path where
  segments := path.segments.dropLast ++ [path.segments.getLast path.nonempty + 1]
  nonempty := by simp
  positive := by
    rw [List.mem_append, not_or]
    exact ⟨fun member => path.positive ((List.dropLast_sublist _).mem member), by simp⟩

theorem segments_next {path : Path} {level : List Nat} {number : Nat}
    (h : path.segments = level ++ [number]) : path.next.segments = level ++ [number + 1] := by
  simp [next, h]

end Path

namespace InsertPosition

/-- The path to a node that is inserted next to the node at a path. -/
def place (path : Path) : InsertPosition → Path
  | before => path
  | after => path.next

/-- The place of a single node that is inserted next to another one, as a gap of its own. -/
theorem exists_widened {scheme : Scheme} {context : Context} {path : Path} {node : Node}
    (numbers : path.segments = context.numbers scheme) (counted : scheme.counts node) (new : Node)
    (position : InsertPosition) :
    ∃ inner : Context, inner.fill [new] = context.fill (position.join [new] node) ∧
      inner.fill [] = context.fill [node] ∧
      (position.place path).segments = inner.numbers scheme := by
  have own : context.numbers scheme = _ ++ [_] := rfl
  cases position with
  | before =>
    refine ⟨context.widen [] [node], context.fill_widen _ _ _, context.fill_widen _ _ _, ?_⟩
    rw [Context.numbers_widen own, place, numbers, own]
    cases scheme <;> rfl
  | after =>
    refine ⟨context.widen [node] [], ?_, context.fill_widen _ _ _, ?_⟩
    · rw [context.fill_widen, List.append_nil]
      rfl
    · rw [Context.numbers_widen own, place, Path.segments_next (numbers.trans own),
        Scheme.count_singleton counted]

end InsertPosition

namespace Tree

variable {tree : Tree} {scheme : Scheme} {path : Path} {site : Site}

/-- What is counted up to a resolved node are the numbers of its path. -/
theorem numbersOf?_of_resolve (found : tree.resolve ⟨scheme, path⟩ = .ok site) :
    tree.numbersOf? site.trail scheme = some path.segments :=
  numbersOf?_eq_some_iff.mpr ⟨site, resolve?_eq_some_iff.mp (resolve_eq_ok_iff.mp found), rfl⟩

theorem counts_of_resolve (found : tree.resolve ⟨scheme, path⟩ = .ok site)
    (below : site.trail ≠ []) : scheme.counts site.node := by
  have member := resolve?_eq_some_iff.mp (resolve_eq_ok_iff.mp found)
  have numbered := (exists_mem_numbered_iff.mp ⟨_, member⟩).2
  obtain ⟨index, t, htrail⟩ := List.exists_cons_of_ne_nil below
  rwa [htrail, Scheme.numbers_cons] at numbered

/-- A node can be inserted next to an address, has an address then, and deleting it there gives back
its text and the tree as it was. -/
def TakesBack (tree : Tree) (new : Node) (address : Address) (position : InsertPosition) : Prop :=
  ∃ result inserted, tree.insert [new] address position = .ok result ∧
    result.resolve ⟨address.scheme, position.place address.path⟩ = .ok inserted ∧
    inserted.node = new ∧
    result.delete ⟨address.scheme, position.place address.path⟩ = .ok (new.render, tree)

theorem takesBack_of_accepted {new : Node} {kind : NodeKind}
    (found : tree.resolve ⟨scheme, path⟩ = .ok site)
    (parent : tree.parentKind? site.trail = some kind) (counted : scheme.counts new)
    (accepted : (kind.accepts new).1) (position : InsertPosition) :
    tree.TakesBack new ⟨scheme, path⟩ position := by
  have below : site.trail ≠ [] := by
    intro top
    rw [top] at parent
    cases parent
  obtain ⟨context, trail, root, -⟩ := exists_context_of_resolve found below
  have numbered := counts_of_resolve found below
  have numbers : path.segments = context.numbers scheme := by
    have own := context.numbersOf?_fill numbered tree.identity []
    rw [trail, ← root] at own
    exact Option.some.inj ((numbersOf?_of_resolve found).symm.trans own)
  obtain ⟨inner, filled, empty, place⟩ := position.exists_widened numbers numbered new
  have allowed : checkInsertion (tree.parentKind? site.trail) [new] = .ok () := by
    simp [checkInsertion, checkAccepted, parent, accepted]
  have inserted : tree.insert [new] ⟨scheme, path⟩ position =
      .ok (tree.withRoot (inner.fill [new])) := by
    refine (insert_eq_ok_iff found).mpr ⟨List.cons_ne_nil new [], below, allowed, ?_⟩
    rw [root, ← trail, context.modifySiblings_fill (insertNodes_slot [new] position site.node),
      filled]
  obtain ⟨offset, resolved⟩ := Context.exists_resolve_fill counted tree.identity [] place
  refine ⟨_, _, inserted, resolved, rfl, ?_⟩
  rw [withRoot, delete_eq_ok resolved inner.trail_ne_nil, inner.modifySiblings_fill eraseIdx_middle,
    empty, ← root]
  rfl

end Tree

/-- Insertion and deletion are inverse through paths, in every tree. Next to a declaration that
stands in a list of items, any declaration can be inserted, and next to a token that stands in no
such list and is not the root, any token but one that marks the end. After the node, the path to
what is inserted has a last number that is one more, and in front of it, the path is that of the
node. Deleting what is inserted there returns its text and gives back the tree. -/
theorem insertion_undone (tree : Tree) (path : Path) (site : Site) (position : InsertPosition) :
    (tree.resolve ⟨.declaration, path⟩ = .ok site →
      tree.parentKind? site.trail = some .codeBlockItemList ∨
        tree.parentKind? site.trail = some .memberBlockItemList →
      ∀ new : Node, new.isDeclaration → tree.TakesBack new ⟨.declaration, path⟩ position) ∧
    (tree.resolve ⟨.token, path⟩ = .ok site → site.trail ≠ [] →
      tree.parentKind? site.trail ≠ some .codeBlockItemList →
      tree.parentKind? site.trail ≠ some .memberBlockItemList →
      tree.parentKind? site.trail ≠ some .switchCaseList →
      ∀ new : Token, ¬new.isEnd → tree.TakesBack (.token new) ⟨.token, path⟩ position) := by
  constructor
  · intro found items new declared
    obtain block | members := items
    · refine Tree.takesBack_of_accepted found block declared ?_ position
      have category : new.category = .declaration := by simpa [Node.isDeclaration] using declared
      simp [NodeKind.accepts, category, NodeCategory.isCodeItem]
    · exact Tree.takesBack_of_accepted found members declared declared position
  · intro found below block members arms new inner
    obtain ⟨context, trail, root, -⟩ := Tree.exists_context_of_resolve found below
    have parent : tree.parentKind? site.trail = some context.kind := by
      have kind := context.parentKind?_fill tree.identity [site.node]
      rwa [trail, ← root] at kind
    rw [parent] at block members arms
    have accepted : (context.kind.accepts (.token new)).1 := by
      unfold NodeKind.accepts
      split <;> simp_all [Node.isToken]
    have counted : Scheme.token.counts (.token new) := by
      simpa [Scheme.counts, Node.isNumberedToken] using inner
    exact Tree.takesBack_of_accepted found parent counted accepted position

/-- A declaration is inserted after the first member of a structure, and a token in front of its
name. -/
theorem insertion_undone_first_member :
    ∃ (tree : Tree) (member name : Path) (site site' : Site) (new : Node) (word : Token),
      tree = (parse "a" "struct S \x7b var x\n var y \x7d").tree ∧
      member.segments = [1, 1] ∧ member.next.segments = [1, 2] ∧
      tree.resolve ⟨.declaration, member⟩ = .ok site ∧
      tree.parentKind? site.trail = some .memberBlockItemList ∧ new.isDeclaration ∧
      tree.TakesBack new ⟨.declaration, member⟩ .after ∧
      name.segments = [5] ∧ tree.resolve ⟨.token, name⟩ = .ok site' ∧ site'.trail ≠ [] ∧
      ¬word.isEnd ∧ tree.TakesBack (.token word) ⟨.token, name⟩ .before := by
  let tree := (parse "a" "struct S \x7b var x\n var y \x7d").tree
  let member : Path := ⟨[1, 1], by decide, by decide⟩
  let name : Path := ⟨[5], by decide, by decide⟩
  let new : Node := .composite .variableDecl [.token ⟨.keyword, "var", [.newline "\n"], []⟩]
  let word : Token := ⟨.identifier, "z", [], [.whitespace " "]⟩
  let place (site : Site) := (site.trail, tree.parentKind? site.trail)
  have facts : (tree.resolve ⟨.declaration, member⟩).map place =
        .ok ([0, 0, 2, 1, 0], some .memberBlockItemList) ∧
      (tree.resolve ⟨.token, name⟩).map place =
        .ok ([0, 0, 2, 1, 0, 1, 0], some .patternBinding) := by decide +kernel
  obtain ⟨site, found, equal⟩ := exists_of_map_eq_ok facts.1
  obtain ⟨site', found', equal'⟩ := exists_of_map_eq_ok facts.2
  obtain ⟨-, parent⟩ := Prod.mk.inj equal
  obtain ⟨trail, parent'⟩ := Prod.mk.inj equal'
  have below : site'.trail ≠ [] := by simp [trail]
  have inserted := (insertion_undone tree member site .after).1 found (.inr parent)
    new rfl
  have put := (insertion_undone tree name site' .before).2 found' below (by simp [parent'])
    (by simp [parent']) (by simp [parent']) word (by decide)
  exact ⟨tree, member, name, site, site', new, word, rfl, rfl, rfl, found,
    parent, rfl, inserted, rfl, found', below, by decide, put⟩

theorem Node.isToken_of_isNumberedToken {node : Node} (h : node.isNumberedToken) :
    node.isToken := by
  cases node with
  | token t => rfl
  | composite kind children => cases h

/-- A numbered node may be replaced by any other that is numbered, whatever the policy is. -/
theorem ReplacementPolicy.check_of_counts {scheme : Scheme} {old new : Node}
    (numbered : scheme.counts old) (alike : scheme.counts new) (policy : ReplacementPolicy)
    (parent : Option NodeKind) : policy.check parent old new = .ok () := by
  cases scheme with
  | token =>
    exact policy.check_token parent (Node.isToken_of_isNumberedToken numbered)
      (Node.isToken_of_isNumberedToken alike)
  | declaration =>
    have target : old.category = .declaration := by
      simpa [Scheme.counts, Node.isDeclaration] using numbered
    have replacement : new.category = .declaration := by
      simpa [Scheme.counts, Node.isDeclaration] using alike
    simp [check, target, replacement]

namespace Tree

variable {tree : Tree} {scheme : Scheme} {path : Path} {site : Site}

/-- Nodes with paths of which neither continues the other stand apart. -/
theorem apart_of_segments {other : Site} {q : Path}
    (found : tree.resolve ⟨scheme, path⟩ = .ok site)
    (elsewhere : tree.resolve ⟨scheme, q⟩ = .ok other)
    (outside : ¬path.segments <+: q.segments) : ¬site.trail <+: other.trail := by
  intro around
  exact outside (isPrefix_of_around
    (resolve?_eq_some_iff.mp (resolve_eq_ok_iff.mp found))
    (resolve?_eq_some_iff.mp (resolve_eq_ok_iff.mp elsewhere)) around)

theorem segments_lt_iff {other : Site} {q : Path}
    (found : tree.resolve ⟨scheme, path⟩ = .ok site)
    (elsewhere : tree.resolve ⟨scheme, q⟩ = .ok other) :
    path.segments < q.segments ↔ site.trail < other.trail :=
  lt_iff_trail_lt (resolve?_eq_some_iff.mp (resolve_eq_ok_iff.mp found))
    (resolve?_eq_some_iff.mp (resolve_eq_ok_iff.mp elsewhere))

end Tree

/-- Replacements are stable and can be reversed, in every tree and under every policy. A token below
the root is replaced by any token but one that marks the end, and a declaration by any declaration.
The address then leads to the new node, and replacing that by the old one gives back the tree. All
paths that neither continue the one replaced at nor are continued by it lead to the same nodes as
before, at the same offsets if they come first, and otherwise shifted by the difference of the
widths. -/
theorem replacement_reversible {tree : Tree} {scheme : Scheme} {path : Path} {site : Site}
    {new : Node} (policy : ReplacementPolicy) (found : tree.resolve ⟨scheme, path⟩ = .ok site)
    (below : site.trail ≠ []) (alike : scheme.counts new) :
    ∃ after, tree.replace policy ⟨scheme, path⟩ new = .ok after ∧
      after.resolve ⟨scheme, path⟩ = .ok { site with node := new } ∧
      after.replace policy ⟨scheme, path⟩ site.node = .ok tree ∧
      ∀ q other, tree.resolve ⟨scheme, q⟩ = .ok other →
        ¬path.segments <+: q.segments → ¬q.segments <+: path.segments →
        ∃ offset, after.resolve ⟨scheme, q⟩ = .ok { other with offset } ∧
          (q.segments < path.segments → offset = other.offset) ∧
          (¬q.segments < path.segments →
            offset + site.node.width = other.offset + new.width) := by
  have numbered := Tree.counts_of_resolve found below
  have holds := Tree.holds_of_resolve found
  let after := tree.withRoot (tree.root.replaceAt site.trail new)
  have resolved : after.resolve ⟨scheme, path⟩ = .ok { site with node := new } := by
    refine Tree.resolve_of_numbersOf? ?_ (holds.replaceAt new)
    rw [Tree.numbersOf?_replaceAt holds.1 numbered alike fun _ => rfl]
    exact Tree.numbersOf?_of_resolve found
  refine ⟨after, ?_, resolved, ?_, ?_⟩
  · exact (Tree.replace_eq_ok_iff found).mpr
      ⟨below, ReplacementPolicy.check_of_counts numbered alike _ _, rfl⟩
  · refine (Tree.replace_eq_ok_iff resolved).mpr
      ⟨below, ReplacementPolicy.check_of_counts alike numbered _ _, ?_⟩
    simp only [after, Tree.withRoot, Node.replaceAt_replaceAt, Node.replaceAt_self holds.1]
  · intro q other elsewhere outside beside
    have outside := Tree.apart_of_segments found elsewhere outside
    have beside := Tree.apart_of_segments elsewhere found beside
    obtain ⟨offset, stays, first, last⟩ :=
      (Tree.holds_of_resolve elsewhere).replaceAt_elsewhere holds.1 outside beside new
    refine ⟨offset, ?_, ?_, ?_⟩
    · refine Tree.resolve_of_numbersOf? ?_ stays
      rw [Tree.numbersOf?_replaceAt holds.1 numbered alike fun around => absurd around outside]
      exact Tree.numbersOf?_of_resolve elsewhere
    · intro earlier
      exact first ((Tree.segments_lt_iff elsewhere found).mp earlier)
    · intro later
      rw [Tree.segments_lt_iff elsewhere found] at later
      refine last (Decidable.byContradiction fun further => ?_)
      have equal := List.le_antisymm (List.not_lt.mp later) (List.not_lt.mp further)
      exact outside (equal ▸ List.prefix_rfl)

/-- The second of three declarations is replaced by one without any text. The first one stays, and
the third one moves to the left by the width of the second. -/
theorem replacement_reversible_second :
    ∃ (tree after : Tree) (path first third : Path) (site one three : Site) (new : Node),
      tree = (parse "a" "let a\nlet b\nlet c").tree ∧ path.segments = [2] ∧
      tree.resolve ⟨.declaration, path⟩ = .ok site ∧ site.trail ≠ [] ∧
      Scheme.declaration.counts new ∧ tree.replace ⟨true⟩ ⟨.declaration, path⟩ new = .ok after ∧
      after.resolve ⟨.declaration, path⟩ = .ok { site with node := new } ∧
      after.replace ⟨true⟩ ⟨.declaration, path⟩ site.node = .ok tree ∧
      first.segments = [1] ∧ tree.resolve ⟨.declaration, first⟩ = .ok one ∧
      after.resolve ⟨.declaration, first⟩ = .ok one ∧
      third.segments = [3] ∧ tree.resolve ⟨.declaration, third⟩ = .ok three ∧ three.offset = 11 ∧
      after.resolve ⟨.declaration, third⟩ = .ok { three with offset := 5 } := by
  let tree := (parse "a" "let a\nlet b\nlet c").tree
  let path (number : Nat) : Path := ⟨[number + 1], by simp, by simp⟩
  let new : Node := .composite .variableDecl []
  let look (number : Nat) := (tree.resolve ⟨.declaration, path number⟩).map fun site =>
    (site.trail, site.offset, site.node.width)
  have facts : look 0 = .ok ([0, 0], 0, 5) ∧ look 1 = .ok ([0, 1], 5, 6) ∧
      look 2 = .ok ([0, 2], 11, 6) := by decide +kernel
  obtain ⟨one, found, here⟩ := exists_of_map_eq_ok facts.1
  obtain ⟨site, found', place⟩ := exists_of_map_eq_ok facts.2.1
  obtain ⟨three, found'', there⟩ := exists_of_map_eq_ok facts.2.2
  simp only [Prod.mk.injEq] at here place there
  have below : site.trail ≠ [] := by simp [place.1]
  obtain ⟨after, replaced, resolved, restored, others⟩ :=
    replacement_reversible ⟨true⟩ found' below (rfl : Scheme.declaration.counts new)
  obtain ⟨start, stays, same, -⟩ := others (path 0) one found (by decide) (by decide)
  obtain ⟨start', moves, -, shifted⟩ := others (path 2) three found'' (by decide) (by decide)
  have kept : start = one.offset := same (by decide)
  have width : start' + 6 = 11 + 0 := by
    rw [← place.2.2, ← there.2.1]
    exact shifted (by decide)
  obtain rfl : start' = 5 := by omega
  rw [kept] at stays
  exact ⟨tree, after, path 1, path 0, path 2, site, one, three, new, rfl, rfl, found', below, rfl,
    replaced, resolved, restored, rfl, found, stays, rfl, found'', there.2.1, moves⟩

end SwiftTree
