import SwiftTree.Proofs.Node.Exchange
import SwiftTree.Proofs.Node.Trivia
import SwiftTree.Record

/-!
# Offsets and widths describe the text

The offset of a node is found in two ways: by adding up widths along its trail, and by the running
sum of the walk over the whole tree. In the text of the tree, the text of the node begins there and
is as long as the width of the node says, and what is cut off it at both ends is the trivia around
the node.

Trivia is changed at the first or the last token of a node. A node is determined by its shape and
its leaves, so this exchanges one token, and without a token it changes nothing. The nodes around
the token become wider or narrower by as much as it does, those after it shift by as much, and
nothing else is different.
-/

namespace SwiftTree

namespace Tree

variable {tree : Tree}

/-- The walk over a tree comes to each node once. -/
theorem filter_sites_of_mem {site : Site} (member : site ∈ tree.sites) :
    tree.sites.filter (fun other => other.trail = site.trail) = [site] := by
  obtain ⟨before, after, split⟩ := List.append_of_mem member
  have ordered := tree.pairwise_sites
  rw [split, List.pairwise_append, List.pairwise_cons] at ordered
  obtain ⟨-, ⟨later, -⟩, earlier⟩ := ordered
  have front : ∀ other ∈ before, other.trail ≠ site.trail := by
    intro other listed same
    exact List.lt_irrefl _ (same ▸ earlier other listed site List.mem_cons_self)
  have back : ∀ other ∈ after, other.trail ≠ site.trail := by
    intro other listed same
    exact List.lt_irrefl _ (same ▸ later other listed)
  rw [split, List.filter_append, List.filter_cons_of_pos (by simp),
    List.filter_eq_nil_iff.mpr (by simpa using front),
    List.filter_eq_nil_iff.mpr (by simpa using back), List.nil_append]

/-- Offsets and widths describe the text of a tree: to whatever node a trail leads, the walk comes
to it once, at the offset that the widths along the trail add up to, and the bytes from there on, as
many as the node is wide, are its text. -/
def Measured (tree : Tree) : Prop :=
  ∀ trail node, tree.at? trail = some node → ∃ offset,
    tree.offsetAt? trail = some offset ∧
    tree.sites.filter (fun site => site.trail = trail) = [⟨node, trail, offset⟩] ∧
    Text.between? tree.render offset (offset + node.width) = some node.render

theorem measured (tree : Tree) : tree.Measured := by
  intro trail node found
  obtain ⟨offset, holds⟩ := Node.exists_holds found
  obtain ⟨before, after, text, size⟩ := holds.exists_render_split
  have visited : ⟨node, trail, offset⟩ ∈ tree.sites := mem_sites_iff.mpr holds
  refine ⟨offset, holds.2, filter_sites_of_mem visited, ?_⟩
  rw [Text.between?_eq_some_iff]
  exact ⟨before, after, text, size, by rw [size, Node.utf8ByteSize_render]⟩

/-- The extent of a node is where its content begins and ends in the text of the tree. -/
theorem extent?_of_holds {trail : Trail} {offset : Nat} {node : Node}
    (holds : tree.root.Holds trail offset node) :
    tree.extent? trail =
      some ⟨node, offset + node.leadingWidth, offset + node.contentStop⟩ := by
  have found : tree.at? trail = some node := holds.1
  have starts : tree.offsetAt? trail = some offset := holds.2
  have width := node.width_eq_content
  have stop : max (offset + node.width - node.trailingWidth) (offset + node.leadingWidth) =
      offset + node.contentStop := by
    rw [node.contentStop_eq]
    omega
  simp [extent?, found, starts, stop]

end Tree

/-- A token among others that come in two parts is in one of them. -/
theorem Token.exists_split_at {t : Token} {as bs before after : List Token}
    (h : as ++ bs = before ++ t :: after) :
    (∃ more, as = before ++ t :: more ∧ more ++ bs = after) ∨
      ∃ more, before = as ++ more ∧ bs = more ++ t :: after := by
  obtain ⟨more, front, back⟩ | ⟨_ | ⟨u, more⟩, front, back⟩ := List.append_eq_append_iff.mp h
  · exact .inr ⟨more, front, back⟩
  · exact .inr ⟨[], by simpa using front.symm, back.symm⟩
  · rw [List.cons_append, List.cons.injEq] at back
    obtain ⟨rfl, rfl⟩ := back
    exact .inl ⟨more, front, rfl⟩

namespace Node

mutual

/-- A node is determined by its shape and its leaves. -/
theorem eq_of_bare_of_leaves :
    (a b : Node) → a.bare = b.bare → a.leaves = b.leaves → a = b
  | token s, token t, _, leaves => by
    rw [List.singleton_inj.mp leaves]
  | token _, composite _ _, shape, _ => by simp at shape
  | composite _ _, token _, shape, _ => by simp at shape
  | composite j as, composite k bs, shape, leaves => by
    rw [bare_composite, bare_composite, composite.injEq] at shape
    rw [shape.1, eq_of_bare_of_leavesAll as bs shape.2 leaves]

theorem eq_of_bare_of_leavesAll :
    (as bs : List Node) → as.map bare = bs.map bare → leavesAll as = leavesAll bs → as = bs
  | [], [], _, _ => rfl
  | [], _ :: _, shape, _ => by simp at shape
  | _ :: _, [], shape, _ => by simp at shape
  | a :: as, b :: bs, shape, leaves => by
    rw [List.map_cons, List.map_cons, List.cons.injEq] at shape
    have size : a.leaves.length = b.leaves.length := by
      rw [← @List.length_map _ _ _ Token.bare, ← leaves_bare, shape.1, leaves_bare, List.length_map]
    obtain ⟨first, rest⟩ := List.append_inj leaves size
    rw [eq_of_bare_of_leaves a b shape.1 first, eq_of_bare_of_leavesAll as bs shape.2 rest]

end

mutual

/-- Every leaf is a token at the end of a trail, between the leaves to its left and to its right. -/
theorem exists_place {t : Token} : (node : Node) → (before : List Token) → {after : List Token} →
    node.leaves = before ++ t :: after →
    ∃ place, node.at? place = some (token t) ∧ node.leavesBefore place = before ∧
      node.leavesAfter place = after
  | token u, before, after, leaves => by
    obtain ⟨rfl, same⟩ | ⟨_, _, rest⟩ := List.cons_eq_append_iff.mp leaves
    · cases same
      exact ⟨[], rfl, rfl, rfl⟩
    · simp at rest
  | composite kind children, before, after, leaves => by
    obtain ⟨left, child, right, place, rfl, found, front, back⟩ :=
      exists_placeAll children before leaves
    refine ⟨left.length :: place, ?_, ?_, ?_⟩
    · rw [at?_cons_eq_some]
      exact ⟨left, child, right, rfl, rfl, found⟩
    · simp [leavesBefore, front]
    · simp [leavesAfter, back]

theorem exists_placeAll {t : Token} : (nodes : List Node) → (before : List Token) →
    {after : List Token} → leavesAll nodes = before ++ t :: after →
    ∃ left child right place, nodes = left ++ child :: right ∧
      child.at? place = some (token t) ∧ leavesAll left ++ child.leavesBefore place = before ∧
      child.leavesAfter place ++ leavesAll right = after
  | [], before, after, leaves => by simp at leaves
  | node :: rest, before, after, leaves => by
    obtain ⟨more, here, rfl⟩ | ⟨more, rfl, later⟩ := Token.exists_split_at leaves
    · obtain ⟨place, found, front, rfl⟩ := exists_place node before here
      exact ⟨[], node, rest, place, rfl, found, front, rfl⟩
    · obtain ⟨left, child, right, place, rfl, found, rfl, back⟩ := exists_placeAll rest more later
      exact ⟨node :: left, child, right, place, rfl, found, by simp, back⟩

end

variable {node changed : Node} {old new : Token}

/-- Two nodes differ in the token at one place only. The nodes around the token begin where they
did and differ in width by as much as the tokens do, the nodes before it are the same, and so are
those after it, which shift by as much. -/
structure ChangesAt (node changed : Node) (place : Trail) (old new : Token) : Prop where
  found : node.at? place = some (token old)
  placed : changed.at? place = some (token new)
  around : ∀ trail offset inner, node.Holds trail offset inner → trail <+: place →
    ∃ inner', changed.Holds trail offset inner' ∧ inner'.bare = inner.bare ∧
      inner'.width + old.width = inner.width + new.width
  before : ∀ trail offset inner, node.Holds trail offset inner → trail < place →
    ¬trail <+: place → changed.Holds trail offset inner
  after : ∀ trail offset inner, node.Holds trail offset inner → place < trail →
    ∃ offset', changed.Holds trail offset' inner ∧ offset' + old.width = offset + new.width

theorem changesAt_replaceAt {place : Trail} (found : node.at? place = some (token old))
    (same : new.bare = old.bare) :
    node.ChangesAt (node.replaceAt place (token new)) place old new where
  found := found
  placed := by
    obtain ⟨offset, holds⟩ := exists_holds found
    exact (holds.replaceAt _).1
  around trail offset inner holds inside := by
    obtain ⟨more, rfl⟩ := inside
    have below : inner.at? more = some (token old) := by
      rwa [at?_append, holds.1] at found
    exact ⟨_, holds.replaceAt_inside more _, bare_replaceAt below (by simp [same]),
      width_replaceAt below _⟩
  before trail offset inner holds less apart := by
    have outside : ¬place <+: trail := fun around => Trail.not_lt_of_isPrefix around less
    obtain ⟨offset', holds', stays, -⟩ := holds.replaceAt_elsewhere found outside apart (token new)
    rwa [stays less] at holds'
  after trail offset inner holds less := by
    have beside : ¬trail <+: place := fun around => Trail.not_lt_of_isPrefix around less
    -- nothing is inside of a token
    have outside : ¬place <+: trail := by
      rintro ⟨more, rfl⟩
      have inside := holds.1
      rw [at?_append, found] at inside
      cases more with
      | nil => exact beside (by simp)
      | cons index more => cases inside
    obtain ⟨offset', holds', -, shifts⟩ :=
      holds.replaceAt_elsewhere found outside beside (token new)
    exact ⟨offset', holds', shifts less⟩

/-- Two nodes of the same shape that differ in one leaf differ at one place. -/
theorem exists_changesAt (before : List Token) {after : List Token}
    (shape : changed.bare = node.bare) (leaves : node.leaves = before ++ old :: after)
    (leaves' : changed.leaves = before ++ new :: after) :
    ∃ place, node.leavesBefore place = before ∧ node.leavesAfter place = after ∧
      node.ChangesAt changed place old new := by
  have same : new.bare = old.bare := by
    have tokens := congrArg Node.leaves shape
    rw [leaves_bare, leaves_bare, leaves, leaves'] at tokens
    simpa using tokens
  obtain ⟨place, found, front, back⟩ := node.exists_place before leaves
  have exchanged : changed = node.replaceAt place (token new) := by
    apply eq_of_bare_of_leaves
    · rw [shape, bare_replaceAt found (by simp [same])]
    · rw [leaves', leaves_replaceAt found, front, back]
      simp
  rw [exchanged]
  exact ⟨place, front, back, changesAt_replaceAt found same⟩

/-- Other trivia in front of a node changes its first token. -/
theorem exists_changesAt_withLeading {first : Token} {rest : List Token}
    (leaves : node.leaves = first :: rest) (trivia : Trivia) :
    ∃ place, node.leavesBefore place = [] ∧
      node.ChangesAt (node.withLeading trivia) place first { first with leading := trivia } := by
  have leaves' : (node.withLeading trivia).leaves = { first with leading := trivia } :: rest := by
    rw [withLeading, leaves_mapFirst, leaves, List.modifyHead_cons]
  obtain ⟨place, front, -, changes⟩ :=
    exists_changesAt [] (node.bare_withLeading trivia) leaves leaves'
  exact ⟨place, front, changes⟩

/-- More trivia after a node changes its last token. -/
theorem exists_changesAt_appendTrailing {rest : List Token} {last : Token}
    (leaves : node.leaves = rest ++ [last]) (trivia : Trivia) :
    ∃ place, node.leavesAfter place = [] ∧
      node.ChangesAt (node.appendTrailing trivia) place last
        { last with trailing := last.trailing ++ trivia } := by
  have leaves' : (node.appendTrailing trivia).leaves =
      rest ++ [{ last with trailing := last.trailing ++ trivia }] := by
    rw [appendTrailing, leaves_mapLast, leaves, List.dropLast_concat, List.getLast?_concat]
    rfl
  obtain ⟨place, -, back, changes⟩ :=
    exists_changesAt rest (node.bare_appendTrailing trivia) leaves leaves'
  exact ⟨place, back, changes⟩

/-- Without a token, a node has no trivia to change. -/
theorem withLeading_eq_self (none : node.leaves = []) (trivia : Trivia) :
    node.withLeading trivia = node := by
  apply eq_of_bare_of_leaves _ _ (node.bare_withLeading trivia)
  rw [withLeading, leaves_mapFirst, none, List.modifyHead_nil]

theorem appendTrailing_eq_self (none : node.leaves = []) (trivia : Trivia) :
    node.appendTrailing trivia = node := by
  apply eq_of_bare_of_leaves _ _ (node.bare_appendTrailing trivia)
  rw [appendTrailing, leaves_mapLast, none]
  rfl

end Node

/-- Offsets and widths describe the text of every tree, whatever node a trail leads to. What is left
of the text of the node without the trivia around it can be cut out, and is what the extent of the
node covers in the text of the tree. Other trivia in front of a node changes its first token and
more trivia after it changes its last token, in nothing else but that, and all offsets and widths
are right for the changed text. A node without a token stays as it is. -/
theorem offsets_describe_rendering {tree : Tree} {trail : Trail} {node : Node}
    (found : tree.at? trail = some node) (trivia : Trivia) :
    tree.Measured ∧
    (node.leadingWidth ≤ node.contentStop ∧
      node.contentStop + node.trailingWidth = node.render.utf8ByteSize ∧
      Text.between? node.render node.leadingWidth node.contentStop = some node.contentText ∧
      node.render = node.leading.render ++ (node.contentText ++ node.trailing.render)) ∧
    (∃ offset, tree.offsetAt? trail = some offset ∧ tree.extent? trail =
      some ⟨node, offset + node.leadingWidth, offset + node.contentStop⟩) ∧
    (∀ first rest, node.leaves = first :: rest →
      node.firstToken? = some first ∧ ∃ place, node.leavesBefore place = [] ∧
        node.ChangesAt (node.withLeading trivia) place first { first with leading := trivia }) ∧
    (∀ rest last, node.leaves = rest ++ [last] →
      node.lastToken? = some last ∧ ∃ place, node.leavesAfter place = [] ∧
        node.ChangesAt (node.appendTrailing trivia) place last
          { last with trailing := last.trailing ++ trivia }) ∧
    ((tree.withRoot (tree.root.replaceAt trail (node.withLeading trivia))).Measured ∧
      (tree.withRoot (tree.root.replaceAt trail (node.appendTrailing trivia))).Measured) ∧
    (node.leaves = [] → node.withLeading trivia = node ∧ node.appendTrailing trivia = node) := by
  obtain ⟨offset, holds⟩ := Node.exists_holds found
  have width := node.width_eq_content
  have stop := node.contentStop_eq
  refine ⟨tree.measured, ⟨by omega, ?_, ?_, node.render_eq_contentText⟩,
    ⟨offset, holds.2, Tree.extent?_of_holds holds⟩, ?_, ?_,
    ⟨Tree.measured _, Tree.measured _⟩, ?_⟩
  · rw [Node.utf8ByteSize_render]
    omega
  · rw [node.between?_contentStop, node.contentText_eq_content]
  · intro first rest leaves
    refine ⟨?_, Node.exists_changesAt_withLeading leaves trivia⟩
    rw [Node.firstToken?_eq_head?, leaves, List.head?_cons]
  · intro rest last leaves
    refine ⟨?_, Node.exists_changesAt_appendTrailing leaves trivia⟩
    rw [Node.lastToken?_eq_getLast?, leaves, List.getLast?_concat]
  · intro none
    exact ⟨Node.withLeading_eq_self none trivia, Node.appendTrailing_eq_self none trivia⟩

/-- The only token of an expression stands between two composites without any text, behind another
token. Without the comment in front of it the expression is narrower. -/
theorem offsets_describe_rendering_hollow :
    ∃ (tree : Tree) (node : Node) (word : Token) (place : Trail),
      word = ⟨.identifier, "é", [⟨.blockComment, "/*é*/"⟩], [.whitespace " "]⟩ ∧
      node = .composite .expr
        [.composite .codeBlockItemList [], .token word, .composite .codeBlockItemList []] ∧
      tree.root = .composite .sourceFile
        [.token ⟨.identifier, "a", [], [.whitespace " "]⟩, .composite .codeBlockItemList [], node] ∧
      tree.at? [2] = some node ∧ Text.between? tree.render 2 11 = some node.render ∧
      Text.between? node.render 6 8 = some node.contentText ∧
      node.ChangesAt (node.withLeading []) place word { word with leading := [] } := by
  let word : Token := ⟨.identifier, "é", [⟨.blockComment, "/*é*/"⟩], [.whitespace " "]⟩
  let hollow : Node := .composite .codeBlockItemList []
  let node : Node := .composite .expr [hollow, .token word, hollow]
  let tree : Tree := ⟨"a", .composite .sourceFile
    [.token ⟨.identifier, "a", [], [.whitespace " "]⟩, hollow, node]⟩
  have found : tree.at? [2] = some node := rfl
  obtain ⟨measured, ⟨-, -, content, -⟩, -, first, -⟩ := offsets_describe_rendering found []
  obtain ⟨offset, starts, -, text⟩ := measured [2] node found
  obtain ⟨-, place, -, changes⟩ := first word [] rfl
  obtain rfl : 2 = offset := Option.some.inj starts
  exact ⟨tree, node, word, place, rfl, rfl, rfl, found, text, content, changes⟩

end SwiftTree
