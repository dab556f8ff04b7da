import SwiftTree.Proofs.Node.Leaves

/-!
# The sites of a node

The list of all sites holds each node of a tree once, with the trail that leads to it and the offset
that belongs to the trail. Each node comes before its children and these come one after the other,
so the trails stand in lexicographic order.
-/

namespace SwiftTree

namespace Trail

theorem lt_of_index_lt {i j : Nat} (trail t u : Trail) (h : i < j) :
    trail ++ i :: t < trail ++ j :: u :=
  List.append_left_lt (List.cons_lt_cons_iff.mpr (.inl h))

theorem lt_append_cons (trail t : Trail) (i : Nat) : trail < trail ++ i :: t := by
  have h : trail ++ [] < trail ++ i :: t := List.append_left_lt (List.nil_lt_cons i t)
  rwa [List.append_nil] at h

/-- A trail comes before all that continue it. -/
theorem not_lt_of_isPrefix {trail other : Trail} (h : trail <+: other) : ¬other < trail := by
  obtain ⟨more, rfl⟩ := h
  cases more with
  | nil => simp
  | cons index more => exact List.lt_asymm (lt_append_cons trail more index)

end Trail

namespace Node

/-- The node at an index parts its siblings into those to its left and those to its right. -/
theorem exists_split {nodes : List Node} {index : Nat} {node : Node}
    (found : nodes[index]? = some node) :
    ∃ left right, nodes = left ++ node :: right ∧ left.length = index := by
  obtain ⟨bound, rfl⟩ := List.getElem?_eq_some_iff.mp found
  refine ⟨nodes.take index, nodes.drop (index + 1), ?_, List.length_take_of_le (by omega)⟩
  rw [List.getElem_cons_drop, List.take_append_drop]

theorem at?_cons_eq_some {node inner : Node} {index : Nat} {t : Trail} :
    node.at? (index :: t) = some inner ↔
      ∃ left child right, node.children = left ++ child :: right ∧ left.length = index ∧
        child.at? t = some inner := by
  rw [at?]
  constructor
  · intro h
    obtain ⟨child, found, here⟩ := Option.bind_eq_some_iff.mp h
    obtain ⟨left, right, split, length⟩ := exists_split found
    exact ⟨left, child, right, split, length, here⟩
  · rintro ⟨left, child, right, split, rfl, here⟩
    simp [split, here]

/-- A trail that continues another one is followed in two steps. -/
theorem at?_append (node : Node) (trail more : Trail) :
    node.at? (trail ++ more) = (node.at? trail).bind (·.at? more) := by
  induction trail generalizing node with
  | nil => rfl
  | cons index trail ih =>
    rw [List.cons_append, at?, at?]
    cases node.children[index]? with
    | none => rfl
    | some child => exact ih child

/-- A trail is followed to the node that holds the last one on it. -/
theorem at?_concat_eq_some {node inner : Node} {trail : Trail} {index : Nat} :
    node.at? (trail ++ [index]) = some inner ↔
      ∃ parent, node.at? trail = some parent ∧ parent.children[index]? = some inner := by
  rw [at?_append, Option.bind_eq_some_iff]
  simp [at?]

/-- All nodes inside of a node have a property, and so does the node itself. -/
def Everywhere (P : Node → Prop) (node : Node) : Prop :=
  ∀ trail inner, node.at? trail = some inner → P inner

theorem everywhere_iff {P : Node → Prop} {node : Node} :
    node.Everywhere P ↔ P node ∧ ∀ child ∈ node.children, child.Everywhere P := by
  constructor
  · intro h
    refine ⟨h [] node rfl, ?_⟩
    intro child member trail inner found
    obtain ⟨left, right, split⟩ := List.append_of_mem member
    exact h (left.length :: trail) inner
      (at?_cons_eq_some.mpr ⟨left, child, right, split, rfl, found⟩)
  · rintro ⟨here, below⟩ trail inner found
    cases trail with
    | nil =>
      obtain rfl := Option.some.inj found
      exact here
    | cons index trail =>
      obtain ⟨left, child, right, split, -, found⟩ := at?_cons_eq_some.mp found
      exact below child (by simp [split]) trail inner found

@[simp] theorem everywhere_token {P : Node → Prop} (t : Token) :
    (token t).Everywhere P ↔ P (token t) := by
  rw [everywhere_iff]
  exact and_iff_left (List.forall_mem_nil _)

theorem everywhere_composite {P : Node → Prop} {kind : NodeKind} {children : List Node} :
    (composite kind children).Everywhere P ↔
      P (composite kind children) ∧ ∀ child ∈ children, child.Everywhere P :=
  everywhere_iff

/-- A node stands inside another one at the end of a trail and at an offset. -/
def Holds (node : Node) (trail : Trail) (offset : Nat) (inner : Node) : Prop :=
  node.at? trail = some inner ∧ node.offsetAt? trail = some offset

theorem holds_nil_iff {node inner : Node} {offset : Nat} :
    node.Holds [] offset inner ↔ node = inner ∧ 0 = offset := by
  simp [Holds, at?, offsetAt?]

theorem holds_cons_iff {node inner : Node} {index offset : Nat} {trail : Trail} :
    node.Holds (index :: trail) offset inner ↔
      ∃ child inside, node.children[index]? = some child ∧ child.Holds trail inside inner ∧
        offset = widthAll (node.children.take index) + inside := by
  constructor
  · rintro ⟨found, start⟩
    obtain ⟨child, atIndex, found⟩ := Option.bind_eq_some_iff.mp found
    rw [offsetAt?, atIndex, Option.bind_eq_bind, Option.bind_some] at start
    obtain ⟨inside, here, sum⟩ := Option.bind_eq_some_iff.mp start
    exact ⟨child, inside, atIndex, ⟨found, here⟩, (Option.some.inj sum).symm⟩
  · rintro ⟨child, inside, atIndex, ⟨found, here⟩, rfl⟩
    constructor
    · rw [at?, atIndex, Option.bind_some, found]
    · rw [offsetAt?, atIndex, Option.bind_eq_bind, Option.bind_some, here]
      rfl

/-- Every node that is found at the end of a trail has an offset. -/
theorem exists_holds {node inner : Node} {trail : Trail} (h : node.at? trail = some inner) :
    ∃ offset, node.Holds trail offset inner := by
  induction trail generalizing node with
  | nil => exact ⟨0, h, rfl⟩
  | cons index trail ih =>
    obtain ⟨child, found, inside⟩ := Option.bind_eq_some_iff.mp h
    obtain ⟨offset, holds⟩ := ih inside
    exact ⟨_, holds_cons_iff.mpr ⟨child, offset, found, holds, rfl⟩⟩

/-- A node comes first among its sites, and those of its children follow. -/
theorem sitesFrom_eq_cons (node : Node) (trail : Trail) (offset : Nat) :
    node.sitesFrom trail offset =
      ⟨node, trail, offset⟩ :: sitesFromAll trail 0 offset node.children := by
  cases node with
  | token t => rfl
  | composite kind children => rfl

theorem sitesFromAll_append (left right : List Node) (trail : Trail) (first offset : Nat) :
    sitesFromAll trail first offset (left ++ right) =
      sitesFromAll trail first offset left ++
        sitesFromAll trail (first + left.length) (offset + widthAll left) right := by
  induction left generalizing first offset with
  | nil => rfl
  | cons node left ih =>
    rw [List.cons_append, sitesFromAll, ih, sitesFromAll, List.append_assoc, List.length_cons,
      widthAll_cons, Nat.add_assoc offset, Nat.add_assoc first, Nat.add_comm 1]

/-- What is known of the sites of the children carries over to the sites of a node. -/
theorem mem_sitesFrom_of_children {site : Site} {node : Node} {trail : Trail} {offset : Nat}
    (inChildren : site ∈ sitesFromAll trail 0 offset node.children ↔
      ∃ index child t o, node.children[index]? = some child ∧ child.Holds t o site.node ∧
        site.trail = trail ++ (0 + index) :: t ∧
        site.offset = offset + widthAll (node.children.take index) + o) :
    site ∈ node.sitesFrom trail offset ↔
      ∃ t o, node.Holds t o site.node ∧ site.trail = trail ++ t ∧ site.offset = offset + o := by
  rw [sitesFrom_eq_cons, List.mem_cons, inChildren]
  constructor
  · rintro (rfl | ⟨index, child, t, o, found, holds, htrail, hoffset⟩)
    · exact ⟨[], 0, holds_nil_iff.mpr ⟨rfl, rfl⟩, (List.append_nil trail).symm, rfl⟩
    · refine ⟨index :: t, _, holds_cons_iff.mpr ⟨child, o, found, holds, rfl⟩, ?_, ?_⟩
      · rw [htrail, Nat.zero_add]
      · rw [hoffset, Nat.add_assoc]
  · rintro ⟨_ | ⟨index, t⟩, o, holds, htrail, hoffset⟩
    · obtain ⟨found, rfl⟩ := holds_nil_iff.mp holds
      rw [List.append_nil] at htrail
      cases site
      simp_all
    · obtain ⟨child, inside, found, here, rfl⟩ := holds_cons_iff.mp holds
      refine .inr ⟨index, child, t, inside, found, here, ?_, ?_⟩
      · rw [htrail, Nat.zero_add]
      · rw [hoffset, Nat.add_assoc]

mutual

/-- The sites of a node that stands at a trail and an offset are those of the nodes that it holds.
-/
theorem mem_sitesFrom {site : Site} : (node : Node) → {trail : Trail} → {offset : Nat} →
    (site ∈ node.sitesFrom trail offset ↔ ∃ t o, node.Holds t o site.node ∧
      site.trail = trail ++ t ∧ site.offset = offset + o)
  | token t, trail, offset => mem_sitesFrom_of_children (by simp [children, sitesFromAll])
  | composite kind children, trail, offset =>
    mem_sitesFrom_of_children (mem_sitesFromAll children)

theorem mem_sitesFromAll {site : Site} : (nodes : List Node) → {trail : Trail} →
    {first offset : Nat} → (site ∈ sitesFromAll trail first offset nodes ↔
      ∃ index child t o, nodes[index]? = some child ∧ child.Holds t o site.node ∧
        site.trail = trail ++ (first + index) :: t ∧
        site.offset = offset + widthAll (nodes.take index) + o)
  | [], trail, first, offset => by simp [sitesFromAll]
  | node :: rest, trail, first, offset => by
    rw [sitesFromAll, List.mem_append, mem_sitesFrom node, mem_sitesFromAll rest]
    constructor
    · rintro (⟨t, o, holds, htrail, hoffset⟩ | ⟨index, child, t, o, found, holds, htrail, hoffset⟩)
      · exact ⟨0, node, t, o, rfl, holds, by simpa using htrail, by simpa using hoffset⟩
      · refine ⟨index + 1, child, t, o, found, holds, ?_, ?_⟩
        · rw [htrail, Nat.add_assoc, Nat.add_comm 1]
        · rw [hoffset, List.take_succ_cons, widthAll_cons, Nat.add_assoc offset]
    · rintro ⟨_ | index, child, t, o, found, holds, htrail, hoffset⟩
      · cases found
        exact .inl ⟨t, o, holds, by simpa using htrail, by simpa using hoffset⟩
      · refine .inr ⟨index, child, t, o, found, holds, ?_, ?_⟩
        · rw [htrail, Nat.add_assoc, Nat.add_comm 1]
        · rw [hoffset, List.take_succ_cons, widthAll_cons, Nat.add_assoc offset node.width]

end

mutual

theorem pairwise_sitesFrom : (node : Node) → (trail : Trail) → (offset : Nat) →
    (node.sitesFrom trail offset).Pairwise fun a b => a.trail < b.trail
  | token t, trail, offset => by simp [sitesFrom]
  | composite kind children, trail, offset => by
    rw [sitesFrom, List.pairwise_cons]
    refine ⟨?_, pairwise_sitesFromAll children trail 0 offset⟩
    intro site member
    obtain ⟨index, _, t, _, _, _, htrail, _⟩ := (mem_sitesFromAll children).mp member
    rw [htrail]
    exact Trail.lt_append_cons trail t _

theorem pairwise_sitesFromAll : (nodes : List Node) → (trail : Trail) → (first offset : Nat) →
    (sitesFromAll trail first offset nodes).Pairwise fun a b => a.trail < b.trail
  | [], trail, first, offset => by simp [sitesFromAll]
  | node :: rest, trail, first, offset => by
    rw [sitesFromAll, List.pairwise_append]
    refine ⟨pairwise_sitesFrom node _ _, pairwise_sitesFromAll rest _ _ _, ?_⟩
    intro a inNode b inRest
    obtain ⟨t, _, _, atrail, _⟩ := (mem_sitesFrom node).mp inNode
    obtain ⟨index, _, u, _, _, _, btrail, _⟩ := (mem_sitesFromAll rest).mp inRest
    rw [atrail, btrail, List.append_assoc, List.singleton_append]
    exact Trail.lt_of_index_lt trail t u (by omega)

end

end Node

namespace Tree

/-- The sites of a tree are its nodes with their trails and offsets. -/
theorem mem_sites_iff {tree : Tree} {site : Site} :
    site ∈ tree.sites ↔
      tree.at? site.trail = some site.node ∧ tree.offsetAt? site.trail = some site.offset := by
  unfold sites Node.sites
  rw [Node.mem_sitesFrom]
  constructor
  · rintro ⟨t, o, holds, htrail, hoffset⟩
    rw [List.nil_append] at htrail
    rw [Nat.zero_add] at hoffset
    rw [htrail, hoffset]
    exact holds
  · intro holds
    exact ⟨site.trail, site.offset, holds, rfl, (Nat.zero_add _).symm⟩

/-- Each node comes before the nodes inside it and those to its right. -/
theorem pairwise_sites (tree : Tree) : tree.sites.Pairwise fun a b => a.trail < b.trail :=
  Node.pairwise_sitesFrom tree.root [] 0

/-- A site is determined by its trail. -/
theorem eq_of_trail_eq {tree : Tree} {a b : Site} (ha : a ∈ tree.sites) (hb : b ∈ tree.sites)
    (same : a.trail = b.trail) : a = b := by
  obtain ⟨anode, aoffset⟩ := mem_sites_iff.mp ha
  obtain ⟨bnode, boffset⟩ := mem_sites_iff.mp hb
  rw [same] at anode aoffset
  cases a
  cases b
  simp_all

end Tree

end SwiftTree
