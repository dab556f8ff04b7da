import SwiftTree.Proofs.Node.Context
import SwiftTree.Proofs.Node.Find
import SwiftTree.Proofs.Parse.Layout

/-!
# Exchanging a node in its place

When the node at the end of a trail is exchanged for another one, the new node stands at the same
offset, the leaves on both sides of it stay, and of several exchanges only the last one counts. If
the two nodes differ in trivia only, the whole keeps its shape, and if they are tokens, every other
token stays as it is. What stands apart from the two, neither around them nor inside them, stays as
it is. Its offset stays too if it comes first, and otherwise it shifts by the difference of the
widths.
-/

namespace SwiftTree

namespace Node

variable {node old new : Node} {trail : Trail}

/-- Exchanging a node below another one exchanges it inside one of the children. -/
@[simp] theorem children_replaceAt_cons (node new : Node) (index : Nat) (trail : Trail) :
    (node.replaceAt (index :: trail) new).children =
      node.children.modify index (·.replaceAt trail new) := by
  cases node with
  | token t => exact (List.modify_nil _ index).symm
  | composite kind children => rfl

theorem replaceAt_replaceAt (node first second : Node) (trail : Trail) :
    (node.replaceAt trail first).replaceAt trail second = node.replaceAt trail second := by
  induction trail generalizing node with
  | nil => cases node <;> cases first <;> rfl
  | cons index trail ih =>
    cases node with
    | token t => rfl
    | composite kind children =>
      have twice : (Node.replaceAt · trail second) ∘ (Node.replaceAt · trail first) =
          (Node.replaceAt · trail second) := funext ih
      rw [replaceAt, replaceAt, List.modify_modify_eq, twice, replaceAt]

@[simp] theorem replaceAt_nil (node new : Node) : node.replaceAt [] new = new := by
  cases node <;> rfl

/-- The nodes around an exchanged one stay where they are, with the exchange made inside of them. -/
theorem Holds.replaceAt_inside {offset : Nat} (h : node.Holds trail offset old) (more : Trail)
    (new : Node) :
    (node.replaceAt (trail ++ more) new).Holds trail offset (old.replaceAt more new) := by
  induction trail generalizing node offset with
  | nil =>
    obtain ⟨rfl, rfl⟩ := holds_nil_iff.mp h
    exact holds_nil_iff.mpr ⟨rfl, rfl⟩
  | cons index trail ih =>
    obtain ⟨child, inside, found, here, rfl⟩ := holds_cons_iff.mp h
    obtain ⟨left, right, split, rfl⟩ := exists_split found
    refine holds_cons_iff.mpr ⟨child.replaceAt (trail ++ more) new, inside, ?_, ih here, ?_⟩
    · rw [List.cons_append, children_replaceAt_cons, split, modify_middle]
      simp
    · rw [List.cons_append, children_replaceAt_cons, split, modify_middle, List.take_left,
        List.take_left]

/-- The new node stands where the old one stood. -/
theorem Holds.replaceAt {offset : Nat} (h : node.Holds trail offset old) (new : Node) :
    (node.replaceAt trail new).Holds trail offset new := by
  simpa using h.replaceAt_inside [] new

/-- Every other token stays where it is. -/
theorem at?_replaceAt_of_token {t : Trail} {other token : Token}
    (found : node.at? trail = some (.token token)) (elsewhere : node.at? t = some (.token other))
    (apart : t ≠ trail) : (node.replaceAt trail new).at? t = some (.token other) := by
  induction trail generalizing node t with
  | nil =>
    obtain rfl := Option.some.inj found
    cases t with
    | nil => exact absurd rfl apart
    | cons index t => cases elsewhere
  | cons index trail ih =>
    cases t with
    | nil =>
      obtain rfl := Option.some.inj elsewhere
      cases found
    | cons place t =>
      rw [at?] at found elsewhere ⊢
      rw [children_replaceAt_cons]
      by_cases same : index = place
      · subst same
        obtain ⟨child, here, inside⟩ := Option.bind_eq_some_iff.mp found
        rw [here] at elsewhere
        rw [List.getElem?_modify_eq, here]
        exact ih inside elsewhere fun equal => apart (by rw [equal])
      · rwa [List.getElem?_modify_ne _ _ same]

/-- With the siblings of a node apart, exchanging it is exchanging one of the children. -/
theorem replaceAt_middle (kind : NodeKind) (left right : List Node) (child new : Node)
    (trail : Trail) :
    (composite kind (left ++ child :: right)).replaceAt (left.length :: trail) new =
      composite kind (left ++ child.replaceAt trail new :: right) := by
  rw [replaceAt, modify_middle]

/-- Exchanging a node for one of the same shape keeps the shape of the whole. -/
theorem bare_replaceAt (found : node.at? trail = some old) (same : new.bare = old.bare) :
    (node.replaceAt trail new).bare = node.bare := by
  induction trail generalizing node with
  | nil =>
    obtain rfl := Option.some.inj found
    cases node <;> exact same
  | cons index trail ih =>
    obtain ⟨left, child, right, split, rfl, inside⟩ := at?_cons_eq_some.mp found
    cases node with
    | token t => simp [children] at split
    | composite kind children =>
      obtain rfl : children = left ++ child :: right := split
      rw [replaceAt_middle, bare_composite, bare_composite, List.map_append, List.map_append,
        List.map_cons, List.map_cons, ih inside]

/-- The leaves on both sides of the exchanged node stay. -/
theorem leaves_replaceAt (found : node.at? trail = some old) (new : Node) :
    (node.replaceAt trail new).leaves =
      node.leavesBefore trail ++ new.leaves ++ node.leavesAfter trail := by
  induction trail generalizing node with
  | nil => cases node <;> simp [replaceAt, leavesBefore, leavesAfter]
  | cons index trail ih =>
    obtain ⟨left, child, right, split, rfl, inside⟩ := at?_cons_eq_some.mp found
    cases node with
    | token t => simp [children] at split
    | composite kind children =>
      obtain rfl : children = left ++ child :: right := split
      rw [replaceAt_middle, leaves_composite, leavesAll_append, leavesAll_cons, ih inside]
      simp [leavesBefore, leavesAfter]

theorem replaceAt_self (found : node.at? trail = some old) : node.replaceAt trail old = node := by
  induction trail generalizing node with
  | nil =>
    obtain rfl := Option.some.inj found
    cases node <;> rfl
  | cons index trail ih =>
    obtain ⟨left, child, right, split, rfl, inside⟩ := at?_cons_eq_some.mp found
    cases node with
    | token t => simp [children] at split
    | composite kind children =>
      obtain rfl : children = left ++ child :: right := split
      rw [replaceAt_middle, ih inside]

theorem leaves_eq_of_at? (found : node.at? trail = some old) :
    node.leaves = node.leavesBefore trail ++ old.leaves ++ node.leavesAfter trail := by
  rw [← leaves_replaceAt found, replaceAt_self found]

theorem getElem?_middle_of_ne (left right : List Node) (a b : Node) {index : Nat}
    (other : index ≠ left.length) :
    (left ++ a :: right)[index]? = (left ++ b :: right)[index]? := by
  obtain before | after := Nat.lt_or_gt_of_ne other
  · rw [List.getElem?_append_left before, List.getElem?_append_left before]
  · obtain ⟨more, rfl⟩ := Nat.exists_eq_add_of_lt after
    simp [List.getElem?_append_right, Nat.add_assoc]

theorem width_replaceAt (found : node.at? trail = some old) (new : Node) :
    (node.replaceAt trail new).width + old.width = node.width + new.width := by
  induction trail generalizing node with
  | nil =>
    obtain rfl := Option.some.inj found
    rw [replaceAt_nil, Nat.add_comm]
  | cons index trail ih =>
    obtain ⟨left, child, right, split, rfl, inside⟩ := at?_cons_eq_some.mp found
    cases node with
    | token t => simp [children] at split
    | composite kind children =>
      obtain rfl : children = left ++ child :: right := split
      have inner := ih inside
      rw [replaceAt_middle, width_composite, width_composite, widthAll_append, widthAll_append,
        widthAll_cons, widthAll_cons]
      omega

/-- A node apart from the exchanged one stays, and shifts if it comes after it. -/
theorem Holds.replaceAt_elsewhere {t : Trail} {offset : Nat} {other : Node}
    (h : node.Holds t offset other) (found : node.at? trail = some old)
    (outside : ¬trail <+: t) (beside : ¬t <+: trail) (new : Node) :
    ∃ offset', (node.replaceAt trail new).Holds t offset' other ∧
      (t < trail → offset' = offset) ∧
      (trail < t → offset' + old.width = offset + new.width) := by
  induction trail generalizing node t offset with
  | nil => exact absurd List.nil_prefix outside
  | cons index trail ih =>
    cases t with
    | nil => exact absurd List.nil_prefix beside
    | cons place t =>
      obtain ⟨left, child, right, split, rfl, inside⟩ := at?_cons_eq_some.mp found
      obtain ⟨holder, start, here, holds, rfl⟩ := holds_cons_iff.mp h
      have exchanged : (node.replaceAt (left.length :: trail) new).children =
          left ++ child.replaceAt trail new :: right := by
        rw [children_replaceAt_cons, split, modify_middle]
      rw [split] at here ⊢
      simp only [holds_cons_iff, exchanged, List.cons_lt_cons_iff]
      obtain less | rfl | greater := Nat.lt_trichotomy place left.length
      · -- to the left of the exchanged child, nothing changes
        rw [getElem?_middle_of_ne left right child (child.replaceAt trail new) (by omega)] at here
        refine ⟨_, ⟨holder, start, here, holds, rfl⟩, ?_, by omega⟩
        intro _
        rw [List.take_append_of_le_length (by omega), List.take_append_of_le_length (by omega)]
      · obtain rfl : child = holder := by simpa using here
        rw [List.cons_prefix_cons, not_and] at outside beside
        obtain ⟨start', holds', before, after⟩ := ih holds inside (outside rfl) (beside rfl)
        refine ⟨_, ⟨_, start', by simp, holds', rfl⟩, ?_, ?_⟩
        · rintro (less | ⟨-, less⟩)
          · omega
          · rw [before less]
            simp
        · rintro (less | ⟨-, less⟩)
          · omega
          · have shifted := after less
            simp only [List.take_left]
            omega
      · rw [getElem?_middle_of_ne left right child (child.replaceAt trail new) (by omega)] at here
        refine ⟨_, ⟨holder, start, here, holds, rfl⟩, by omega, ?_⟩
        intro _
        have inner := width_replaceAt inside new
        obtain ⟨more, rfl⟩ := Nat.exists_eq_add_of_lt greater
        simp only [List.take_append, Nat.add_assoc, Nat.add_sub_cancel_left, List.take_succ_cons,
          widthAll_append, widthAll_cons]
        omega

theorem children_bare (node : Node) : node.bare.children = node.children.map bare := by
  cases node with
  | token t => rw [bare_token]; rfl
  | composite kind children => rw [bare_composite]; rfl

/-- A trail leads to corresponding places in nodes of the same shape. -/
theorem at?_bare (node : Node) (trail : Trail) :
    node.bare.at? trail = (node.at? trail).map bare := by
  induction trail generalizing node with
  | nil => rfl
  | cons index trail ih =>
    rw [at?, at?, children_bare, List.getElem?_map]
    cases node.children[index]? with
    | none => rfl
    | some child => exact ih child

mutual

theorem leaves_bare : (node : Node) → node.bare.leaves = node.leaves.map Token.bare
  | token t => by rw [bare_token]; rfl
  | composite kind children => by
    rw [bare_composite, leaves_composite, leaves_composite, leavesAll_map_bare children]

theorem leavesAll_map_bare :
    (nodes : List Node) → leavesAll (nodes.map bare) = (leavesAll nodes).map Token.bare
  | [] => rfl
  | node :: rest => by
    rw [List.map_cons, leavesAll_cons, leavesAll_cons, List.map_append, leaves_bare node,
      leavesAll_map_bare rest]

end

theorem leavesBefore_bare (node : Node) (trail : Trail) :
    node.bare.leavesBefore trail = (node.leavesBefore trail).map Token.bare := by
  induction trail generalizing node with
  | nil =>
    have none (node : Node) : node.leavesBefore [] = [] := by cases node <;> rfl
    rw [none, none]
    rfl
  | cons index trail ih =>
    cases node with
    | token t => rfl
    | composite kind children =>
      rw [bare_composite, leavesBefore, leavesBefore, ← List.map_take, leavesAll_map_bare,
        List.map_append, List.getElem?_map]
      cases children[index]? with
      | none => rfl
      | some child => rw [Option.map_some, Option.elim_some, Option.elim_some, ih]

end Node

end SwiftTree
