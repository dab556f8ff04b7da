import SwiftTree.Proofs.Grammar.Placement
import SwiftTree.Proofs.Node.Trivia
import SwiftTree.Proofs.Result
import SwiftTree.Script.Basic

/-!
# What the text of a step stands for

The nodes that are made from a text to be put into a tree can be inserted: below them everything is
in its place, and none of them marks the end. The trivia that they take over from their surroundings
has no bearing on that. Whether they may stand at the place itself is for the policy to decide.
-/

namespace SwiftTree

namespace Node

/-- The node can be put into a tree. -/
structure Insertable (node : Node) : Prop where
  placed : node.Placed
  inner : ¬node.marksEnd

namespace Insertable

theorem bare_iff {node : Node} : Insertable node.bare ↔ Insertable node := by
  constructor
  · intro h
    exact ⟨h.placed.of_bare, node.marksEnd_bare ▸ h.inner⟩
  · intro h
    exact ⟨h.placed.bare, node.marksEnd_bare.symm ▸ h.inner⟩

theorem congr_bare {a b : Node} (same : b.bare = a.bare) (h : a.Insertable) : b.Insertable :=
  bare_iff.mp (same ▸ bare_iff.mpr h)

/-- Trivia has no bearing on whether nodes can be inserted. -/
theorem congr_map_bare {as bs : List Node} (same : bs.map bare = as.map bare)
    (h : ∀ node ∈ as, node.Insertable) : ∀ node ∈ bs, node.Insertable := by
  have bares : ∀ node ∈ bs.map bare, node.Insertable := by
    rw [same]
    simpa only [List.forall_mem_map, bare_iff] using h
  simpa only [List.forall_mem_map, bare_iff] using bares

end Insertable

end Node

namespace Fragment

theorem map_bare_close {nodes result : List Node} {trivia : Trivia}
    (h : close nodes trivia = .ok result) : result.map Node.bare = nodes.map Node.bare := by
  unfold close at h
  split at h
  · rename_i last found
    obtain ⟨before, rfl⟩ := List.getLast?_eq_some_iff.mp found
    cases h
    simp
  · cases h

theorem insertable_tokens {text : String} {nodes : List Node} (h : tokens text = .ok nodes) :
    ∀ node ∈ nodes, node.Insertable := by
  obtain ⟨before, last, split, -, inner⟩ := endsOnce_lex text
  unfold tokens at h
  dsimp only at h
  split at h
  · cases h
  · rw [split, List.dropLast_concat] at h
    refine .congr_map_bare (map_bare_close h) ?_
    simp only [List.forall_mem_map]
    exact fun t member => ⟨.token t, inner t member⟩

theorem insertable_token {text : String} {node : Node} (h : token text = .ok node) :
    node.Insertable := by
  obtain ⟨nodes, all, single⟩ := bind_eq_ok_iff.mp h
  split at single
  · cases single
    exact insertable_tokens all _ List.mem_cons_self
  · cases single

theorem insertable_items {context : FragmentContext} {text : String} {nodes : List Node}
    (h : items context text = .ok nodes) : ∀ node ∈ nodes, node.Insertable := by
  obtain ⟨found, list, placed⟩ := Grammar.exists_items context.items context.owner (lex text)
  have composites : ∀ node ∈ found, ¬node.marksEnd := by
    intro node member
    have admitted := placed.admitted node member
    cases node with
    | token t => cases context <;> cases admitted
    | composite kind children => simp [Node.marksEnd]
  unfold items at h
  dsimp only at h
  split at h
  · cases h
  · split at h
    · cases h
    · rw [list, List.flatMap_singleton] at h
      refine .congr_map_bare (map_bare_close h) ?_
      exact fun node member => ⟨placed.children node member, composites node member⟩

end Fragment

namespace Tree

theorem insertable_replacementFor {tree : Tree} {address : Address} {text : String} {node : Node}
    (h : tree.replacementFor address text = .ok node) : node.Insertable := by
  obtain ⟨target, -, h⟩ := bind_eq_ok_iff.mp h
  split at h
  · rename_i old _
    obtain ⟨fragment, parsed, h⟩ := bind_eq_ok_iff.mp h
    have insertable := Fragment.insertable_token (mapError_eq_ok_iff.mp parsed)
    split at h
    · rename_i new
      cases h
      refine insertable.congr_bare ?_
      unfold Token.inheritTrivia
      split
      · simp [Token.bare]
      · rfl
    · cases h
      exact insertable
  · split at h
    · cases h
    · obtain ⟨item, parsed, h⟩ := bind_eq_ok_iff.mp h
      obtain ⟨items, all, single⟩ := bind_eq_ok_iff.mp (mapError_eq_ok_iff.mp parsed)
      split at single
      · cases single
        cases h
        exact (Fragment.insertable_items all _ List.mem_cons_self).congr_bare
          (Node.bare_inheritLeading _ _)
      · cases single

theorem map_bare_separate (anchor : Node) (nodes : List Node) :
    (separate anchor nodes).map Node.bare = nodes.map Node.bare := by
  unfold separate
  split
  · split
    · simp
    · rfl
  · rfl

theorem map_bare_endLine (items : List Node) :
    (endLine items).map Node.bare = items.map Node.bare := by
  unfold endLine
  split
  · rename_i last found
    obtain ⟨before, rfl⟩ := List.getLast?_eq_some_iff.mp found
    split
    · simp
    · rfl
  · rfl

theorem insertable_insertionFor {tree : Tree} {address : Address} {text : String}
    {position : InsertPosition} {nodes : List Node}
    (h : tree.insertionFor address text position = .ok nodes) :
    ∀ node ∈ nodes, node.Insertable := by
  obtain ⟨anchor, -, h⟩ := bind_eq_ok_iff.mp h
  dsimp only at h
  split at h
  · obtain ⟨tokens, parsed, h⟩ := bind_eq_ok_iff.mp h
    have insertable := Fragment.insertable_tokens (mapError_eq_ok_iff.mp parsed)
    cases h
    split
    · exact .congr_map_bare (map_bare_separate anchor.node tokens) insertable
    · exact insertable
  · obtain ⟨items, parsed, h⟩ := bind_eq_ok_iff.mp h
    have insertable := Fragment.insertable_items (mapError_eq_ok_iff.mp parsed)
    have inherited : ∀ node ∈ items.map fun item => item.inheritLeading anchor.node.leading,
        node.Insertable := .congr_map_bare (by simp [Function.comp_def]) insertable
    cases h
    split
    · exact .congr_map_bare (map_bare_endLine _) inherited
    · exact inherited

end Tree

end SwiftTree
