import SwiftTree.FixIt
import SwiftTree.Proofs.Text.Split

/-!
# Usable positions

The positions of a diagnostic can be used in a text if each of them is a character boundary of the
text and no range runs backwards. What is asked of changes is kept when they are merged: a merged
change names only offsets of the changes that it is made of.
-/

namespace SwiftTree

open Text (IsBoundary)

namespace Change

/-- The byte offsets that a change names, the start of a range before its end. -/
def offsets : Change → List Nat
  | replace start stop _ => [start, stop]
  | insert offset _ => [offset]
  | delete start stop => [start, stop]
  | generic _ _ => []

/-- The change can be made in a text. -/
structure Usable (text : String) (change : Change) : Prop where
  boundaries : ∀ offset ∈ change.offsets, IsBoundary text offset
  ordered : change.offsets.Pairwise (· ≤ ·)

namespace Usable

variable {text : String}

theorem insert {offset : Nat} (h : IsBoundary text offset) (newText : String) :
    Usable text (.insert offset newText) :=
  ⟨List.forall_mem_singleton.mpr h, List.pairwise_singleton _ _⟩

/-- A range from one boundary to a later one. -/
theorem of_range {change : Change} {start stop : Nat} (range : change.offsets = [start, stop])
    (first : IsBoundary text start) (second : IsBoundary text stop) (order : start ≤ stop) :
    change.Usable text := by
  refine ⟨?_, ?_⟩
  · rw [range, List.forall_mem_cons, List.forall_mem_singleton]
    exact ⟨first, second⟩
  · rw [range, List.pairwise_pair]
    exact order

theorem range {change : Change} {start stop : Nat} (h : change.Usable text)
    (range : change.offsets = [start, stop]) :
    IsBoundary text start ∧ IsBoundary text stop ∧ start ≤ stop := by
  obtain ⟨boundaries, ordered⟩ := h
  rw [range, List.forall_mem_cons, List.forall_mem_singleton] at boundaries
  rw [range, List.pairwise_pair] at ordered
  exact ⟨boundaries.1, boundaries.2, ordered⟩

/-- Two ranges that touch are merged into one that reaches from the start of the first to the end of
the second. -/
theorem merge? {first second merged : Change} (left : first.Usable text)
    (right : second.Usable text) (h : first.merge? second = some merged) : merged.Usable text := by
  unfold Change.merge? at h
  split at h
  · split at h
    · obtain rfl := Option.some.inj h
      exact insert (left.boundaries _ List.mem_cons_self) _
    · cases h
  · split at h
    · rename_i touch
      obtain rfl := Option.some.inj h
      obtain ⟨start, -, before⟩ := left.range rfl
      obtain ⟨-, stop, after⟩ := right.range rfl
      exact of_range rfl start stop (Nat.le_trans before (touch ▸ after))
    · cases h
  · split at h
    · rename_i touch
      obtain rfl := Option.some.inj h
      obtain ⟨start, -, before⟩ := left.range rfl
      obtain ⟨-, stop, after⟩ := right.range rfl
      exact of_range rfl start stop (Nat.le_trans before (touch ▸ after))
    · cases h
  · cases h

end Usable

end Change

section Consolidation

variable {P : Change → Prop}
variable (merges : ∀ {first second merged : Change}, P first → P second →
  first.merge? second = some merged → P merged)

include merges

theorem Change.forall_mem_mergeRuns {change : Change} {rest : List Change} (first : P change)
    (others : ∀ other ∈ rest, P other) : ∀ merged ∈ change.mergeRuns rest, P merged := by
  induction rest generalizing change with
  | nil => exact List.forall_mem_singleton.mpr first
  | cons next rest ih =>
    obtain ⟨second, later⟩ := List.forall_mem_cons.mp others
    unfold mergeRuns
    split
    · rename_i merged found
      exact ih (merges first second found) later
    · exact List.forall_mem_cons.mpr ⟨first, ih second later⟩

theorem forall_mem_coalesce {changes : List Change} (h : ∀ change ∈ changes, P change) :
    ∀ change ∈ coalesce changes, P change := by
  cases changes with
  | nil => exact h
  | cons change rest =>
    obtain ⟨first, others⟩ := List.forall_mem_cons.mp h
    exact Change.forall_mem_mergeRuns merges first others

theorem MergedFixIt.forall_mem_join? {first second joined : MergedFixIt}
    (left : ∀ change ∈ first.changes, P change) (right : ∀ change ∈ second.changes, P change)
    (h : first.join? second = some joined) : ∀ change ∈ joined.changes, P change := by
  unfold join? at h
  split at h
  · rename_i a b one another
    obtain ⟨merged, found, rfl⟩ := Option.map_eq_some_iff.mp h
    rw [one, List.forall_mem_singleton] at left
    rw [another, List.forall_mem_singleton] at right
    exact List.forall_mem_singleton.mpr (merges left right found)
  · cases h

theorem MergedFixIt.forall_mem_joinRuns {fixIt : MergedFixIt} {rest : List MergedFixIt}
    (first : ∀ change ∈ fixIt.changes, P change)
    (others : ∀ other ∈ rest, ∀ change ∈ other.changes, P change) :
    ∀ joined ∈ fixIt.joinRuns rest, ∀ change ∈ joined.changes, P change := by
  induction rest generalizing fixIt with
  | nil => exact List.forall_mem_singleton.mpr first
  | cons next rest ih =>
    obtain ⟨second, later⟩ := List.forall_mem_cons.mp others
    unfold joinRuns
    split
    · rename_i joined found
      exact ih (forall_mem_join? merges first second found) later
    · exact List.forall_mem_cons.mpr ⟨first, ih second later⟩

/-- What holds of all changes, and of each change that is merged from two, holds of all changes
after fix-its are consolidated. -/
theorem forall_mem_consolidate {fixIts : List FixIt}
    (h : ∀ fixIt ∈ fixIts, ∀ change ∈ fixIt.changes, P change) :
    ∀ fixIt ∈ consolidate fixIts, ∀ change ∈ fixIt.changes, P change := by
  cases fixIts with
  | nil => exact h
  | cons fixIt rest =>
    obtain ⟨first, others⟩ := List.forall_mem_cons.mp h
    unfold consolidate
    rw [List.forall_mem_map]
    apply MergedFixIt.forall_mem_joinRuns merges (forall_mem_coalesce merges first)
    rw [List.forall_mem_map]
    exact fun other member => forall_mem_coalesce merges (others other member)

end Consolidation

namespace Diagnostic

/-- Every position of the diagnostic can be used in a text. -/
structure Usable (text : String) (diagnostic : Diagnostic) : Prop where
  offset : ∃ offset, diagnostic.offset = some offset ∧ IsBoundary text offset
  notes : ∀ note ∈ diagnostic.notes, ∃ offset, note.offset = some offset ∧ IsBoundary text offset
  fixIts : ∀ fixIt ∈ diagnostic.fixIts, ∀ change ∈ fixIt.changes, change.Usable text

end Diagnostic

end SwiftTree
