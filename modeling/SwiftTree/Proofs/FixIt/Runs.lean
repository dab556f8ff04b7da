import Mathlib.Data.List.Chain
import SwiftTree.FixIt

/-!
# Runs that fuse

Changes are merged and fix-its are joined in the same way. One pass goes through a list and fuses
the element built last with the next one, where the two can be fused. This module says once what
such a pass does.

A single pass leaves nothing to fuse as long as growing at its end never lets an element fuse with
the one in front of it. Changes have this property: what stands in front of a change looks only at
its kind and at where it starts, and neither is altered by what is merged behind it.
-/

namespace SwiftTree

section Runs

variable {α : Type} (fuse : α → α → Option α)

/-- Fuses an element with as many of the following ones as possible, and these among themselves. -/
def fuseRuns (first : α) : List α → List α
  | [] => [first]
  | next :: rest =>
    match fuse first next with
    | some fused => fuseRuns fused rest
    | none => first :: fuseRuns next rest

variable {fuse}

theorem fuseRuns_of_some {first next fused : α} (h : fuse first next = some fused)
    (rest : List α) : fuseRuns fuse first (next :: rest) = fuseRuns fuse fused rest := by
  simp only [fuseRuns, h]

theorem fuseRuns_of_none {first next : α} (h : fuse first next = none) (rest : List α) :
    fuseRuns fuse first (next :: rest) = first :: fuseRuns fuse next rest := by
  simp only [fuseRuns, h]

/-- Where no two neighbours can be fused, the pass changes nothing. -/
theorem fuseRuns_eq_self {first : α} {rest : List α}
    (h : (first :: rest).IsChain (fuse · · = none)) : fuseRuns fuse first rest = first :: rest := by
  induction rest generalizing first with
  | nil => rfl
  | cons next rest ih =>
    obtain ⟨apart, later⟩ := List.isChain_cons_cons.mp h
    rw [fuseRuns_of_none apart, ih later]

section Growing

variable (grows : ∀ {before first second fused : α}, fuse before first = none →
  fuse first second = some fused → fuse before fused = none)

include grows

/-- The pass goes on behind an element that cannot be fused with the next one, and this stays so. -/
theorem isChain_cons_fuseRuns {before first : α} (apart : fuse before first = none)
    (rest : List α) : (before :: fuseRuns fuse first rest).IsChain (fuse · · = none) := by
  induction rest generalizing before first with
  | nil => exact .cons_cons apart (.singleton first)
  | cons next rest ih =>
    cases step : fuse first next with
    | some fused =>
      rw [fuseRuns_of_some step]
      exact ih (grows apart step)
    | none =>
      rw [fuseRuns_of_none step]
      exact .cons_cons apart (ih step)

/-- One pass leaves no two neighbours that can be fused. -/
theorem isChain_fuseRuns (first : α) (rest : List α) :
    (fuseRuns fuse first rest).IsChain (fuse · · = none) := by
  induction rest generalizing first with
  | nil => exact .singleton first
  | cons next rest ih =>
    cases step : fuse first next with
    | some fused =>
      rw [fuseRuns_of_some step]
      exact ih fused
    | none =>
      rw [fuseRuns_of_none step]
      exact isChain_cons_fuseRuns grows step rest

end Growing

end Runs

namespace Change

theorem mergeRuns_eq_fuseRuns (change : Change) (rest : List Change) :
    change.mergeRuns rest = fuseRuns merge? change rest := by
  induction rest generalizing change with
  | nil => rfl
  | cons next rest ih =>
    simp only [mergeRuns, fuseRuns]
    cases change.merge? next with
    | some merged => exact ih merged
    | none => exact congrArg (change :: ·) (ih next)

/-- All ways in which two changes are merged. -/
theorem merge?_cases {first second merged : Change} (h : first.merge? second = some merged) :
    (∃ offset a b, first = insert offset a ∧ second = insert offset b ∧
      merged = insert offset (a ++ b)) ∨
    (∃ start middle stop a b, first = replace start middle a ∧ second = replace middle stop b ∧
      merged = replace start stop (a ++ b)) ∨
    ∃ start middle stop, first = delete start middle ∧ second = delete middle stop ∧
      merged = delete start stop := by
  unfold merge? at h
  split at h
  · split at h
    · rename_i touch
      subst touch
      obtain rfl := Option.some.inj h
      exact .inl ⟨_, _, _, rfl, rfl, rfl⟩
    · cases h
  · split at h
    · rename_i touch
      subst touch
      obtain rfl := Option.some.inj h
      exact .inr (.inl ⟨_, _, _, _, _, rfl, rfl, rfl⟩)
    · cases h
  · split at h
    · rename_i touch
      subst touch
      obtain rfl := Option.some.inj h
      exact .inr (.inr ⟨_, _, _, rfl, rfl, rfl⟩)
    · cases h
  · cases h

/-- A change that grows at its end does not become mergeable with the one in front of it. -/
theorem merge?_eq_none_of_merge? {before first second merged : Change}
    (apart : before.merge? first = none) (h : first.merge? second = some merged) :
    before.merge? merged = none := by
  obtain ⟨offset, a, b, rfl, rfl, rfl⟩ | ⟨start, middle, stop, a, b, rfl, rfl, rfl⟩ |
    ⟨start, middle, stop, rfl, rfl, rfl⟩ := merge?_cases h
  · cases before with
    | insert other text => simpa [merge?] using apart
    | _ => rfl
  · cases before with
    | replace other last text => simpa [merge?] using apart
    | _ => rfl
  · cases before with
    | delete other last => simpa [merge?] using apart
    | _ => rfl

end Change

namespace MergedFixIt

theorem joinRuns_eq_fuseRuns (fixIt : MergedFixIt) (rest : List MergedFixIt) :
    fixIt.joinRuns rest = fuseRuns join? fixIt rest := by
  induction rest generalizing fixIt with
  | nil => rfl
  | cons next rest ih =>
    simp only [joinRuns, fuseRuns]
    cases fixIt.join? next with
    | some joined => exact ih joined
    | none => exact congrArg (fixIt :: ·) (ih next)

/-- Two fix-its are joined if each has one change and these are merged. -/
theorem join?_eq_some_iff {first second joined : MergedFixIt} :
    first.join? second = some joined ↔ ∃ a b merged, first.changes = [a] ∧ second.changes = [b] ∧
      a.merge? b = some merged ∧ joined = ⟨first.message, [merged], true⟩ := by
  constructor
  · intro h
    unfold join? at h
    split at h
    · rename_i a b one another
      obtain ⟨merged, found, rfl⟩ := Option.map_eq_some_iff.mp h
      exact ⟨a, b, merged, one, another, found, rfl⟩
    · cases h
  · rintro ⟨a, b, merged, one, another, found, rfl⟩
    simp only [join?, one, another, found, Option.map_some]

theorem join?_eq_none_iff {first second : MergedFixIt} :
    first.join? second = none ↔
      ∀ a b, first.changes = [a] → second.changes = [b] → a.merge? b = none := by
  constructor
  · intro h a b one another
    simpa [join?, one, another] using h
  · intro h
    rw [Option.eq_none_iff_forall_ne_some]
    intro joined found
    obtain ⟨a, b, merged, one, another, merges, -⟩ := join?_eq_some_iff.mp found
    rw [h a b one another] at merges
    cases merges

/-- So it is with fix-its. -/
theorem join?_eq_none_of_join? {before first second joined : MergedFixIt}
    (apart : before.join? first = none) (h : first.join? second = some joined) :
    before.join? joined = none := by
  obtain ⟨a, b, merged, one, -, found, rfl⟩ := join?_eq_some_iff.mp h
  rw [join?_eq_none_iff] at apart ⊢
  intro c d single same
  obtain rfl : merged = d := List.singleton_inj.mp same
  exact Change.merge?_eq_none_of_merge? (apart c a single one) found

end MergedFixIt

end SwiftTree
