import SwiftTree.Proofs.FixIt.Runs
import SwiftTree.Proofs.Text.Escape

/-!
# Consolidated fix-its are in normal form

After consolidation there is nothing left to merge: neither within a fix-it nor between neighbouring
fix-its of one change each. Every message stands on one line. Fix-its with these properties are not
changed by consolidating them, so consolidating twice is consolidating once.
-/

namespace SwiftTree

open Text (Plain)

/-- Words with a text quoted behind them. -/
theorem Text.plain_quoting {words : String} (h : Plain words) (text : String) :
    Plain (words ++ escapeForDisplay text ++ "'") := by
  have stop : Plain "'" := by decide
  exact (h.append (plain_escapeForDisplay text)).append stop

theorem Change.plain_summary (change : Change) : Plain change.summary := by
  cases change with
  | insert offset newText => exact Text.plain_quoting (by decide) newText
  | replace start stop newText => exact Text.plain_quoting (by decide) newText
  | delete start stop =>
    have words : Plain "remove code" := by decide
    exact words
  | generic description details => exact Text.plain_escapeMessage description

theorem plain_describe (changes : List Change) : Plain (describe changes) := by
  apply Plain.intercalate
  · decide
  · intro text member
    obtain ⟨change, -, rfl⟩ := List.mem_map.mp member
    exact change.plain_summary

/-- No two neighbours among the changes can be merged. -/
abbrev Unmergeable (changes : List Change) : Prop :=
  changes.IsChain fun first second => first.merge? second = none

theorem unmergeable_coalesce (changes : List Change) : Unmergeable (coalesce changes) := by
  cases changes with
  | nil => exact .nil
  | cons change rest =>
    rw [coalesce, Change.mergeRuns_eq_fuseRuns]
    exact isChain_fuseRuns Change.merge?_eq_none_of_merge? change rest

theorem coalesce_eq_self {changes : List Change} (h : Unmergeable changes) :
    coalesce changes = changes := by
  cases changes with
  | nil => rfl
  | cons change rest =>
    rw [coalesce, Change.mergeRuns_eq_fuseRuns]
    exact fuseRuns_eq_self h

/-- Two fix-its cannot be joined: at least one of them has not exactly one change, or their changes
cannot be merged. -/
def FixIt.Apart (first second : FixIt) : Prop :=
  ∀ a b, first.changes = [a] → second.changes = [b] → a.merge? b = none

/-- Nothing among the changes of a fix-it can be merged, and its message stands on one line. -/
structure FixIt.Normal (message : String) (changes : List Change) : Prop where
  unmergeable : Unmergeable changes
  plain : Plain message

namespace MergedFixIt

theorem normal_ofFixIt (fixIt : FixIt) :
    FixIt.Normal (ofFixIt fixIt).message (ofFixIt fixIt).changes :=
  ⟨unmergeable_coalesce fixIt.changes, Text.plain_escapeMessage fixIt.message⟩

/-- The fix-it that is being built is normal all through the pass. -/
theorem normal_of_mem_fuseRuns {first : MergedFixIt} {rest : List MergedFixIt}
    (here : FixIt.Normal first.message first.changes)
    (later : ∀ fixIt ∈ rest, FixIt.Normal fixIt.message fixIt.changes) :
    ∀ fixIt ∈ fuseRuns join? first rest, FixIt.Normal fixIt.message fixIt.changes := by
  induction rest generalizing first with
  | nil => exact List.forall_mem_singleton.mpr here
  | cons next rest ih =>
    obtain ⟨second, others⟩ := List.forall_mem_cons.mp later
    cases step : first.join? next with
    | some joined =>
      rw [fuseRuns_of_some step]
      apply ih _ others
      obtain ⟨a, b, merged, -, -, -, rfl⟩ := join?_eq_some_iff.mp step
      exact ⟨.singleton merged, here.plain⟩
    | none =>
      rw [fuseRuns_of_none step]
      exact List.forall_mem_cons.mpr ⟨here, ih second others⟩

/-- A message that is made from the changes stands on one line as well. -/
theorem normal_toFixIt {fixIt : MergedFixIt} (h : FixIt.Normal fixIt.message fixIt.changes) :
    FixIt.Normal fixIt.toFixIt.message fixIt.toFixIt.changes := by
  refine ⟨h.unmergeable, ?_⟩
  unfold toFixIt
  split
  · exact plain_describe fixIt.changes
  · exact h.plain

theorem changes_ofFixIt {fixIt : FixIt} (h : FixIt.Normal fixIt.message fixIt.changes) :
    (ofFixIt fixIt).changes = fixIt.changes :=
  coalesce_eq_self h.unmergeable

/-- A normal fix-it is shown as it is. -/
theorem toFixIt_ofFixIt {fixIt : FixIt} (h : FixIt.Normal fixIt.message fixIt.changes) :
    (ofFixIt fixIt).toFixIt = fixIt := by
  have changes := coalesce_eq_self h.unmergeable
  have unmerged : (ofFixIt fixIt).merged = false := by
    simp only [ofFixIt, changes, Nat.lt_irrefl, decide_false]
  simp only [toFixIt, unmerged, Bool.false_eq_true, if_false, changes_ofFixIt h]
  rw [ofFixIt, h.plain.escapeMessage_eq_self]

end MergedFixIt

theorem normal_of_mem_consolidate (fixIts : List FixIt) :
    ∀ fixIt ∈ consolidate fixIts, FixIt.Normal fixIt.message fixIt.changes := by
  cases fixIts with
  | nil => exact List.forall_mem_nil _
  | cons fixIt rest =>
    rw [consolidate, MergedFixIt.joinRuns_eq_fuseRuns, List.forall_mem_map]
    intro merged member
    apply MergedFixIt.normal_toFixIt
    refine MergedFixIt.normal_of_mem_fuseRuns (MergedFixIt.normal_ofFixIt fixIt) ?_ merged member
    rw [List.forall_mem_map]
    exact fun other _ => MergedFixIt.normal_ofFixIt other

theorem isChain_consolidate (fixIts : List FixIt) : (consolidate fixIts).IsChain FixIt.Apart := by
  cases fixIts with
  | nil => exact .nil
  | cons fixIt rest =>
    rw [consolidate, MergedFixIt.joinRuns_eq_fuseRuns, List.isChain_map]
    apply (isChain_fuseRuns MergedFixIt.join?_eq_none_of_join? _ _).imp
    intro first second apart
    exact MergedFixIt.join?_eq_none_iff.mp apart

/-- Consolidating changes nothing where there is nothing to merge. -/
theorem consolidate_eq_self {fixIts : List FixIt}
    (normal : ∀ fixIt ∈ fixIts, FixIt.Normal fixIt.message fixIt.changes)
    (apart : fixIts.IsChain FixIt.Apart) : consolidate fixIts = fixIts := by
  have unjoined : (fixIts.map MergedFixIt.ofFixIt).IsChain (MergedFixIt.join? · · = none) := by
    rw [List.isChain_map]
    apply apart.imp_of_mem_imp
    intro first second member next same
    rw [MergedFixIt.join?_eq_none_iff, MergedFixIt.changes_ofFixIt (normal first member),
      MergedFixIt.changes_ofFixIt (normal second next)]
    exact same
  cases fixIts with
  | nil => rfl
  | cons fixIt rest =>
    rw [consolidate, MergedFixIt.joinRuns_eq_fuseRuns, fuseRuns_eq_self unjoined, ← List.map_cons,
      List.map_map]
    calc
      _ = (fixIt :: rest).map id := by
        apply List.map_congr_left
        intro other member
        exact MergedFixIt.toFixIt_ofFixIt (normal other member)
      _ = fixIt :: rest := List.map_id _

/-- Consolidated fix-its are in normal form. Consolidating them once more changes nothing, not even
a message. No two neighbouring changes of a fix-it can be merged, and neither can the changes of two
neighbouring fix-its of one change each. No message has a control character. -/
theorem consolidate_normal_form (fixIts : List FixIt) :
    consolidate (consolidate fixIts) = consolidate fixIts ∧
    (∀ fixIt ∈ consolidate fixIts,
      fixIt.changes.IsChain fun first second => first.merge? second = none) ∧
    ((consolidate fixIts).IsChain fun first second =>
      ∀ a b, first.changes = [a] → second.changes = [b] → a.merge? b = none) ∧
    ∀ fixIt ∈ consolidate fixIts, ∀ c ∈ fixIt.message.toList, Text.isControl c = false := by
  have normal := normal_of_mem_consolidate fixIts
  have apart := isChain_consolidate fixIts
  refine ⟨consolidate_eq_self normal apart, ?_, apart, ?_⟩
  · exact fun fixIt member => (normal fixIt member).unmergeable
  · exact fun fixIt member => (normal fixIt member).plain

end SwiftTree
