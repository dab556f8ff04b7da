import Mathlib.Logic.Relation
import SwiftTree.Proofs.Diagnostic.Position
import SwiftTree.Proofs.FixIt.Runs

/-!
# Consolidation preserves the edit

Changes that are in order can be made in one pass over a text, from left to right. Consolidating
fix-its does one thing to their changes: neighbours that touch are merged, step by step. One such
step does not alter the outcome of the pass, because a merged change replaces the stretches of both
at once and puts down their new texts one after the other. So consolidated fix-its make the same
edit.
-/

namespace SwiftTree

open Text (IsBoundary)

/-- Two neighbouring changes are merged, and the others stay as they are. -/
inductive MergeStep : List Change → List Change → Prop
  | merge {first second merged : Change} (rest : List Change)
      (h : first.merge? second = some merged) : MergeStep (first :: second :: rest) (merged :: rest)
  | skip (change : Change) {before after : List Change} (h : MergeStep before after) :
      MergeStep (change :: before) (change :: after)

/-- Neighbouring changes are merged any number of times. -/
abbrev Merges : List Change → List Change → Prop :=
  Relation.ReflTransGen MergeStep

theorem MergeStep.append {before after : List Change} (h : MergeStep before after)
    (more : List Change) : MergeStep (before ++ more) (after ++ more) := by
  induction h with
  | merge rest h => exact .merge (rest ++ more) h
  | skip change h ih => exact .skip change ih

namespace Merges

variable {before after : List Change}

theorem append_right (h : Merges before after) (more : List Change) :
    Merges (before ++ more) (after ++ more) :=
  h.lift (· ++ more) fun _ _ step => step.append more

theorem append_left (more : List Change) (h : Merges before after) :
    Merges (more ++ before) (more ++ after) := by
  induction more with
  | nil => exact h
  | cons change more ih => exact ih.lift (change :: ·) fun _ _ step => .skip change step

theorem flatMap {α : Type} {f g : α → List Change} (h : ∀ a, Merges (f a) (g a)) (as : List α) :
    Merges (as.flatMap f) (as.flatMap g) := by
  induction as with
  | nil => exact .refl
  | cons a as ih => exact ((h a).append_right _).trans (append_left (g a) ih)

/-- A pass that fuses neighbours merges their changes if fusing two of them does. -/
theorem of_fuseRuns {α : Type} {fuse : α → α → Option α} {changes : α → List Change}
    (fuses : ∀ {first second fused}, fuse first second = some fused →
      Merges (changes first ++ changes second) (changes fused))
    (first : α) (rest : List α) :
    Merges ((first :: rest).flatMap changes) ((fuseRuns fuse first rest).flatMap changes) := by
  induction rest generalizing first with
  | nil => exact .refl
  | cons next rest ih =>
    cases step : fuse first next with
    | some fused =>
      have joined : Merges ((first :: next :: rest).flatMap changes)
          ((fused :: rest).flatMap changes) := by
        rw [List.flatMap_cons, List.flatMap_cons, List.flatMap_cons, ← List.append_assoc]
        exact (fuses step).append_right _
      rw [fuseRuns_of_some step]
      exact joined.trans (ih fused)
    | none =>
      rw [fuseRuns_of_none step]
      exact append_left (changes first) (ih next)

end Merges

theorem merges_coalesce (changes : List Change) : Merges changes (coalesce changes) := by
  cases changes with
  | nil => exact .refl
  | cons change rest =>
    have fuses {first second merged : Change} (h : first.merge? second = some merged) :
        Merges ([first] ++ [second]) [merged] := .single (.merge [] h)
    have run : Merges ((change :: rest).flatMap ([·]))
        ((fuseRuns Change.merge? change rest).flatMap ([·])) :=
      Merges.of_fuseRuns fuses change rest
    rwa [List.flatMap_singleton', List.flatMap_singleton', ← Change.mergeRuns_eq_fuseRuns] at run

/-- All that consolidating fix-its does to their changes is to merge neighbours. -/
theorem merges_consolidate (fixIts : List FixIt) :
    Merges (fixIts.flatMap FixIt.changes) ((consolidate fixIts).flatMap FixIt.changes) := by
  cases fixIts with
  | nil => exact .refl
  | cons fixIt rest =>
    have within : Merges ((fixIt :: rest).flatMap FixIt.changes)
        (((fixIt :: rest).map MergedFixIt.ofFixIt).flatMap MergedFixIt.changes) := by
      rw [List.flatMap_map]
      exact .flatMap (fun other : FixIt => merges_coalesce other.changes) _
    have fuses {first second joined : MergedFixIt} (h : first.join? second = some joined) :
        Merges (first.changes ++ second.changes) joined.changes := by
      obtain ⟨a, b, merged, one, another, found, rfl⟩ := MergedFixIt.join?_eq_some_iff.mp h
      rw [one, another]
      exact .single (.merge [] found)
    rw [consolidate, MergedFixIt.joinRuns_eq_fuseRuns, List.flatMap_map]
    exact within.trans (Merges.of_fuseRuns fuses _ _)

namespace Text

theorem eq_empty_of_between? {s middle : String} {offset : Nat}
    (h : between? s offset offset = some middle) : middle = "" := by
  obtain ⟨before, after, -, start, stop⟩ := between?_eq_some_iff.mp h
  rw [← String.utf8ByteSize_eq_zero_iff]
  omega

/-- Between two boundaries in order there is always something, if only the empty text. -/
theorem exists_between? {s : String} {start stop : Nat} (first : IsBoundary s start)
    (second : IsBoundary s stop) (order : start ≤ stop) :
    ∃ middle, between? s start stop = some middle := by
  obtain ⟨before, middle, after, parts⟩ := exists_cut_of_isBoundary first second order
  exact ⟨middle, between?_eq_some_iff.mpr ⟨before, after, parts⟩⟩

end Text

/-- A stretch of bytes and the text that is to stand in its place. -/
structure Replacement where
  start : Nat
  stop : Nat
  newText : String

namespace Change

/-- What a change does to a text. An insertion replaces nothing, a deletion leaves nothing, and a
change that is only described has no effect. -/
def replacement? : Change → Option Replacement
  | replace start stop newText => some ⟨start, stop, newText⟩
  | insert offset newText => some ⟨offset, offset, newText⟩
  | delete start stop => some ⟨start, stop, ""⟩
  | generic _ _ => none

/-- A merged change replaces two stretches that touch by both new texts. -/
theorem exists_replacement?_of_merge? {first second merged : Change}
    (h : first.merge? second = some merged) : ∃ start middle stop a b,
      first.replacement? = some ⟨start, middle, a⟩ ∧
      second.replacement? = some ⟨middle, stop, b⟩ ∧
      merged.replacement? = some ⟨start, stop, a ++ b⟩ := by
  obtain ⟨offset, a, b, rfl, rfl, rfl⟩ | ⟨start, middle, stop, a, b, rfl, rfl, rfl⟩ |
    ⟨start, middle, stop, rfl, rfl, rfl⟩ := merge?_cases h
  · exact ⟨offset, offset, offset, a, b, rfl, rfl, rfl⟩
  · exact ⟨start, middle, stop, a, b, rfl, rfl, rfl⟩
  · exact ⟨start, middle, stop, "", "", rfl, rfl, rfl⟩

end Change

/-- What a text is from a byte offset on, with replacements made in it from left to right. What
stands in front of a replacement is kept, and the pass goes on where the replaced stretch ends. The
pass fails at an offset that is not a character boundary, or that lies before the one reached. -/
def performFrom (text : String) : Nat → List Replacement → Option String
  | position, [] => (Text.splitAt? text position).map Prod.snd
  | position, first :: rest => do
    let kept ← Text.between? text position first.start
    let done ← performFrom text first.stop rest
    if first.start ≤ first.stop then some (kept ++ first.newText ++ done) else none

/-- Performs changes in one pass over a text. -/
def perform (text : String) (changes : List Change) : Option String :=
  performFrom text 0 (changes.filterMap Change.replacement?)

variable {text : String}

theorem performFrom_cons_eq_some_iff {position : Nat} {first : Replacement}
    {rest : List Replacement} {result : String} :
    performFrom text position (first :: rest) = some result ↔
      first.start ≤ first.stop ∧ ∃ kept done, Text.between? text position first.start = some kept ∧
        performFrom text first.stop rest = some done ∧ result = kept ++ first.newText ++ done := by
  constructor
  · intro h
    obtain ⟨kept, found, h⟩ := Option.bind_eq_some_iff.mp h
    obtain ⟨done, later, h⟩ := Option.bind_eq_some_iff.mp h
    split at h
    · rename_i order
      exact ⟨order, kept, done, found, later, (Option.some.inj h).symm⟩
    · cases h
  · rintro ⟨order, kept, done, found, later, rfl⟩
    simp only [performFrom, found, later, Option.bind_eq_bind, Option.bind_some, if_pos order]

/-- A step of merging does not alter the outcome of the pass. -/
theorem MergeStep.performFrom {before after : List Change} (h : MergeStep before after)
    {position : Nat} {result : String}
    (made : performFrom text position (before.filterMap Change.replacement?) = some result) :
    performFrom text position (after.filterMap Change.replacement?) = some result := by
  induction h generalizing position result with
  | merge rest h =>
    obtain ⟨start, middle, stop, a, b, first, second, merged⟩ :=
      Change.exists_replacement?_of_merge? h
    rw [List.filterMap_cons_some first, List.filterMap_cons_some second,
      performFrom_cons_eq_some_iff] at made
    obtain ⟨order, kept, behind, found, later, rfl⟩ := made
    obtain ⟨next, between, done, touching, finish, rfl⟩ := performFrom_cons_eq_some_iff.mp later
    obtain rfl := Text.eq_empty_of_between? touching
    rw [List.filterMap_cons_some merged, performFrom_cons_eq_some_iff]
    refine ⟨Nat.le_trans order next, kept, done, found, finish, ?_⟩
    simp only [String.empty_append, String.append_assoc]
  | skip change h ih =>
    cases effect : change.replacement? with
    | none =>
      rw [List.filterMap_cons_none effect] at made ⊢
      exact ih made
    | some replacement =>
      rw [List.filterMap_cons_some effect, performFrom_cons_eq_some_iff] at made ⊢
      obtain ⟨order, kept, done, found, later, rfl⟩ := made
      exact ⟨order, kept, done, found, ih later, rfl⟩

theorem Merges.perform {before after : List Change} (h : Merges before after) {result : String}
    (made : perform text before = some result) : perform text after = some result := by
  induction h with
  | refl => exact made
  | tail _ step ih => exact step.performFrom ih

/-- The changes can be made in one pass: every offset that they name is a character boundary of the
text, and none comes before an offset named earlier. So no range runs backwards, and each change
starts where the one before it ends, or later. -/
structure InOrder (text : String) (changes : List Change) : Prop where
  boundaries : ∀ offset ∈ changes.flatMap Change.offsets, IsBoundary text offset
  ordered : (changes.flatMap Change.offsets).Pairwise (· ≤ ·)

/-- The offsets of a change are the ends of the stretch that it replaces. An insertion names both
by one offset. -/
theorem Change.offsets_of_replacement? {change : Change} {replacement : Replacement}
    (h : change.replacement? = some replacement) :
    change.offsets = [replacement.start, replacement.stop] ∨
      change.offsets = [replacement.start] ∧ replacement.stop = replacement.start := by
  cases change with
  | replace start stop newText =>
    obtain rfl := Option.some.inj h
    exact .inl rfl
  | insert offset newText =>
    obtain rfl := Option.some.inj h
    exact .inr ⟨rfl, rfl⟩
  | delete start stop =>
    obtain rfl := Option.some.inj h
    exact .inl rfl
  | generic description details => cases h

/-- Where the offsets are in order, the pass can go on to the stretch and from its end. -/
theorem Change.ordered_of_replacement? {change : Change} {replacement : Replacement}
    (h : change.replacement? = some replacement) {position : Nat} {later : List Nat}
    (ordered : (position :: (change.offsets ++ later)).Pairwise (· ≤ ·)) :
    position ≤ replacement.start ∧ replacement.start ≤ replacement.stop ∧
      (replacement.stop :: later).Pairwise (· ≤ ·) := by
  obtain range | ⟨single, same⟩ := offsets_of_replacement? h
  · rw [range] at ordered
    obtain ⟨reached, ordered⟩ := List.pairwise_cons.mp ordered
    obtain ⟨forward, onward⟩ := List.pairwise_cons.mp ordered
    exact ⟨reached _ List.mem_cons_self, forward _ List.mem_cons_self, onward⟩
  · rw [single] at ordered
    obtain ⟨reached, onward⟩ := List.pairwise_cons.mp ordered
    rw [same]
    exact ⟨reached _ List.mem_cons_self, Nat.le_refl _, onward⟩

theorem Change.isBoundary_of_replacement? {change : Change} {replacement : Replacement}
    (h : change.replacement? = some replacement)
    (boundaries : ∀ offset ∈ change.offsets, IsBoundary text offset) :
    IsBoundary text replacement.start ∧ IsBoundary text replacement.stop := by
  obtain range | ⟨single, same⟩ := offsets_of_replacement? h
  · rw [range, List.forall_mem_cons, List.forall_mem_singleton] at boundaries
    exact boundaries
  · rw [single, List.forall_mem_singleton] at boundaries
    rw [same]
    exact ⟨boundaries, boundaries⟩

/-- Changes in order can be made in one pass. The induction is on the changes, with the place that
the pass has reached in front of the offsets that are left. -/
theorem exists_performFrom {changes : List Change} {position : Nat}
    (here : IsBoundary text position)
    (boundaries : ∀ offset ∈ changes.flatMap Change.offsets, IsBoundary text offset)
    (ordered : (position :: changes.flatMap Change.offsets).Pairwise (· ≤ ·)) :
    ∃ result, performFrom text position (changes.filterMap Change.replacement?) = some result := by
  induction changes generalizing position with
  | nil =>
    obtain ⟨before, after, parts⟩ := here
    refine ⟨after, ?_⟩
    rw [List.filterMap_nil, performFrom, Text.splitAt?_eq_some_iff.mpr parts, Option.map_some]
  | cons change rest ih =>
    rw [List.flatMap_cons] at boundaries ordered
    obtain ⟨own, others⟩ := List.forall_mem_append.mp boundaries
    cases effect : change.replacement? with
    | none =>
      rw [List.filterMap_cons_none effect]
      apply ih here others
      exact ordered.sublist ((List.sublist_append_right _ _).cons_cons position)
    | some replacement =>
      obtain ⟨reached, forward, onward⟩ := Change.ordered_of_replacement? effect ordered
      obtain ⟨start, stop⟩ := Change.isBoundary_of_replacement? effect own
      obtain ⟨kept, found⟩ := Text.exists_between? here start reached
      obtain ⟨done, finish⟩ := ih stop others onward
      rw [List.filterMap_cons_some effect]
      exact ⟨_, performFrom_cons_eq_some_iff.mpr ⟨forward, kept, done, found, finish, rfl⟩⟩

theorem InOrder.exists_perform {changes : List Change} (h : InOrder text changes) :
    ∃ result, perform text changes = some result := by
  apply exists_performFrom (Text.StandsAt.whole text).start h.boundaries
  exact List.pairwise_cons.mpr ⟨fun _ _ => Nat.zero_le _, h.ordered⟩

/-- Consolidation preserves the edit. If the changes of all fix-its, one after the other, are in
order, they can be made in one pass over the text, and the changes of the consolidated fix-its make
the same text of it. -/
theorem consolidation_preserves_edit (text : String) (fixIts : List FixIt)
    (h : InOrder text (fixIts.flatMap FixIt.changes)) :
    ∃ result, perform text (fixIts.flatMap FixIt.changes) = some result ∧
      perform text ((consolidate fixIts).flatMap FixIt.changes) = some result := by
  obtain ⟨result, made⟩ := h.exists_perform
  exact ⟨result, made, (merges_consolidate fixIts).perform made⟩

/-- Two insertions at one place are merged across fix-its, two replacements that touch within one;
the description between changes has no effect, and what is deleted behind it stays apart. -/
theorem consolidation_preserves_edit_mixed :
    let fixIts : List FixIt :=
      [⟨"insert ':'", [.insert 9 ": "]⟩, ⟨"insert type", [.insert 9 "Int"]⟩,
        ⟨"move body", [.replace 10 11 "\n", .replace 11 12 "\x7b", .generic "remove brace" "",
          .delete 12 13]⟩]
    InOrder "func f(é) \x7b\x7d" (fixIts.flatMap FixIt.changes) ∧
      ((consolidate fixIts).flatMap FixIt.changes).length = 4 ∧
      ∃ result, result = "func f(é: Int)\n\x7b" ∧
        perform "func f(é) \x7b\x7d" (fixIts.flatMap FixIt.changes) = some result ∧
        perform "func f(é) \x7b\x7d" ((consolidate fixIts).flatMap FixIt.changes) =
          some result := by
  intro fixIts
  have ordered : InOrder "func f(é) \x7b\x7d" (fixIts.flatMap FixIt.changes) :=
    ⟨by decide +kernel, by decide +kernel⟩
  obtain ⟨result, made, same⟩ := consolidation_preserves_edit _ fixIts ordered
  have outcome : perform "func f(é) \x7b\x7d" (fixIts.flatMap FixIt.changes) =
      some "func f(é: Int)\n\x7b" := by decide +kernel
  refine ⟨ordered, by decide +kernel, result, ?_, made, same⟩
  exact Option.some.inj (made.symm.trans outcome)

end SwiftTree
