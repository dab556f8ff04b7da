import SwiftTree.Proofs.Grammar.Position
import SwiftTree.Proofs.Record.Recovery
import SwiftTree.Proofs.Token.Position

/-!
# Every position that is reported can be used

The tokens of a text stand in it one after the other, so what is wrong with them is reported at
boundaries of the text, and so is what the grammar reports on the way from the first token to the
last. A record keeps such a position or moves it to code that the message quotes, which is found at
a boundary as well. So no position has to be clipped, and no record is a guess.
-/

namespace SwiftTree

open Text (IsBoundary StandsAt)

/-- A boundary is located without clipping. -/
theorem not_clipped_of_isBoundary {text : String} {offset : Nat} (h : IsBoundary text offset) :
    (locateClipped text offset).2 = false := by
  obtain ⟨before, after, rfl, rfl⟩ := h
  obtain ⟨location, found⟩ := exists_locate before after
  rw [locateClipped, found]

theorem isBoundary_of_correctedOffset? {text message : String} {reported notBefore offset : Nat}
    (h : correctedOffset? text reported notBefore message = some offset) :
    IsBoundary text offset := by
  unfold correctedOffset? at h
  obtain ⟨quoted, -, h⟩ := Option.bind_eq_some_iff.mp h
  obtain ⟨⟨before, after⟩, split, h⟩ := Option.bind_eq_some_iff.mp h
  obtain ⟨distance, found, h⟩ := Option.bind_eq_some_iff.mp h
  dsimp only at h
  split at h
  · cases h
  · obtain rfl := Option.some.inj h
    obtain ⟨rfl, size⟩ := Text.splitAt?_eq_some_iff.mp split
    rw [← size]
    exact Text.isBoundary_of_find? found

namespace Diagnostic

variable {text : String} {diagnostic : Diagnostic}

/-- All byte offsets that the diagnostic names: its own, those of its notes and those of its
fix-its. -/
def positions (diagnostic : Diagnostic) : List Nat :=
  diagnostic.offset.toList ++ diagnostic.notes.flatMap (fun note => note.offset.toList) ++
    diagnostic.fixIts.flatMap fun fixIt => fixIt.changes.flatMap Change.offsets

namespace Usable

theorem isBoundary_of_mem_positions (h : diagnostic.Usable text) {position : Nat}
    (member : position ∈ diagnostic.positions) : IsBoundary text position := by
  obtain (own | noted) | fixed := List.mem_append.mp member |>.imp_left List.mem_append.mp
  · obtain ⟨offset, equation, boundary⟩ := h.offset
    rw [equation, Option.toList_some, List.mem_singleton] at own
    rwa [own]
  · obtain ⟨note, among, here⟩ := List.mem_flatMap.mp noted
    obtain ⟨offset, equation, boundary⟩ := h.notes note among
    rw [equation, Option.toList_some, List.mem_singleton] at here
    rwa [here]
  · obtain ⟨fixIt, among, changed⟩ := List.mem_flatMap.mp fixed
    obtain ⟨change, part, named⟩ := List.mem_flatMap.mp changed
    exact (h.fixIts fixIt among change part).boundaries position named

/-- Only the node of a diagnostic depends on the tree. -/
theorem resolve {report : Grammar.Report} (h : report.diagnostic.Usable text)
    (sites : List Site) : (report.resolve sites).Usable text := by
  obtain ⟨offset, notes, fixIts⟩ := h
  unfold Grammar.Report.resolve
  split
  · exact ⟨offset, notes, fixIts⟩
  · split
    · exact ⟨offset, notes, fixIts⟩
    · exact ⟨offset, notes, fixIts⟩

/-- A record is placed at the reported offset or at quoted code, and neither is a guess. -/
theorem place (h : diagnostic.Usable text) (options : RecordOptions) (extent : Option Extent) :
    IsBoundary text (diagnostic.place options text extent).1 ∧
      (diagnostic.place options text extent).2 ≠ .approximate := by
  obtain ⟨offset, equation, boundary⟩ := h.offset
  have reported : diagnostic.reported? extent = some offset := by
    rw [reported?, equation, Option.some_or]
  unfold Diagnostic.place
  rw [reported, Option.getD_some]
  dsimp only
  split
  · rename_i corrected found
    split at found
    · exact ⟨isBoundary_of_correctedOffset? found, PositionQuality.noConfusion⟩
    · cases found
  · exact ⟨boundary, PositionQuality.noConfusion⟩

theorem position_record (h : diagnostic.Usable text) (options : RecordOptions) (tree : Tree) :
    (diagnostic.record options tree text).position ≠ .approximate := by
  obtain ⟨boundary, trusted⟩ := h.place options (diagnostic.node.bind tree.extent?)
  unfold record
  dsimp only
  rw [not_clipped_of_isBoundary boundary]
  exact trusted

end Usable

end Diagnostic

/-- The grammar reports only usable positions of the text. -/
theorem usable_parseItems (text : String) :
    ∀ report ∈ (Grammar.parseItems .topLevel .sourceFile (lex text)).reports.toList,
      report.diagnostic.Usable text := by
  have start : (Grammar.State.start .sourceFile (lex text)).Positioned text := by
    refine ⟨?_, ?_, List.forall_mem_nil _⟩
    · have whole := StandsAt.whole text
      nth_rewrite 2 [← renderAll_lex text] at whole
      exact whole
    · exact (StandsAt.whole text).start
  exact (Grammar.State.Positioned.stepLaw text).pursue Grammar.swift _ _ _ start |>.reports

theorem usable_parse (identity text : String) :
    ∀ diagnostic ∈ (parse identity text).diagnostics, diagnostic.Usable text := by
  intro diagnostic member
  obtain lexical | grammatical := List.mem_append.mp member
  · apply Lexer.usable_diagnosticsFrom _ diagnostic lexical
    rw [renderAll_lex]
    exact StandsAt.whole text
  · obtain ⟨report, reported, rfl⟩ := Grammar.Report.mem_resolveAll_iff.mp grammatical
    exact (usable_parseItems text report reported).resolve _

/-- Each diagnostic of a text has an offset. That offset, the offsets of its notes and the offsets
of its fix-its are boundaries of the text, within the text, and no range runs backwards. So no
record of these diagnostics is a guess, and no fix-it that a record shows has been clipped. -/
theorem reported_positions_usable (identity text : String) :
    (∀ diagnostic ∈ (parse identity text).diagnostics,
      diagnostic.offset.isSome ∧
      (∀ note ∈ diagnostic.notes, note.offset.isSome) ∧
      (∀ position ∈ diagnostic.positions,
        position ≤ text.utf8ByteSize ∧ IsBoundary text position) ∧
      (∀ fixIt ∈ diagnostic.fixIts, ∀ change ∈ fixIt.changes,
        change.offsets.Pairwise (· ≤ ·)) ∧
      ∀ fixIt ∈ consolidate diagnostic.fixIts, ∀ change ∈ fixIt.changes,
        ∀ offset ∈ change.offsets, (locateClipped text offset).2 = false) ∧
    ∀ (options : RecordOptions), ∀ record ∈
      extractRecords options (parse identity text).tree (parse identity text).diagnostics,
        record.position ≠ .approximate := by
  refine ⟨?_, ?_⟩
  · intro diagnostic reported
    have usable := usable_parse identity text diagnostic reported
    refine ⟨?_, ?_, ?_, ?_, ?_⟩
    · obtain ⟨offset, equation, -⟩ := usable.offset
      rw [equation, Option.isSome_some]
    · intro note member
      obtain ⟨offset, equation, -⟩ := usable.notes note member
      rw [equation, Option.isSome_some]
    · intro position member
      have boundary := usable.isBoundary_of_mem_positions member
      exact ⟨boundary.le, boundary⟩
    · exact fun fixIt among change part => (usable.fixIts fixIt among change part).ordered
    · intro fixIt shown change part offset named
      have kept := forall_mem_consolidate Change.Usable.merge? usable.fixIts fixIt shown change part
      exact not_clipped_of_isBoundary (kept.boundaries offset named)
  · intro options record extracted
    rw [extractRecords, List.mem_mergeSort] at extracted
    obtain ⟨diagnostic, reported, rfl⟩ := List.mem_map.mp extracted
    rw [Tree.render, Node.render_eq_leaves, leaves_parse, renderAll_lex]
    exact (usable_parse identity text diagnostic reported).position_record options _

end SwiftTree
