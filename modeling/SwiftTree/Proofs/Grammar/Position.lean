import SwiftTree.Proofs.Diagnostic.Position
import SwiftTree.Proofs.Grammar.Conservation

/-!
# Positions of what the grammar reports

The state of parsing knows where the tokens that are left start and where the text of the token
taken last ends. Both are boundaries of the text, and every report takes its positions from them or
from the current token: a complaint stands at one of them, a fix-it inserts there or covers the text
of the current token, and a note on a bracket points at the token that opened it.
-/

namespace SwiftTree.Grammar

open Text (IsBoundary StandsAt)

namespace State

/-- The tokens that are left stand in the text where the state says, and all positions so far can be
used. -/
structure Positioned (text : String) (s : State) : Prop where
  rest : StandsAt text s.offset (Token.renderAll s.rest)
  contentEnd : IsBoundary text s.contentEnd
  reports : ∀ report ∈ s.reports.toList, report.diagnostic.Usable text

namespace Positioned

variable {text : String} {s t : State}

/-- Taking a token moves on by the width of the token. -/
theorem take? {token : Token} (h : s.Positioned text) (taken : s.take? = some (token, t)) :
    t.Positioned text := by
  obtain ⟨rest, -, same⟩ := take?_eq_some taken
  have tokens := h.rest
  rw [rest, Token.renderAll_cons] at tokens
  have content : StandsAt text s.offset (token.leading.render ++ token.text) := by
    have whole := tokens.left
    rw [Token.render, ← String.append_assoc] at whole
    exact whole.left
  refine ⟨?_, ?_, ?_⟩
  · have later := tokens.right
    rw [Token.utf8ByteSize_render] at later
    rw [same]
    exact later
  · have stop := content.stop
    rw [String.utf8ByteSize_append, Trivia.utf8ByteSize_render] at stop
    rw [same]
    exact stop
  · rw [same]
    exact h.reports

theorem shift (h : s.Positioned text) : s.shift.Positioned text := by
  unfold State.shift
  split
  · rename_i token t taken
    obtain ⟨rest, contentEnd, reports⟩ := h.take? taken
    exact ⟨rest, contentEnd, reports⟩
  · exact h

theorem shiftMany (h : s.Positioned text) (count : Nat) :
    (State.shiftMany count s).Positioned text := by
  induction count generalizing s with
  | zero => exact h
  | succ count ih => exact ih h.shift

theorem attach (h : s.Positioned text) : s.attach.Positioned text := by
  unfold State.attach
  split
  · exact h
  · rename_i token t taken
    obtain ⟨rest, contentEnd, reports⟩ := h.take? taken
    split
    · exact ⟨rest, contentEnd, reports⟩
    · exact ⟨rest, contentEnd, reports⟩

theorem say (h : s.Positioned text) {report : Report} (usable : report.diagnostic.Usable text) :
    (s.say report).Positioned text := by
  refine ⟨h.rest, h.contentEnd, ?_⟩
  rw [State.say, Array.toList_push, List.forall_mem_append, List.forall_mem_singleton]
  exact ⟨h.reports, usable⟩

/-- The text of the current token stands where the state says. -/
theorem content (h : s.Positioned text) :
    ∃ content, StandsAt text s.contentStart content ∧ content.utf8ByteSize = s.contentWidth := by
  have tokens := h.rest
  unfold contentStart contentWidth
  cases equation : s.rest with
  | nil =>
    rw [equation] at tokens
    exact ⟨"", tokens, rfl⟩
  | cons token rest =>
    rw [equation, Token.renderAll_cons] at tokens
    have own := tokens.left.right.left
    rw [Trivia.utf8ByteSize_render] at own
    exact ⟨token.text, own, rfl⟩

theorem contentStart (h : s.Positioned text) : IsBoundary text s.contentStart := by
  obtain ⟨content, stands, -⟩ := h.content
  exact stands.start

/-- A change that covers the text of the current token. -/
theorem usable_content (h : s.Positioned text) {change : Change}
    (range : change.offsets = [s.contentStart, s.contentStart + s.contentWidth]) :
    change.Usable text := by
  obtain ⟨content, stands, width⟩ := h.content
  exact .of_range range stands.start (width ▸ stands.stop) (Nat.le_add_right _ _)

theorem fixIt (h : s.Positioned text) {offset : Nat} (boundary : IsBoundary text offset)
    (remedy : Remedy) : ∀ change ∈ (s.fixIt offset remedy).changes, change.Usable text := by
  cases remedy with
  | insert message newText => exact List.forall_mem_singleton.mpr (.insert boundary newText)
  | remove message => exact List.forall_mem_singleton.mpr (h.usable_content rfl)

theorem complain (h : s.Positioned text) (complaint : Complaint) :
    (s.complain complaint).Positioned text := by
  have place (offset : Nat) (boundary : IsBoundary text offset) :
      ∀ fixIt ∈ complaint.remedies.map (s.fixIt offset), ∀ change ∈ fixIt.changes,
        change.Usable text := by
    rw [List.forall_mem_map]
    exact fun remedy _ => h.fixIt boundary remedy
  unfold State.complain
  apply h.say
  split
  · exact ⟨⟨_, rfl, h.contentEnd⟩, List.forall_mem_nil _, place _ h.contentEnd⟩
  · exact ⟨⟨_, rfl, h.contentStart⟩, List.forall_mem_nil _, place _ h.contentStart⟩

theorem suggestions (h : s.Positioned text) :
    ∀ fixIt ∈ s.suggestions, ∀ change ∈ fixIt.changes, change.Usable text := by
  unfold State.suggestions
  split
  · split
    · split
      · exact List.forall_mem_singleton.mpr (List.forall_mem_singleton.mpr (h.usable_content rfl))
      · exact List.forall_mem_nil _
    · exact List.forall_mem_nil _
  · exact List.forall_mem_nil _

theorem recover (h : s.Positioned text) (recovery : Recovery) :
    (s.recover recovery).Positioned text := by
  unfold State.recover
  split
  · exact h
  · rename_i count _
    let inner := State.shiftMany (count + 1) (s.enter .unexpectedNodes)
    have entered : (s.enter .unexpectedNodes).Positioned text := ⟨h.rest, h.contentEnd, h.reports⟩
    obtain ⟨rest, contentEnd, reports⟩ := entered.shiftMany (count + 1)
    have left : (s.leave inner).Positioned text := ⟨rest, contentEnd, reports⟩
    apply left.say
    refine ⟨⟨s.offset, rfl, h.rest.start⟩, List.forall_mem_nil _, ?_⟩
    dsimp only
    split
    · exact h.suggestions
    · exact List.forall_mem_nil _

theorem close (h : s.Positioned text) {openedAt : Nat} (opened : IsBoundary text openedAt)
    (bracket : Bracket) (label : String) : (s.close bracket label openedAt).Positioned text := by
  unfold State.close
  split
  · exact h.shift
  · apply h.say
    refine ⟨⟨_, rfl, h.contentEnd⟩, List.forall_mem_singleton.mpr ⟨_, rfl, opened⟩, ?_⟩
    exact List.forall_mem_singleton.mpr (List.forall_mem_singleton.mpr (.insert h.contentEnd _))

/-- Every stretch of parsing keeps positions usable. -/
theorem stepLaw (text : String) : StepLaw fun s t => s.Positioned text → t.Positioned text where
  refl _ h := h
  trans first second h := second (first h)
  shift _ h := h.shift
  attach _ h := h.attach
  recover _ recovery _ h := h.recover recovery
  complain _ complaint _ h := h.complain complaint
  delimited label _ inside h := (inside h.shift).close h.contentStart _ label
  become _ _ h := ⟨h.rest, h.contentEnd, h.reports⟩
  ask _ _ h := ⟨h.rest, h.contentEnd, h.reports⟩
  node inside h :=
    let ⟨rest, contentEnd, reports⟩ := inside ⟨h.rest, h.contentEnd, h.reports⟩
    ⟨rest, contentEnd, reports⟩

end Positioned

end State

end SwiftTree.Grammar
