import SwiftTree.Proofs.Diagnostic.Position
import SwiftTree.Proofs.Node.Leaves
import SwiftTree.Token.Lexer

/-!
# Positions of what is wrong with tokens

What is wrong with a token is reported where the piece of trivia or the text of the token begins,
and remedied where it ends. Tokens that stand somewhere in a text have their parts there one after
the other, so all these positions are boundaries of the text.
-/

namespace SwiftTree.Lexer

open Text (IsBoundary StandsAt)

variable {text : String} {offset : Nat}

theorem usable_pieceDiagnostic? {piece : Piece} (h : StandsAt text offset piece.text)
    {diagnostic : Diagnostic} (found : pieceDiagnostic? offset piece = some diagnostic) :
    diagnostic.Usable text := by
  unfold pieceDiagnostic? at found
  split at found
  · obtain rfl := Option.some.inj found
    refine ⟨⟨offset, rfl, h.start⟩, List.forall_mem_nil _, ?_⟩
    exact List.forall_mem_singleton.mpr (List.forall_mem_singleton.mpr (.insert h.stop _))
  · cases found

theorem usable_triviaDiagnostics {trivia : Trivia} (h : StandsAt text offset trivia.render) :
    ∀ diagnostic ∈ triviaDiagnostics offset trivia, diagnostic.Usable text := by
  induction trivia generalizing offset with
  | nil => exact List.forall_mem_nil _
  | cons piece rest ih =>
    rw [triviaDiagnostics, List.forall_mem_append]
    refine ⟨?_, ih h.right⟩
    intro diagnostic member
    exact usable_pieceDiagnostic? h.left (Option.mem_toList.mp member)

/-- An unknown character is reported without a remedy, and a string literal that is not closed may
be closed where it ends. -/
theorem usable_textDiagnostic? {token : Token} (h : StandsAt text offset token.text)
    {diagnostic : Diagnostic} (found : textDiagnostic? offset token = some diagnostic) :
    diagnostic.Usable text := by
  unfold textDiagnostic? at found
  split at found
  · split at found
    · cases found
    · obtain rfl := Option.some.inj found
      refine ⟨⟨offset, rfl, h.start⟩, ?_, ?_⟩
      · exact List.forall_mem_singleton.mpr ⟨offset, rfl, h.start⟩
      · exact List.forall_mem_singleton.mpr (List.forall_mem_singleton.mpr (.insert h.stop _))
  · split at found
    · cases found
    · obtain rfl := Option.some.inj found
      exact ⟨⟨offset, rfl, h.start⟩, List.forall_mem_nil _, List.forall_mem_nil _⟩
  · cases found

theorem usable_tokenDiagnostics {token : Token} (h : StandsAt text offset token.render) :
    ∀ diagnostic ∈ tokenDiagnostics offset token, diagnostic.Usable text := by
  have content : StandsAt text (offset + token.leading.width)
      (token.text ++ token.trailing.render) := by
    rw [← Trivia.utf8ByteSize_render]
    exact h.right
  unfold tokenDiagnostics
  dsimp only
  rw [List.forall_mem_append, List.forall_mem_append]
  refine ⟨usable_triviaDiagnostics h.left, ?_, usable_triviaDiagnostics content.right⟩
  intro diagnostic member
  exact usable_textDiagnostic? content.left (Option.mem_toList.mp member)

/-- All that is wrong with tokens that stand at an offset has usable positions. -/
theorem usable_diagnosticsFrom {tokens : List Token}
    (h : StandsAt text offset (Token.renderAll tokens)) :
    ∀ diagnostic ∈ diagnosticsFrom offset tokens, diagnostic.Usable text := by
  induction tokens generalizing offset with
  | nil => exact List.forall_mem_nil _
  | cons token rest ih =>
    rw [diagnosticsFrom, List.forall_mem_append]
    refine ⟨usable_tokenDiagnostics h.left, ?_⟩
    rw [← Token.utf8ByteSize_render]
    exact ih h.right

end SwiftTree.Lexer
