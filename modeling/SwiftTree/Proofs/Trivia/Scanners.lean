import SwiftTree.Proofs.Token.Remedy
import SwiftTree.Proofs.Trivia.Documentation

/-!
# Two scans of a block comment

A block comment is scanned when a text is read, to find where the comment ends, and again when
documentation is written, to find out whether the comment fills its text. The two scans stop at the
same place, so documentation is read back as the comment that it was written as.
-/

namespace SwiftTree

open Lexer

namespace Comment

/-- The tokens of a text that is one comment. -/
def alone (text : String) : List Token :=
  [⟨.endOfFile, "", [⟨.ofComment text.toList, text⟩], []⟩]

theorem lexDiagnostics_alone (text : String) :
    lexDiagnostics (alone text) =
      (pieceDiagnostic? 0 ⟨.ofComment text.toList, text⟩).toList := by
  simp [lexDiagnostics, alone, diagnosticsFrom, tokenDiagnostics, triviaDiagnostics,
    textDiagnostic?]

/-- The comment that a text begins with. -/
def first (text : String) : Piece :=
  ⟨.ofComment (text.toList.take (length text.toList)),
    String.ofList (text.toList.take (length text.toList))⟩

theorem first_eq_of_length_eq {text : String} (whole : length text.toList = text.toList.length) :
    first text = ⟨.ofComment text.toList, text⟩ := by
  rw [first, whole, List.take_length, String.ofList_toList]

variable {text : String} (opens : ['/', '*'] <+: text.toList)

include opens

/-- A text that begins with a comment is read as that comment and what follows it. -/
theorem lexemes_of_opens :
    lexemes true 0 text.toList =
      .piece (first text) :: lexemes false 0 (text.toList.drop (length text.toList)) :=
  lexemes_of_triviaExtent? (triviaExtent?_of_slash_star true opens)

/-- The comment is the first piece of the trivia before the first token. -/
theorem exists_lex_eq_cons :
    ∃ token later trivia, lex text = token :: later ∧ token.leading = first text :: trivia := by
  rw [lex, lexemes_of_opens opens]
  exact ⟨_, _, _, rfl, rfl⟩

/-- A text is read as one comment exactly if no character follows the comment. -/
theorem lex_eq_alone_iff : lex text = alone text ↔ length text.toList = text.toList.length := by
  constructor
  · intro only
    obtain ⟨token, later, trivia, read, leading⟩ := exists_lex_eq_cons opens
    rw [only, alone, List.cons.injEq] at read
    rw [← read.1, List.cons.injEq] at leading
    have same := congrArg (fun piece => piece.text.toList.length) leading.1
    have size : text.toList.length = min (length text.toList) text.toList.length := by
      rwa [first, String.toList_ofList, List.length_take] at same
    have := length_le text.toList
    omega
  · intro whole
    rw [lex, lexemes_of_opens opens, first_eq_of_length_eq whole, whole, List.drop_length]
    rfl

theorem isUnclosed_first_iff :
    isUnclosed (first text) ↔ ∃ depth, extent text.toList = .unclosed depth := by
  cases found : extent text.toList with
  | closed size =>
    have all : length text.toList = size := by rw [length, found]
    have some : 0 < size := by
      have := two_le_length_comment opens
      omega
    simp [isUnclosed, first, all, extent_take_of_closed some found]
  | unclosed depth =>
    have all : length text.toList = text.toList.length := by rw [length, found]
    simp [isUnclosed, first_eq_of_length_eq all, found]

/-- A comment is reported at the start of the text exactly if it is not closed. -/
theorem reported_iff :
    (∃ diagnostic ∈ lexDiagnostics (lex text),
      diagnostic.message = "unterminated '/*' comment" ∧ diagnostic.offset = some 0) ↔
      isUnclosed (first text) := by
  constructor
  · rintro ⟨diagnostic, member, message, place⟩
    exact (@exists_isUnterminated_iff text [] _ _ (lexemes_of_opens opens)).mp
      ⟨diagnostic, member, .inl message, place⟩
  · intro unclosed
    exact ⟨_, mem_lexDiagnostics_iff.mpr ⟨[], _, _, lexemes_of_opens opens, if_pos unclosed⟩,
      rfl, rfl⟩

/-- What is read of a comment that is not closed. -/
theorem lex_of_unclosed {depth : Nat} (unclosed : extent text.toList = .unclosed depth) :
    lex text = alone text ∧ lexDiagnostics (lex text) =
      [{ message := "unterminated '/*' comment"
         offset := some 0
         fixIts := [.insert "insert '*/'" text.utf8ByteSize "*/"] }] := by
  have all : length text.toList = text.toList.length := by rw [length, unclosed]
  have read := (lex_eq_alone_iff opens).mpr all
  refine ⟨read, ?_⟩
  rw [read, lexDiagnostics_alone, pieceDiagnostic?, isUnclosed, unclosed]
  simp

end Comment

namespace Documentation

open Comment (alone lex_eq_alone_iff lexDiagnostics_alone lex_of_unclosed)

variable {text : String} (opens : ['/', '*'] <+: text.toList)

include opens

/-- Documentation is one closed comment exactly if it is read as one, without complaint. -/
theorem closed_iff_lex :
    blockShape text = .closed ↔ lex text = alone text ∧ lexDiagnostics (lex text) = [] := by
  rw [blockShape_eq_closed_iff opens]
  cases found : Comment.extent text.toList with
  | closed size =>
    have all : Comment.length text.toList = size := by rw [Comment.length, found]
    rw [Comment.Extent.closed.injEq, lex_eq_alone_iff opens, all]
    refine ⟨fun whole => ⟨whole, ?_⟩, And.left⟩
    rw [(lex_eq_alone_iff opens).mpr (all.trans whole), lexDiagnostics_alone,
      pieceDiagnostic?, Comment.isUnclosed, found]
    simp
  | unclosed depth =>
    simp [(lex_of_unclosed opens found).2]

/-- Documentation ends too early exactly if what is read first is a comment that something
follows. -/
theorem closedEarly_iff_lex :
    blockShape text = .closedEarly ↔ ∃ token later comment trivia rest,
      lex text = token :: later ∧ token.leading = comment :: trivia ∧
        comment.kind = .ofComment comment.text.toList ∧ text = comment.text ++ rest ∧
        rest ≠ "" := by
  rw [blockShape_eq_closedEarly_iff opens]
  obtain ⟨token, later, trivia, read, leading⟩ := Comment.exists_lex_eq_cons opens
  constructor
  · intro early
    refine ⟨token, later, Comment.first text, trivia,
      String.ofList (text.toList.drop (Comment.length text.toList)), read, leading, ?_, ?_, ?_⟩
    · simp [Comment.first]
    · simp [Comment.first, ← String.toList_inj]
    · simpa [← String.toList_inj] using early
  · rintro ⟨token', later', comment, trivia', rest, read', leading', -, parts, more⟩
    rw [read, List.cons.injEq] at read'
    rw [← read'.1, leading, List.cons.injEq] at leading'
    have size := congrArg (·.toList.length) parts
    rw [← leading'.1] at size
    have := Comment.length_le text.toList
    have : rest.toList.length ≠ 0 := by simpa using more
    simp only [Comment.first, String.toList_append, String.toList_ofList, List.length_append,
      List.length_take] at size
    omega

theorem unclosed_iff_lex :
    (∃ depth, blockShape text = .unclosed depth) ↔ ∃ diagnostic ∈ lexDiagnostics (lex text),
      diagnostic.message = "unterminated '/*' comment" ∧ diagnostic.offset = some 0 := by
  rw [Comment.reported_iff opens, Comment.isUnclosed_first_iff opens]
  simp only [blockShape_eq_unclosed_iff opens]

/-- Closing the levels that are open closes the comment. -/
theorem blockShape_append_closing {depth : Nat} (unclosed : blockShape text = .unclosed depth) :
    1 ≤ depth ∧ blockShape (text ++ closing depth) = .closed := by
  rw [blockShape_eq_unclosed_iff opens] at unclosed
  have closed := Comment.extent_append_closing unclosed
  constructor
  · cases depth with
    | zero => simp [closing, unclosed] at closed
    | succ outer => omega
  · rw [← String.toList_append] at closed
    rw [blockShape_eq_closed_iff, closed]
    rw [String.toList_append]
    exact opens.trans (List.prefix_append _ _)

end Documentation

open Documentation

/-- The scan for the shape of documentation and the scan of a text that is read agree on every text
that begins with a block comment. -/
theorem block_scans_agree {text : String} (opens : ['/', '*'] <+: text.toList) :
    (blockShape text = .closed ↔
      lex text = [⟨.endOfFile, "", [⟨.ofComment text.toList, text⟩], []⟩] ∧
        lexDiagnostics (lex text) = []) ∧
    (blockShape text = .closedEarly ↔ ∃ token later comment trivia rest,
      lex text = token :: later ∧ token.leading = comment :: trivia ∧
        comment.kind = .ofComment comment.text.toList ∧ text = comment.text ++ rest ∧
        rest ≠ "") ∧
    ((∃ depth, blockShape text = .unclosed depth) ↔
      ∃ diagnostic ∈ lexDiagnostics (lex text),
        diagnostic.message = "unterminated '/*' comment" ∧ diagnostic.offset = some 0) ∧
    ∀ depth, blockShape text = .unclosed depth →
      1 ≤ depth ∧ blockShape (text ++ closing depth) = .closed ∧
        lex text = [⟨.endOfFile, "", [⟨.ofComment text.toList, text⟩], []⟩] ∧
        lexDiagnostics (lex text) =
          [{ message := "unterminated '/*' comment"
             offset := some 0
             fixIts := [.insert "insert '*/'" text.utf8ByteSize "*/"] }] := by
  refine ⟨closed_iff_lex opens, closedEarly_iff_lex opens, unclosed_iff_lex opens, ?_⟩
  intro depth unclosed
  obtain ⟨deep, closed⟩ := blockShape_append_closing opens unclosed
  exact ⟨deep, closed,
    Comment.lex_of_unclosed opens ((blockShape_eq_unclosed_iff opens).mp unclosed)⟩

/-- A star that is part of an opening does not close a level with the slash that follows it. -/
theorem block_scans_agree_overlap :
    blockShape "/*/*/ */" = .unclosed 1 ∧ blockShape "/*/*/ */ */" = .closed :=
  ⟨by decide, ((@block_scans_agree "/*/*/ */" (by decide)).2.2.2 1 (by decide)).2.1⟩

end SwiftTree
