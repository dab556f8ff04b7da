import SwiftTree.Proofs.Trivia.Sound

/-!
# The form of a lexed text

The tokens of a text tile it, and its trivia is attached to them in one way only: what follows a
token on its line is trailing trivia, and a line break begins leading trivia. Blanks are read as far
as they go, so no two runs of them touch, and a comment has the kind that its opening gives it. The
one comment that opens otherwise is a first line that begins with a hash sign and an exclamation
mark.
-/

namespace SwiftTree

open Lexer

/-- A piece that is a comment has the kind that its text gives it. -/
def Piece.Classified (piece : Piece) : Prop :=
  piece.kind.isComment → piece.kind = .ofComment piece.text.toList

namespace Lexer

namespace Lexeme

def piece? : Lexeme → Option Piece
  | .piece trivia => some trivia
  | .token _ _ => none

theorem mem_of_pieces {found : List Lexeme} {trivia : Piece}
    (h : trivia ∈ found.filterMap piece?) : .piece trivia ∈ found := by
  obtain ⟨lexeme, member, same⟩ := List.mem_filterMap.mp h
  cases lexeme with
  | token kind text => cases same
  | piece other =>
    cases same
    exact member

theorem mem_tail_of_pieces {found : List Lexeme} {trivia : Piece}
    (h : trivia ∈ (found.filterMap piece?).tail) : .piece trivia ∈ found.tail := by
  cases found with
  | nil => cases h
  | cons first later =>
    cases first with
    | piece other => exact mem_of_pieces h
    | token kind text => exact mem_of_pieces (List.mem_of_mem_tail h)

end Lexeme

theorem classified_of_triviaExtent? {cs : List Char} {kind : TriviaKind} {length : Nat}
    (h : triviaExtent? false cs = some (kind, length)) :
    (⟨kind, String.ofList (cs.take length)⟩ : Piece).Classified := by
  intro comment
  cases cs with
  | nil => cases h
  | cons c cs =>
    simp only [triviaExtent?, Bool.false_and, Bool.false_eq_true, if_false] at h
    split at h
    · cases h
      cases comment
    split at h
    · cases h
      cases comment
    split at h
    · cases h
      cases comment
    split at h
    · cases h
      rw [String.toList_ofList]
    split at h
    · cases h
      rw [String.toList_ofList]
    · cases h

/-- Away from the start of the text, comments have the kind that their text gives them. -/
theorem classified_of_mem_lexemes {taken : Nat} {cs : List Char} {piece : Piece}
    (h : .piece piece ∈ lexemes false taken cs) : piece.Classified := by
  obtain ⟨first, c, rest, start, found⟩ := exists_lexeme_of_mem_lexemes h
  obtain rfl : first = false := by simpa using start
  unfold lexeme at found
  split at found
  · rename_i extent
    rw [Lexeme.piece.inj found]
    exact classified_of_triviaExtent? extent
  · cases found

theorem classified_of_mem_tail {cs : List Char} {piece : Piece}
    (h : .piece piece ∈ (lexemes true 0 cs).tail) : piece.Classified := by
  cases cs with
  | nil => cases h
  | cons c cs =>
    rw [lexemes_cons] at h
    exact classified_of_mem_lexemes h

/-- The first lexeme may also be a line that only the start of the text makes a comment. -/
theorem classified_or_of_lexemes {cs : List Char} {piece : Piece} {later : List Lexeme}
    (h : lexemes true 0 cs = .piece piece :: later) :
    piece.Classified ∨ piece.kind = .lineComment ∧ ['#', '!'] <+: piece.text.toList := by
  by_cases hash : ['#', '!'] <+: cs
  · rw [lexemes_of_triviaExtent? (triviaExtent?_of_hash hash)] at h
    cases (List.cons.inj h).1
    refine .inr ⟨rfl, ?_⟩
    obtain ⟨rest, rfl⟩ := hash
    rw [String.toList_ofList, take_runLength]
    exact List.prefix_append ['#', '!'] _
  · rw [lexemes_atStart hash] at h
    exact .inl (classified_of_mem_lexemes (by rw [h]; exact List.mem_cons_self))

/-- What is read as blank is a run of blanks, read to its end. -/
theorem eq_runLength_of_triviaExtent? {atStart : Bool} {cs : List Char} {length : Nat}
    (h : triviaExtent? atStart cs = some (.whitespace, length)) :
    (∃ c ∈ cs.head?, isSpace c) ∧ length = runLength isSpace cs := by
  cases cs with
  | nil => cases h
  | cons c cs =>
    by_cases space : isSpace c
    · rw [triviaExtent?_of_isSpace space] at h
      cases h
      exact ⟨⟨c, rfl, space⟩, rfl⟩
    have comment (chars : List Char) : TriviaKind.ofComment chars ≠ .whitespace := by
      intro blank
      have not := isComment_ofComment chars
      rw [blank] at not
      cases not
    simp only [triviaExtent?, if_neg space] at h
    split at h
    · cases h
    split at h
    · cases h
    split at h
    · exact absurd (Prod.mk.inj (Option.some.inj h)).1 (comment _)
    split at h
    · exact absurd (Prod.mk.inj (Option.some.inj h)).1 (comment _)
    split at h <;> cases h

/-- No two lexemes next to each other are blank. The induction is on the lexemes. -/
theorem not_isWhitespace_of_lexemes {atStart : Bool} {cs : List Char} {before after : Piece}
    (h : [.piece before, .piece after] <:+: lexemes atStart 0 cs) :
    ¬(before.isWhitespace ∧ after.isWhitespace) := by
  generalize equation : lexemes atStart 0 cs = found at h
  induction found generalizing atStart cs with
  | nil => simp at h
  | cons first later ih =>
    obtain here | behind := List.infix_cons_iff.mp h
    · obtain ⟨rfl, next⟩ := List.cons_prefix_cons.mp here
      obtain ⟨more, rfl⟩ := next
      obtain ⟨kind, length, blank, rfl, others⟩ := triviaExtent?_of_lexemes equation
      obtain ⟨kind', length', blank', rfl, -⟩ := triviaExtent?_of_lexemes others
      rintro ⟨first, second⟩
      obtain rfl : kind = .whitespace := by simpa [Piece.isWhitespace] using first
      obtain rfl : kind' = .whitespace := by simpa [Piece.isWhitespace] using second
      obtain ⟨-, rfl⟩ := eq_runLength_of_triviaExtent? blank
      obtain ⟨⟨c, next, space⟩, -⟩ := eq_runLength_of_triviaExtent? blank'
      have stops := List.head?_dropWhile_not isSpace cs
      rw [drop_runLength, Option.mem_def] at next
      rw [next] at stops
      simp [space] at stops
    · cases cs with
      | nil => cases equation
      | cons c cs =>
        rw [lexemes_cons] at equation
        exact ih (List.cons.inj equation).2 behind

end Lexer

namespace Token

def triviaAll (tokens : List Token) : List Piece :=
  tokens.flatMap fun token => token.leading ++ token.trailing

theorem triviaAll_eq_filterMap (tokens : List Token) :
    triviaAll tokens = (lexemesAll tokens).filterMap Lexeme.piece? := by
  have only (trivia : Trivia) : (trivia.map Lexeme.piece).filterMap Lexeme.piece? = trivia := by
    rw [List.filterMap_map]
    exact List.filterMap_some
  induction tokens with
  | nil => rfl
  | cons token rest ih =>
    rw [lexemesAll_cons, List.filterMap_append, ← ih, lexemes, List.filterMap_append, only,
      List.filterMap_cons_none rfl, only]
    rfl

def widthAll : List Token → Nat
  | [] => 0
  | token :: rest => token.width + widthAll rest

/-- Tokens in the form in which a text is read. -/
structure Attached (tokens : List Token) : Prop where
  /-- The last token, and no other one, is empty and marks the end. -/
  ends : ∃ inner leading, tokens = inner ++ [⟨.endOfFile, "", leading, []⟩] ∧
    ∀ token ∈ inner, ¬token.isEnd ∧ token.text ≠ ""
  /-- Trailing trivia stays on the line of its token. -/
  trailing : ∀ token ∈ tokens, ∀ piece ∈ token.trailing, ¬piece.isNewline
  /-- Leading trivia begins where the line of the token before it ends. -/
  leading : ∀ token ∈ tokens.tail, ∀ piece ∈ token.leading.head?, piece.isNewline
  filled : ∀ piece ∈ triviaAll tokens, piece.text ≠ ""
  /-- Blanks next to each other are one piece. -/
  joined : ∀ before after, [.piece before, .piece after] <:+: lexemesAll tokens →
    ¬(before.isWhitespace ∧ after.isWhitespace)
  /-- All comments but the very first piece have the kind that their text gives them. -/
  classified : ∀ piece ∈ (triviaAll tokens).tail, piece.Classified
  /-- So has the first piece, unless it stands at the start of the text and begins with a hash sign
  and an exclamation mark. -/
  first : ∀ piece ∈ (triviaAll tokens).head?, piece.Classified ∨
    piece ∈ (tokens.head?.bind (·.leading.head?)) ∧ piece.kind = .lineComment ∧
      ['#', '!'] <+: piece.text.toList

end Token

/-- The token at the end has no text and nothing behind it. -/
theorem Lexer.exists_attach_eq {lexemes : List Lexeme}
    (h : ∀ lexeme ∈ lexemes, lexeme.isEnd = false ∧ lexeme.text ≠ "") :
    ∃ inner leading, (attach lexemes).1 :: (attach lexemes).2 =
        inner ++ [⟨.endOfFile, "", leading, []⟩] ∧
      ∀ token ∈ inner, ¬token.isEnd ∧ token.text ≠ "" := by
  induction lexemes with
  | nil => exact ⟨[], [], rfl, nofun⟩
  | cons first rest ih =>
    obtain ⟨inner, leading, equation, others⟩ :=
      ih fun lexeme member => h lexeme (List.mem_cons_of_mem _ member)
    have relead (trivia : Trivia) : ∃ inner leading,
        { (attach rest).1 with leading := trivia } :: (attach rest).2 =
            inner ++ [⟨.endOfFile, "", leading, []⟩] ∧
          ∀ token ∈ inner, ¬token.isEnd ∧ token.text ≠ "" := by
      cases inner with
      | nil =>
        obtain ⟨last, none⟩ := List.cons.inj equation
        exact ⟨[], trivia, by rw [last, none]; rfl, nofun⟩
      | cons next inner =>
        obtain ⟨rfl, later⟩ := List.cons.inj equation
        rw [List.forall_mem_cons] at others
        exact ⟨{ (attach rest).1 with leading := trivia } :: inner, leading, by rw [later]; rfl,
          List.forall_mem_cons.mpr others⟩
    cases first with
    | piece trivia => exact relead _
    | token kind text =>
      obtain ⟨inner, leading, equation, others⟩ :=
        relead ((attach rest).1.leading.dropWhile (!·.isNewline))
      refine ⟨_ :: inner, leading, congrArg (List.cons _) equation,
        List.forall_mem_cons.mpr ⟨?_, others⟩⟩
      obtain ⟨inside, text⟩ := h _ List.mem_cons_self
      exact ⟨by simpa [attach, Token.isEnd, Lexeme.isEnd] using inside, text⟩

/-- The tokens of a text in front of its end, and the trivia at the end. -/
theorem exists_lex_eq (text : String) :
    ∃ inner leading, lex text = inner ++ [⟨.endOfFile, "", leading, []⟩] ∧
      ∀ token ∈ inner, ¬token.isEnd ∧ token.text ≠ "" :=
  Lexer.exists_attach_eq fun _ member =>
    ⟨isEnd_of_mem_lexemes member, text_ne_empty_of_mem_lexemes member⟩

theorem triviaAll_lex (text : String) :
    Token.triviaAll (lex text) = (lexemes true 0 text.toList).filterMap Lexeme.piece? := by
  rw [Token.triviaAll_eq_filterMap, lexemesAll_lex, List.filterMap_append]
  exact List.append_nil _

/-- The first lexeme, if it is trivia, begins the leading trivia of the first token. -/
theorem head?_leading_lex {text : String} {piece : Piece} {later : List Lexeme}
    (h : lexemes true 0 text.toList = .piece piece :: later) :
    (lex text).head?.bind (·.leading.head?) = some piece := by
  simp [lex, h, attach]

theorem attached_lex (text : String) : Token.Attached (lex text) where
  ends := exists_lex_eq text
  trailing token member piece inside := by simp [isNewline_of_mem_trailing member inside]
  leading token member piece first := isNewline_of_head?_leading member first
  filled piece member := by
    rw [triviaAll_lex] at member
    exact text_ne_empty_of_mem_lexemes (Lexeme.mem_of_pieces member)
  joined before after adjacent := by
    rw [lexemesAll_lex] at adjacent
    -- The token that marks the end is not one of the two.
    obtain ending | inside := List.infix_concat_iff.mp adjacent
    · have last := congrArg List.getLast? (List.suffix_iff_eq_append.mp ending)
      simp at last
    · exact not_isWhitespace_of_lexemes inside
  classified piece member := by
    rw [triviaAll_lex] at member
    exact classified_of_mem_tail (Lexeme.mem_tail_of_pieces member)
  first piece member := by
    rw [triviaAll_lex] at member
    cases found : lexemes true 0 text.toList with
    | nil =>
      rw [found] at member
      cases member
    | cons first later =>
      rw [found] at member
      cases first with
      | piece trivia =>
        obtain rfl : trivia = piece := Option.some.inj member
        exact (classified_or_of_lexemes found).imp id (And.intro (head?_leading_lex found))
      | token kind content =>
        have behind : .piece piece ∈ (lexemes true 0 text.toList).tail := by
          rw [found]
          exact Lexeme.mem_of_pieces (List.mem_of_mem_head? member)
        exact .inl (classified_of_mem_tail behind)

/-- Each token starts where the ones in front of it end. -/
theorem Lexer.getElem?_startsFrom (offset : Nat) (tokens : List Token) (i : Nat) :
    (startsFrom offset tokens)[i]? =
      tokens[i]?.map fun _ => offset + Token.widthAll (tokens.take i) := by
  induction tokens generalizing offset i with
  | nil => rfl
  | cons token rest ih =>
    cases i with
    | zero => rfl
    | succ i =>
      rw [startsFrom, List.getElem?_cons_succ, List.getElem?_cons_succ, ih, List.take_succ_cons,
        Token.widthAll, Nat.add_assoc]

/-- The tokens of a text tile it from its start to its end, and trivia is attached to them in one
way. -/
theorem lex_attached (text : String) :
    Token.renderAll (lex text) = text ∧
      (∀ i, (tokenStarts (lex text))[i]? =
        (lex text)[i]?.map fun _ => Token.widthAll ((lex text).take i)) ∧
      Token.Attached (lex text) := by
  refine ⟨renderAll_lex text, fun i => ?_, attached_lex text⟩
  rw [tokenStarts, getElem?_startsFrom]
  simp only [Nat.zero_add]

end SwiftTree
