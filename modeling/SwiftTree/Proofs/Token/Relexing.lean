import SwiftTree.Proofs.Token.Attachment
import SwiftTree.Proofs.Token.Relead

/-!
# Tokens survive being read again

The end of a text and a line break settle a token. So the text of a token, on its own, is read as
that token, and the texts of all tokens, on a line each, are read as all of them. Where tokens end
depends on what follows in many ways; none of them is left once a token stands alone.
-/

namespace SwiftTree

namespace Lexer

/-- The token of a lexeme, without trivia. -/
def Lexeme.word? : Lexeme → Option Token
  | .piece _ => none
  | .token kind text => some ⟨kind, text, [], []⟩

def words (found : List Lexeme) : List Token :=
  found.filterMap Lexeme.word?

@[simp] theorem words_token (kind : TokenKind) (text : String) (rest : List Lexeme) :
    words (.token kind text :: rest) = ⟨kind, text, [], []⟩ :: words rest := rfl

@[simp] theorem words_piece (trivia : Piece) (rest : List Lexeme) :
    words (.piece trivia :: rest) = words rest := rfl

@[simp] theorem words_append (as bs : List Lexeme) : words (as ++ bs) = words as ++ words bs :=
  List.filterMap_append

@[simp] theorem words_pieces (trivia : Trivia) : words (trivia.map .piece) = [] := by
  induction trivia with
  | nil => rfl
  | cons piece rest ih => rw [List.map_cons, words_piece, ih]

/-- A line break is not a word. -/
theorem words_newline (cs : List Char) :
    words (lexemes false 0 ('\n' :: cs)) = words (lexemes false 0 cs) := by
  have newline : triviaExtent? false ('\n' :: cs) = some (.newline, 1) := rfl
  rw [lexemes_of_triviaExtent? newline, words_piece]
  rfl

end Lexer

open Lexer

theorem Token.map_bare_eq_words (tokens : List Token) :
    tokens.map bare = words (lexemesAll tokens) := by
  induction tokens with
  | nil => rfl
  | cons token rest ih =>
    rw [List.map_cons, ih, lexemesAll_cons, words_append, lexemes, words_append, words_pieces,
      words_token, words_pieces]
    rfl

/-- The tokens of a text are the words of its lexemes, and the one that marks the end. -/
theorem map_bare_lex (text : String) :
    (lex text).map Token.bare =
      words (Lexer.lexemes true 0 text.toList) ++ [⟨.endOfFile, "", [], []⟩] := by
  rw [Token.map_bare_eq_words, lexemesAll_lex, words_append]
  rfl

/-- A token is read at the start of its text with something behind it. -/
def Token.ReadBefore (token : Token) (rest : List Char) : Prop :=
  ∃ later, Lexer.lexemes false 0 (token.text.toList ++ rest) =
    .token token.kind token.text :: later

namespace Token.ReadBefore

variable {token : Token} {rest : List Char}

/-- A line break or the end of the text may follow instead. -/
theorem halted (h : token.ReadBefore rest) {new : List Char}
    (filled : rest ≠ [] ∨ new = []) (halts : Text.Halts new) :
    Lexer.lexemes false 0 (token.text.toList ++ new) =
      .token token.kind token.text :: Lexer.lexemes false 0 new := by
  obtain ⟨later, found⟩ := h
  have covers : Lexeme.textAll [.token token.kind token.text] =
      String.ofList token.text.toList := by
    rw [Lexeme.textAll, Lexeme.textAll, String.append_empty, String.ofList_toList]
    rfl
  have single : Lexer.lexemes false 0 (token.text.toList ++ rest) =
      [.token token.kind token.text] ++ later := found
  by_cases some : rest = []
  · subst some
    obtain rfl := filled.resolve_left fun some => some rfl
    rw [found, ← lexemes_rest single covers]
    rfl
  · exact lexemes_halted some halts single covers (by simp [Lexeme.isNewline])

/-- A token in front of trivia does not make the first line a comment. -/
theorem not_hash (h : token.ReadBefore rest) {new : List Char} (separates : Separates new) :
    ¬['#', '!'] <+: token.text.toList ++ new := by
  have settled := @prefix_settled ['#', '!'] token.text.toList [] new
    (@Cut.not_prefix [] _ _ _ (.inl separates) (by simp [separators])
      (by simp [joins, isOperatorChar])) fun inside => by simpa using inside.length_le
  rw [settled, List.append_nil]
  intro hash
  obtain ⟨later, found⟩ := h
  have text := text_eq_of_hash found (hash.trans (List.prefix_append _ _))
  rw [text] at hash
  exact absurd hash (by simp)

/-- On its own, the text of a token is that token. -/
theorem lex_text (h : token.ReadBefore rest) :
    lex token.text = [token.bare, ⟨.endOfFile, "", [], []⟩] := by
  have alone := h.halted (.inr rfl) Text.halts_nil
  rw [← lexemes_atStart (h.not_hash separates_nil), List.append_nil] at alone
  simp [lex, alone, Lexer.lexemes, attach, bare]

end Token.ReadBefore

/-- Every token of a text is read in front of what follows it there. -/
theorem Token.readBefore_of_lex {text : String} {before after : List Token} {token : Token}
    (tokens : lex text = before ++ token :: after) (inner : ¬token.isEnd) :
    token.ReadBefore (token.trailing.render ++ renderAll after).toList := by
  obtain ⟨later, found, -⟩ := exists_lexemes_eq tokens inner
  have parts : text.toList = (renderAll before ++ token.leading.render).toList ++
      (token.text.toList ++ (token.trailing.render ++ renderAll after).toList) := by
    rw [← renderAll_lex text, tokens, renderAll_append, renderAll_cons, render]
    simp only [String.toList_append, List.append_assoc]
  have covers : Lexeme.textAll (lexemesAll before ++ token.leading.map Lexeme.piece) =
      String.ofList (renderAll before ++ token.leading.render).toList := by
    rw [textAll_append, textAll_lexemesAll, textAll_pieces, String.ofList_toList]
  rw [parts, ← List.append_assoc (lexemesAll before)] at found
  exact ⟨later, lexemes_eq_token_cons (lexemes_rest found covers)⟩

theorem toList_intercalate_cons (token next : Token) (tokens : List Token) :
    ("\n".intercalate ((token :: next :: tokens).map Token.text)).toList =
      token.text.toList ++ '\n' :: ("\n".intercalate ((next :: tokens).map Token.text)).toList := by
  rw [List.map_cons, List.map_cons, String.intercalate_cons_cons, ← List.map_cons,
    String.toList_append, String.toList_append, List.append_assoc]
  rfl

/-- Tokens in front of the end of a text, on a line each, are read as these tokens. The induction is
on the tokens; a line break settles each of them but the last, which the end settles. -/
theorem words_intercalate {text : String} {before tokens : List Token} {last : Token}
    (split : lex text = before ++ (tokens ++ [last])) (inner : ∀ token ∈ tokens, ¬token.isEnd) :
    words (Lexer.lexemes false 0 ("\n".intercalate (tokens.map Token.text)).toList) =
      tokens.map Token.bare := by
  induction tokens generalizing before with
  | nil => rfl
  | cons token tokens ih =>
    rw [List.forall_mem_cons] at inner
    have read := Token.readBefore_of_lex split inner.1
    cases tokens with
    | nil =>
      have alone := read.halted (.inr rfl) Text.halts_nil
      rw [List.append_nil] at alone
      rw [List.map_cons, List.map_nil, String.intercalate_singleton, alone]
      rfl
    | cons next tokens =>
      have later := @ih (before ++ [token]) (by simp [split]) inner.2
      have filled : (token.trailing.render ++
          Token.renderAll (next :: tokens ++ [last])).toList ≠ [] := by
        have member : next ∈ lex text := by simp [split]
        have some := text_ne_empty_of_mem_lex member (inner.2 next List.mem_cons_self)
        simp [Token.render, some]
      have line := read.halted (.inl filled)
        (Text.halts_newline ("\n".intercalate ((next :: tokens).map Token.text)).toList)
      rw [toList_intercalate_cons, line, words_token, words_newline, later]
      rfl

/-- Tokens survive being read again. The text of each token of a text is read as that token alone,
and the texts of all of them, on a line each, are read as the same tokens. -/
theorem lex_relexes (text : String) :
    (∀ token ∈ lex text, ¬token.isEnd →
      lex token.text = [⟨token.kind, token.text, [], []⟩, ⟨.endOfFile, "", [], []⟩]) ∧
    (lex ("\n".intercalate ((lex text).dropLast.map Token.text))).map Token.bare =
      (lex text).map Token.bare := by
  constructor
  · intro token member inner
    obtain ⟨before, after, tokens⟩ := List.append_of_mem member
    exact (Token.readBefore_of_lex tokens inner).lex_text
  · obtain ⟨inner, leading, tokens, others⟩ := exists_lex_eq text
    have split : lex text = [] ++ (inner ++ [⟨.endOfFile, "", leading, []⟩]) := tokens
    have again := words_intercalate split fun token member => (others token member).1
    have plain : ¬['#', '!'] <+: ("\n".intercalate (inner.map Token.text)).toList := by
      obtain _ | ⟨token, _ | ⟨next, inner⟩⟩ := inner
      · simp
      · have read := Token.readBefore_of_lex split (others token List.mem_cons_self).1
        simpa using read.not_hash separates_nil
      · have read := Token.readBefore_of_lex split (others token List.mem_cons_self).1
        rw [toList_intercalate_cons]
        exact read.not_hash (separates_of_halts (Text.halts_newline _))
    rw [map_bare_lex, tokens, List.dropLast_concat, lexemes_atStart plain, again, List.map_append]
    rfl

end SwiftTree
