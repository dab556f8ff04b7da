import SwiftTree.Proofs.Trivia.Sound

/-!
# Exchanging the trivia in front of a token

If the trivia in front of a token of a text is exchanged for sound trivia that begins with a line
break, reading the new text gives the same tokens, with the new trivia seen as its pieces say. What
stands in front is settled by the line break, the new trivia is skipped, and what follows is read as
before. In front of the first token there is nothing to settle; there the new text must not begin
like a comment that only the start of a text makes one.
-/

namespace SwiftTree

namespace Lexer

theorem textAll_append (as bs : List Lexeme) :
    Lexeme.textAll (as ++ bs) = Lexeme.textAll as ++ Lexeme.textAll bs := by
  induction as with
  | nil => simp [Lexeme.textAll]
  | cons first as ih =>
    rw [List.cons_append, Lexeme.textAll, Lexeme.textAll, ih, String.append_assoc]

theorem textAll_pieces (trivia : Trivia) : Lexeme.textAll (trivia.map .piece) = trivia.render := by
  induction trivia with
  | nil => rfl
  | cons piece rest ih => rw [List.map_cons, Lexeme.textAll, ih, Lexeme.text, Trivia.render]

/-- What is read behind a first part of a text that consists of whole lexemes. -/
theorem lexemes_rest {rest : List Char} {read later : List Lexeme}
    {atStart : Bool} {part : List Char} (found : lexemes atStart 0 (part ++ rest) = read ++ later)
    (covers : Lexeme.textAll read = String.ofList part) :
    lexemes (atStart && read.isEmpty) 0 rest = later := by
  induction read generalizing atStart part with
  | nil =>
    obtain rfl : part = [] := String.ofList_eq_empty_iff.mp covers.symm
    simpa using found
  | cons first read ih =>
    obtain ⟨c, tail, rfl, rfl, fits, others, left⟩ := exists_of_lexemes_eq_cons found covers
    simpa using ih others left

/-- A token is read at the start of a text only if it is read everywhere. -/
theorem lexemes_eq_token_cons {atStart : Bool} {cs : List Char} {kind : TokenKind} {text : String}
    {later : List Lexeme} (h : lexemes atStart 0 cs = .token kind text :: later) :
    lexemes false 0 cs = .token kind text :: later := by
  cases atStart with
  | false => exact h
  | true =>
    rw [← lexemes_atStart, h]
    intro hash
    rw [lexemes_of_triviaExtent? (triviaExtent?_of_hash hash)] at h
    cases h

/-- Only a hash sign by itself can be followed by an exclamation mark. -/
theorem text_eq_of_hash {cs : List Char} {kind : TokenKind} {text : String} {later : List Lexeme}
    (h : lexemes false 0 cs = .token kind text :: later) (hash : ['#', '!'] <+: cs) :
    text = "#" := by
  obtain ⟨more, rfl⟩ := hash
  have start : isIdentifierStart '#' = false := by decide +kernel
  have first : lexeme false ('#' :: '!' :: more) = (.token .pound "#", 1) := by
    simp [lexeme, triviaExtent?, isSpace, Text.isLineBreak, tokenExtent, start, punctuationExtent]
  rw [List.cons_append, lexemes_cons] at h
  have same := (List.cons.inj h).1
  rw [List.cons_append, List.nil_append, first] at same
  exact (Lexeme.token.inj same).2.symm

/-- The trivia in front of a token is exchanged: what stands in front of the trivia is read as
before, and so is what follows it. -/
theorem lexemes_exchange {before later : List Lexeme} {part rest : List Char} {old new : Trivia}
    {kind : TokenKind} {text : String} (filled : rest ≠ [])
    (found : lexemes true 0 (part ++ (old.render.toList ++ rest)) =
      before ++ (old.map .piece ++ .token kind text :: later))
    (covers : Lexeme.textAll before = String.ofList part)
    (ends : ∀ last ∈ before.getLast?, last.isNewline = false) (sound : new.Sound)
    (starts : Text.Breaks (new.render.toList ++ rest) ∨
      before = [] ∧ (new ≠ [] ∨ text ≠ "#")) :
    lexemes true 0 (part ++ (new.render.toList ++ rest)) =
        before ++ lexemes false 0 (new.render.toList ++ rest) ∧
      lexemes false 0 rest = .token kind text :: later := by
  have here : lexemes false 0 rest = .token kind text :: later := by
    apply lexemes_eq_token_cons
    rw [← List.append_assoc, ← List.append_assoc] at found
    refine lexemes_rest found ?_
    rw [textAll_append, textAll_pieces, covers, String.ofList_append, String.ofList_toList]
  refine ⟨?_, here⟩
  obtain breaking | ⟨rfl, other⟩ := starts
  · have old : old.render.toList ++ rest ≠ [] := by simp [filled]
    rw [lexemes_halted old breaking.halts found covers ends]
    cases before with
    | cons first before => rfl
    | nil =>
      rw [List.isEmpty_nil, Bool.and_true, lexemes_atStart]
      obtain ⟨c, more, equation, breaks⟩ := breaking
      rw [equation]
      rintro ⟨tail, hash⟩
      cases hash
      cases breaks
  · obtain rfl : part = [] := String.ofList_eq_empty_iff.mp covers.symm
    apply lexemes_atStart
    cases new with
    | cons piece new => exact sound.not_hash rest
    | nil =>
      have plain : text ≠ "#" := other.resolve_left fun some => some rfl
      exact fun hash => plain (text_eq_of_hash here hash)

end Lexer

/-- The trivia begins with a line break. -/
def Trivia.Feeds (trivia : Trivia) : Prop :=
  ∃ feed more, trivia = feed :: more ∧ feed.isNewline

namespace Token

open Lexer

theorem textAll_lexemesAll (tokens : List Token) :
    Lexeme.textAll (lexemesAll tokens) = renderAll tokens := by
  induction tokens with
  | nil => rfl
  | cons token rest ih =>
    rw [lexemesAll_cons, textAll_append, ih, renderAll_cons, lexemes, textAll_append,
      Lexeme.textAll, textAll_pieces, textAll_pieces, render, Lexeme.text]

/-- The lexemes of a text around the trivia in front of one of its tokens. -/
theorem exists_lexemes_eq {text : String} {before after : List Token} {token : Token}
    (tokens : lex text = before ++ token :: after) (inner : ¬token.isEnd) :
    ∃ later, Lexer.lexemes true 0 text.toList =
        lexemesAll before ++ (token.leading.map .piece ++ .token token.kind token.text :: later) ∧
      later ++ [.token .endOfFile ""] = token.trailing.map .piece ++ lexemesAll after := by
  have all := lexemesAll_lex text
  rw [tokens, lexemesAll_append, lexemesAll_cons, lexemes] at all
  obtain none | ⟨later, last, rest⟩ :=
    List.eq_nil_or_concat (token.trailing.map Lexeme.piece ++ lexemesAll after)
  · -- the last of the lexemes would be this token, but it marks the end
    have final := congrArg List.getLast? all
    rw [List.append_assoc, List.cons_append, none, List.getLast?_concat, ← List.append_assoc,
      List.getLast?_concat] at final
    have marks : token.kind = .endOfFile := (Lexeme.token.inj (Option.some.inj final)).1
    exact absurd (by simp [isEnd, marks]) inner
  · rw [List.concat_eq_append] at rest
    have parts : (lexemesAll before ++ (token.leading.map .piece ++
        .token token.kind token.text :: later)) ++ [last] =
          Lexer.lexemes true 0 text.toList ++ [.token .endOfFile ""] := by
      rw [← all]
      simp only [List.append_assoc, List.cons_append, rest]
    obtain ⟨whole, end'⟩ := List.append_inj' parts rfl
    exact ⟨later, whole.symm, by rw [rest, end']⟩

/-- Behind another token, the trivia in front of a token is read as in the middle of a text. -/
theorem exists_lexemes_leading {text : String} {before after : List Token} {token : Token}
    (tokens : lex text = before ++ token :: after) (inner : ¬token.isEnd) (later : before ≠ []) :
    ∃ cs others, Lexer.lexemes false 0 cs =
      token.leading.map .piece ++ .token token.kind token.text :: others := by
  obtain ⟨others, found, -⟩ := exists_lexemes_eq tokens inner
  let rest := (renderAll (token :: after)).toList
  have parts : text.toList = (renderAll before).toList ++ rest := by
    rw [← String.toList_append, ← renderAll_append, ← tokens, renderAll_lex]
  have covers : Lexeme.textAll (lexemesAll before) = String.ofList (renderAll before).toList := by
    rw [textAll_lexemesAll, String.ofList_toList]
  rw [parts] at found
  have here := lexemes_rest found covers
  have some : (lexemesAll before).isEmpty = false := by
    obtain ⟨first, before, rfl⟩ := List.exists_cons_of_ne_nil later
    simp [lexemes]
  rw [some, Bool.and_false] at here
  exact ⟨rest, others, here⟩

theorem sound_leading {text : String} {before after : List Token} {token : Token}
    (tokens : lex text = before ++ token :: after) (inner : ¬token.isEnd) (later : before ≠ []) :
    token.leading.Sound := by
  obtain ⟨cs, others, found⟩ := exists_lexemes_leading tokens inner later
  exact sound_of_lexemes found

/-- No line break stands at the end of tokens: it belongs to the token after them. -/
theorem isNewline_of_getLast?_lexemesAll {tokens : List Token}
    (h : ∀ token ∈ tokens, ∀ piece ∈ token.trailing, piece.isNewline = false) :
    ∀ last ∈ (lexemesAll tokens).getLast?, last.isNewline = false := by
  intro last ends
  obtain rfl | ⟨before, token, rfl⟩ := List.eq_nil_or_concat tokens
  · cases ends
  rw [List.concat_eq_append, lexemesAll_append, lexemesAll_cons, lexemesAll_nil, List.append_nil,
    lexemes, ← List.append_assoc, List.getLast?_append_of_ne_nil _ (List.cons_ne_nil _ _)] at ends
  obtain rfl | member := List.mem_cons.mp (List.mem_of_getLast? ends)
  · rfl
  · obtain ⟨piece, inside, rfl⟩ := List.mem_map.mp member
    exact h token (by simp) piece inside

/-- So it is in front of a token of a text, and behind a comment in front of its first token. -/
theorem isNewline_of_getLast?_before {text : String} {before after : List Token} {token : Token}
    (tokens : lex text = before ++ token :: after) :
    ∀ last ∈ (lexemesAll before ++ ([] : Trivia).map Lexeme.piece).getLast?,
      last.isNewline = false := by
  rw [List.map_nil, List.append_nil]
  refine isNewline_of_getLast?_lexemesAll fun other inside piece member => ?_
  have among : other ∈ lex text := by simp [tokens, inside]
  exact isNewline_of_mem_trailing among member

theorem isNewline_of_getLast?_comment {comment : Piece} (plain : comment.kind = .lineComment) :
    ∀ last ∈ (lexemesAll [] ++ [comment].map Lexeme.piece).getLast?, last.isNewline = false := by
  intro last final
  obtain rfl : Lexeme.piece comment = last := by simpa using final
  rw [Lexeme.isNewline, Piece.isNewline, plain]
  rfl

/-- The gaps around a token are seen as before if its trivia is, or if no token comes before it. -/
theorem gaps_relead {before after : List Token} {token : Token} {leading : Trivia}
    (seen : before = [] ∨ leading.breaksLine = token.leading.breaksLine ∧
      leading.isEmpty = token.leading.isEmpty) :
    gaps (before ++ { token with leading } :: after) = gaps (before ++ token :: after) := by
  have behind : gaps ({ token with leading } :: after) = gaps (token :: after) := by
    cases after <;> rfl
  cases before with
  | nil => exact behind
  | cons first before =>
    obtain ⟨breaks, filled⟩ := seen.resolve_left (List.cons_ne_nil _ _)
    clear seen
    induction before generalizing first with
    | nil => simp [gaps, breaksBetween, touches, breaks, filled, behind]
    | cons second before ih =>
      have later := ih second
      simp only [List.cons_append] at later ⊢
      simp only [gaps, later]

/-- What is written from a token on, without the trivia in front of it. -/
def textFrom (token : Token) (after : List Token) : String :=
  token.text ++ (token.trailing.render ++ renderAll after)

section

variable {text : String} {before after : List Token} {token : Token} {kept old new : Trivia}
  (tokens : lex text = before ++ token :: after) (inner : ¬token.isEnd)
  (leading : token.leading = kept ++ old)
  (ends : ∀ last ∈ (lexemesAll before ++ kept.map Lexeme.piece).getLast?, last.isNewline = false)
  (sound : new.Sound)
  (starts : new.Feeds ∨ before = [] ∧ kept = [] ∧ (new ≠ [] ∨ token.text ≠ "#"))

include tokens inner leading ends sound starts

/-- The lexemes when the first part of the trivia in front of a token is kept and the rest is
exchanged for sound trivia that begins with a line break. -/
theorem lexemes_relead :
    ∃ later, Lexer.lexemes true 0
        (renderAll (before ++ { token with leading := kept ++ new } :: after)).toList =
          (lexemesAll before ++ kept.map .piece) ++
            Lexer.lexemes false 0 (new.render.toList ++ (token.textFrom after).toList) ∧
      Lexer.lexemes false 0 (token.textFrom after).toList =
        .token token.kind token.text :: later ∧
      later ++ [.token .endOfFile ""] = token.trailing.map .piece ++ lexemesAll after := by
  obtain ⟨later, found, others⟩ := exists_lexemes_eq tokens inner
  let part := (renderAll before ++ kept.render).toList
  let rest := (token.textFrom after).toList
  have written (trivia : Trivia) :
      (renderAll (before ++ { token with leading := kept ++ trivia } :: after)).toList =
        part ++ (trivia.render.toList ++ rest) := by
    simp only [part, rest, textFrom, renderAll_append, renderAll_cons, render,
      Trivia.render_append, String.toList_append, List.append_assoc]
  have unchanged : text.toList = part ++ (old.render.toList ++ rest) := by
    rw [← written, ← leading, ← tokens, renderAll_lex]
  have filled : rest ≠ [] := by
    have member : token ∈ lex text := by simp [tokens]
    simp [rest, textFrom, text_ne_empty_of_mem_lex member inner]
  have covers :
      Lexeme.textAll (lexemesAll before ++ kept.map Lexeme.piece) = String.ofList part := by
    rw [textAll_append, textAll_lexemesAll, textAll_pieces, String.ofList_toList]
  rw [unchanged, leading, List.map_append, List.append_assoc (kept.map _),
    ← List.append_assoc (lexemesAll before)] at found
  have starts' : Text.Breaks (new.render.toList ++ rest) ∨
      lexemesAll before ++ kept.map Lexeme.piece = [] ∧ (new ≠ [] ∨ token.text ≠ "#") := by
    obtain ⟨piece, more, rfl, newline⟩ | ⟨rfl, rfl, other⟩ := starts
    · exact .inl (sound.breaks newline rest)
    · exact .inr ⟨rfl, other⟩
  obtain ⟨again, here⟩ := lexemes_exchange filled found covers ends sound starts'
  exact ⟨later, by rw [written, again], here, others⟩

/-- A token with other trivia in front of it is read again, together with all other tokens. -/
theorem sameLayout_relead :
    SameLayout (lex (renderAll (before ++ { token with leading := kept ++ new } :: after)))
      (before ++ { token with leading := kept ++ new } :: after) := by
  obtain ⟨later, again, here, others⟩ :=
    lexemes_relead tokens inner leading ends sound starts
  apply SameLayout.of_outline
  have skipped := sound.outline_render [.token .endOfFile ""] (token.textFrom after).toList
  rw [here, List.cons_append, others] at skipped
  rw [lexemesAll_lex, again, List.append_assoc, outline_append_congr _ skipped,
    lexemesAll_append, lexemesAll_cons, lexemes]
  simp only [List.map_append, List.append_assoc, List.cons_append]

end

end Token

end SwiftTree
