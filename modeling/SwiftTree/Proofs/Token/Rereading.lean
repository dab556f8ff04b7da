import SwiftTree.Proofs.Token.Relexing
import SwiftTree.Proofs.Trivia.Reading

/-!
# Tokens that are written and read again

Trivia is attached to tokens in one way only: the lexemes say where each token ends, and line breaks
say where its trivia does. So if other trivia is written in front of a token and it is known how
this trivia is read, it is known which tokens are read: this token with that trivia, and all others
as they were.
-/

namespace SwiftTree

open Lexer

/-- Lists that are cut behind the first elements with a property are cut alike. -/
theorem append_inj_of_head? {α : Type} {p : α → Prop} {as bs xs ys : List α} (all : ∀ a ∈ as, p a)
    (all' : ∀ b ∈ bs, p b) (stops : ∀ x ∈ xs.head?, ¬p x) (stops' : ∀ y ∈ ys.head?, ¬p y)
    (same : as ++ xs = bs ++ ys) : as = bs ∧ xs = ys := by
  induction as generalizing bs with
  | nil =>
    cases bs with
    | nil => exact ⟨rfl, same⟩
    | cons b bs =>
      obtain rfl : xs = b :: (bs ++ ys) := same
      exact absurd (all' b List.mem_cons_self) (stops b rfl)
  | cons a as ih =>
    cases bs with
    | nil =>
      obtain rfl : a :: (as ++ xs) = ys := same
      exact absurd (all a List.mem_cons_self) (stops' a rfl)
    | cons b bs =>
      obtain ⟨rfl, others⟩ := List.cons.inj same
      obtain ⟨rfl, rest⟩ :=
        ih (List.forall_mem_cons.mp all).2 (List.forall_mem_cons.mp all').2 others
      exact ⟨rfl, rest⟩

namespace Token

/-- Trivia is attached to tokens where lines end. -/
structure Settled (tokens : List Token) : Prop where
  trailing : ∀ token ∈ tokens, ∀ piece ∈ token.trailing, piece.isNewline = false
  leading : ∀ token ∈ tokens.tail, ∀ piece ∈ token.leading.head?, piece.isNewline

theorem settled_lex (text : String) : Settled (lex text) where
  trailing _ member _ inside := isNewline_of_mem_trailing member inside
  leading _ member _ first := isNewline_of_head?_leading member first

theorem Settled.tail {token : Token} {rest : List Token} (h : Settled (token :: rest)) :
    Settled rest where
  trailing other member := h.trailing other (List.mem_cons_of_mem _ member)
  leading other member := h.leading other (List.mem_of_mem_tail member)

/-- Behind a token, the lexemes of the next one begin with a line break or with its text. -/
theorem Settled.not_inline {token : Token} {rest : List Token} (h : Settled (token :: rest)) :
    ∀ lexeme ∈ (lexemesAll rest).head?,
      ¬∃ piece : Piece, lexeme = .piece piece ∧ piece.isNewline = false := by
  rintro lexeme first ⟨piece, rfl, inner⟩
  cases rest with
  | nil => cases first
  | cons next rest =>
    rw [lexemesAll_cons, lexemes] at first
    cases leading : next.leading with
    | nil =>
      rw [leading] at first
      cases first
    | cons feed more =>
      rw [leading] at first
      cases first
      have newline := h.leading next List.mem_cons_self piece (by rw [leading]; rfl)
      rw [inner] at newline
      cases newline

/-- Tokens are known from their lexemes. The induction is on the tokens, and each time a token is
cut off, first up to its text and then up to the end of its line. -/
theorem Settled.eq_of_lexemesAll_eq {as bs : List Token} (first : Settled as) (second : Settled bs)
    (same : lexemesAll as = lexemesAll bs) : as = bs := by
  induction as generalizing bs with
  | nil =>
    cases bs with
    | nil => rfl
    | cons token bs => simp [lexemes] at same
  | cons token as ih =>
    cases bs with
    | nil => simp [lexemes] at same
    | cons other bs =>
      rw [lexemesAll_cons, lexemesAll_cons, lexemes, lexemes, List.append_assoc,
        List.append_assoc, List.cons_append, List.cons_append] at same
      have pieces (trivia : Trivia) : ∀ lexeme ∈ trivia.map Lexeme.piece,
          ∃ piece, lexeme = .piece piece := by simp +contextual
      obtain ⟨leading, behind⟩ := append_inj_of_head? (pieces token.leading) (pieces other.leading)
        (by simp) (by simp) same
      obtain ⟨text, rest⟩ := List.cons.inj behind
      obtain ⟨trailing, later⟩ := append_inj_of_head?
        (by simpa using first.trailing token List.mem_cons_self)
        (by simpa using second.trailing other List.mem_cons_self)
        first.not_inline second.not_inline rest
      have piece_inj : Function.Injective (List.map Lexeme.piece) :=
        List.map_injective_iff.mpr fun _ _ => Lexeme.piece.inj
      have equal : token = other := by
        obtain ⟨kind, content⟩ := Lexeme.token.inj text
        cases token
        cases other
        exact mk.injEq .. ▸ ⟨kind, content, piece_inj leading, piece_inj trailing⟩
      rw [equal, ih first.tail second.tail later]

/-- Other trivia in front of a token is attached like the old one if it begins with a line break, or
if no token comes before it. -/
theorem Settled.relead {before after : List Token} {token : Token} {leading : Trivia}
    (h : Settled (before ++ token :: after))
    (breaks : before ≠ [] → ∀ piece ∈ leading.head?, piece.isNewline) :
    Settled (before ++ { token with leading } :: after) where
  trailing := by
    have old := h.trailing
    rw [List.forall_mem_append, List.forall_mem_cons] at old ⊢
    exact old
  leading := by
    have old := h.leading
    cases before with
    | nil => exact old
    | cons first before =>
      rw [List.cons_append, List.tail_cons, List.forall_mem_append, List.forall_mem_cons] at old ⊢
      exact ⟨old.1, breaks (List.cons_ne_nil _ _), old.2.2⟩

section

variable {text : String} {before after : List Token} {token : Token}
  (tokens : lex text = before ++ token :: after) (inner : ¬token.isEnd)

include tokens inner

/-- What is written from a token on begins with no trivia. -/
theorem exists_lexemes_textFrom :
    ∃ later, Lexer.lexemes false 0 (token.textFrom after).toList =
      .token token.kind token.text :: later := by
  rw [textFrom, String.toList_append]
  exact readBefore_of_lex tokens inner

theorem avoids_textFrom (kind : TriviaKind) : Avoids kind (token.textFrom after).toList := by
  intro piece later found
  obtain ⟨others, here⟩ := exists_lexemes_textFrom tokens inner
  cases here.symm.trans found

/-- Trivia in front of a token that begins with a line break is read as such. -/
theorem feeds_of_readFrom {new read : Trivia} (sound : new.Sound) (feeds : new.Feeds)
    (reads : read.ReadFrom new.render.toList (token.textFrom after).toList) : read.Feeds := by
  obtain ⟨piece, more, rfl, newline⟩ := feeds
  obtain ⟨later, here⟩ := exists_lexemes_textFrom tokens inner
  rw [Trivia.ReadFrom, here] at reads
  have first := isNewline_head?_of_breaks (sound.breaks newline _) reads
  cases read with
  | nil => cases first
  | cons feed others => exact ⟨feed, others, rfl, first⟩

/-- Tokens are read again when other trivia is written in front of one of them. -/
theorem lex_relead {kept old new read : Trivia} (leading : token.leading = kept ++ old)
    (ends : ∀ last ∈ (lexemesAll before ++ kept.map Lexeme.piece).getLast?, last.isNewline = false)
    (sound : new.Sound)
    (starts : new.Feeds ∨ before = [] ∧ kept = [] ∧ (new ≠ [] ∨ token.text ≠ "#"))
    (reads : read.ReadFrom new.render.toList (token.textFrom after).toList) :
    lex (renderAll (before ++ { token with leading := kept ++ new } :: after)) =
      before ++ { token with leading := kept ++ read } :: after := by
  have settled : Settled (before ++ token :: after) := tokens ▸ settled_lex text
  have breaks (later : before ≠ []) : ∀ piece ∈ (kept ++ read).head?, piece.isNewline := by
    cases kept with
    | cons feed kept =>
      have member : token ∈ (before ++ token :: after).tail := by
        obtain ⟨first, others, rfl⟩ := List.exists_cons_of_ne_nil later
        simp
      rintro _ ⟨⟩
      exact settled.leading token member feed (by rw [leading]; rfl)
    | nil =>
      obtain feeds | ⟨none, -⟩ := starts
      · obtain ⟨feed, others, rfl, newline⟩ := feeds_of_readFrom tokens inner sound feeds reads
        rintro _ ⟨⟩
        exact newline
      · exact absurd none later
  obtain ⟨later, again, here, others⟩ := lexemes_relead tokens inner leading ends sound starts
  refine (settled_lex _).eq_of_lexemesAll_eq (settled.relead breaks) ?_
  rw [lexemesAll_lex, again, reads, here, lexemesAll_append, lexemesAll_cons, lexemes]
  simp only [List.map_append, List.append_assoc, List.cons_append, others]

end

end Token

end SwiftTree
