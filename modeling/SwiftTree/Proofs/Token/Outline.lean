import SwiftTree.Proofs.Parse.Layout

/-!
# The outline of lexemes

The outline of lexemes is what the grammar sees of them: the tokens in order, and of the trivia
between two tokens whether there is any and whether a line ends in it. Attaching trivia to tokens
does not change it, so texts with the same outline have the same layout.
-/

namespace SwiftTree

namespace Lexer

/-- What is seen of the trivia between two tokens. -/
structure Gap where
  breaks : Bool
  filled : Bool
  deriving DecidableEq, Repr

/-- The outline of lexemes: the gap in front of the first token, and each token with the gap behind
it. -/
abbrev Outline := Gap × List (TokenKind × String × Gap)

namespace Outline

/-- The outline with more trivia in front, in which a line ends or not. -/
def fill (breaks : Bool) (outline : Outline) : Outline :=
  (⟨breaks || outline.1.breaks, true⟩, outline.2)

@[simp] theorem fill_fill (first second : Bool) (outline : Outline) :
    (outline.fill second).fill first = outline.fill (first || second) := by
  simp [fill, Bool.or_assoc]

end Outline

def outline : List Lexeme → Outline
  | [] => (⟨false, false⟩, [])
  | .piece trivia :: rest => (outline rest).fill trivia.breaksLine
  | .token kind text :: rest => (⟨false, false⟩, (kind, text, (outline rest).1) :: (outline rest).2)

@[simp] theorem outline_piece (trivia : Piece) (rest : List Lexeme) :
    outline (.piece trivia :: rest) = (outline rest).fill trivia.breaksLine := rfl

/-- What stands in front of lexemes sees only their outline. -/
theorem outline_append_congr (before : List Lexeme) {as bs : List Lexeme}
    (h : outline as = outline bs) : outline (before ++ as) = outline (before ++ bs) := by
  induction before with
  | nil => exact h
  | cons first before ih =>
    cases first with
    | piece trivia => rw [List.cons_append, List.cons_append, outline, outline, ih]
    | token kind text => rw [List.cons_append, List.cons_append, outline, outline, ih]

theorem outline_pieces (trivia : Trivia) (rest : List Lexeme) :
    outline (trivia.map .piece ++ rest) =
      (⟨trivia.breaksLine || (outline rest).1.breaks, !trivia.isEmpty || (outline rest).1.filled⟩,
        (outline rest).2) := by
  induction trivia with
  | nil => rfl
  | cons first trivia ih =>
    rw [List.map_cons, List.cons_append, outline_piece, ih]
    simp [Outline.fill, Trivia.breaksLine, Bool.or_assoc]

end Lexer

namespace Token

open Lexer (Lexeme attach outline outline_pieces)

/-- A token and the trivia attached to it as lexemes. -/
def lexemes (token : Token) : List Lexeme :=
  token.leading.map .piece ++ .token token.kind token.text :: token.trailing.map .piece

/-- Tokens and the trivia attached to them as lexemes. -/
def lexemesAll (tokens : List Token) : List Lexeme :=
  tokens.flatMap lexemes

@[simp] theorem lexemesAll_nil : lexemesAll [] = [] := rfl

@[simp] theorem lexemesAll_cons (token : Token) (rest : List Token) :
    lexemesAll (token :: rest) = token.lexemes ++ lexemesAll rest := rfl

@[simp] theorem lexemesAll_append (as bs : List Token) :
    lexemesAll (as ++ bs) = lexemesAll as ++ lexemesAll bs := List.flatMap_append

def gapBefore (tokens : List Token) : Lexer.Gap :=
  match tokens with
  | [] => ⟨false, false⟩
  | token :: _ => ⟨token.leading.breaksLine, !token.leading.isEmpty⟩

theorem outline_lexemesAll_fst (tokens : List Token) :
    (outline (lexemesAll tokens)).1 = gapBefore tokens := by
  cases tokens with
  | nil => rfl
  | cons token rest =>
    rw [lexemesAll_cons, lexemes, List.append_assoc, outline_pieces]
    simp [outline, gapBefore]

theorem outline_lexemesAll_cons (token : Token) (rest : List Token) :
    (outline (lexemesAll (token :: rest))).2 =
      (token.kind, token.text, ⟨token.trailing.breaksLine || (gapBefore rest).breaks,
        !token.trailing.isEmpty || (gapBefore rest).filled⟩) :: (outline (lexemesAll rest)).2 := by
  rw [lexemesAll_cons, lexemes, List.append_assoc, outline_pieces, List.cons_append, outline,
    outline_pieces, outline_lexemesAll_fst]

theorem map_bare_eq_outline (tokens : List Token) :
    tokens.map bare =
      (outline (lexemesAll tokens)).2.map fun seen => ⟨seen.1, seen.2.1, [], []⟩ := by
  induction tokens with
  | nil => rfl
  | cons token rest ih =>
    rw [outline_lexemesAll_cons, List.map_cons, List.map_cons, ih]
    rfl

theorem gaps_eq_outline (tokens : List Token) :
    gaps tokens = ((outline (lexemesAll tokens)).2.map
      fun seen => (seen.2.2.breaks, !seen.2.2.filled)).dropLast := by
  match tokens with
  | [] => rfl
  | [token] => rw [outline_lexemesAll_cons]; rfl
  | before :: after :: rest =>
    have later := gaps_eq_outline (after :: rest)
    rw [outline_lexemesAll_cons, List.map_cons] at later ⊢
    rw [gaps, later, outline_lexemesAll_cons, List.map_cons, List.dropLast_cons_cons]
    simp [breaksBetween, touches, gapBefore, Bool.or_comm]

end Token

/-- Tokens with the same outline have the same layout. -/
theorem SameLayout.of_outline {as bs : List Token}
    (h : (Lexer.outline (Token.lexemesAll as)).2 = (Lexer.outline (Token.lexemesAll bs)).2) :
    SameLayout as bs :=
  ⟨by rw [Token.map_bare_eq_outline, h, ← Token.map_bare_eq_outline],
    by rw [Token.gaps_eq_outline, h, ← Token.gaps_eq_outline]⟩

/-- Attaching trivia only groups the lexemes. -/
theorem Lexer.lexemesAll_attach (lexemes : List Lexeme) :
    Token.lexemesAll ((attach lexemes).1 :: (attach lexemes).2) =
      lexemes ++ [.token .endOfFile ""] := by
  induction lexemes with
  | nil => rfl
  | cons first rest ih =>
    rw [Token.lexemesAll_cons, Token.lexemes] at ih
    cases first with
    | piece trivia =>
      rw [List.cons_append, ← ih]
      simp [attach, Token.lexemes]
    | token kind text =>
      have split : ((attach rest).1.leading.takeWhile (!·.isNewline)).map Lexeme.piece ++
          ((attach rest).1.leading.dropWhile (!·.isNewline)).map Lexeme.piece =
            (attach rest).1.leading.map .piece := by
        rw [← List.map_append, List.takeWhile_append_dropWhile]
      rw [List.cons_append, ← ih, ← split]
      simp [attach, Token.lexemes]

theorem lexemesAll_lex (text : String) :
    Token.lexemesAll (lex text) = Lexer.lexemes true 0 text.toList ++ [.token .endOfFile ""] :=
  Lexer.lexemesAll_attach _

/-- Trailing trivia ends in front of a line break, so leading trivia begins with one, but for that
of the first token. -/
theorem Lexer.isNewline_of_mem_attach (lexemes : List Lexeme) :
    (∀ token ∈ (attach lexemes).1 :: (attach lexemes).2, ∀ piece ∈ token.trailing,
        piece.isNewline = false) ∧
      ∀ token ∈ (attach lexemes).2, ∀ piece ∈ token.leading.head?, piece.isNewline := by
  induction lexemes with
  | nil => exact ⟨by simp [attach], nofun⟩
  | cons first rest ih =>
    obtain ⟨trailing, leading⟩ := ih
    rw [List.forall_mem_cons] at trailing
    cases first with
    | piece trivia => exact ⟨List.forall_mem_cons.mpr trailing, leading⟩
    | token kind text =>
      refine ⟨List.forall_mem_cons.mpr ⟨fun piece member => ?_, List.forall_mem_cons.mpr trailing⟩,
        List.forall_mem_cons.mpr ⟨fun piece member => ?_, leading⟩⟩
      · simpa using List.all_eq_true.mp List.all_takeWhile piece member
      · have stops := List.head?_dropWhile_not (!·.isNewline) (attach rest).1.leading
        rw [Option.mem_def.mp member] at stops
        simpa using stops

theorem isNewline_of_mem_trailing {text : String} {token : Token} (h : token ∈ lex text)
    {piece : Piece} (member : piece ∈ token.trailing) : piece.isNewline = false :=
  (Lexer.isNewline_of_mem_attach _).1 token h piece member

theorem isNewline_of_head?_leading {text : String} {token : Token} (h : token ∈ (lex text).tail)
    {piece : Piece} (first : piece ∈ token.leading.head?) : piece.isNewline :=
  (Lexer.isNewline_of_mem_attach _).2 token h piece first

end SwiftTree
