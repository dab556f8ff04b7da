import SwiftTree.Proofs.Node.Leaves
import SwiftTree.Token.Lexer

/-!
# Tokens tile the text

Every lexeme takes at least one character, so cutting a text into lexemes passes over all of it and
loses nothing. Attaching trivia to tokens only moves pieces between neighbours. Hence the tokens of
a text, written one after the other, give the text back, and the token that marks the end comes once
and last.
-/

namespace SwiftTree

namespace Lexer

theorem runLength_pos {p : Char → Bool} {c : Char} (cs : List Char) (h : p c) :
    0 < runLength p (c :: cs) := by
  simp [runLength, h]

theorem length_comment_pos (cs : List Char) : 0 < Comment.length ('/' :: '*' :: cs) := by
  have opening : Comment.extent ('/' :: '*' :: cs) = (Comment.bodyExtent 0 cs).add 2 := rfl
  unfold Comment.length
  rw [opening]
  cases Comment.bodyExtent 0 cs <;> simp [Comment.Extent.add]

theorem triviaExtent?_pos {atStart : Bool} {cs : List Char} {kind : TriviaKind} {length : Nat}
    (h : triviaExtent? atStart cs = some (kind, length)) : 0 < length := by
  cases cs with
  | nil => simp [triviaExtent?] at h
  | cons c cs =>
    have ordinary : ∀ {d : Char}, d = '/' ∨ d = '#' → c = d →
        0 < runLength (!Text.isLineBreak ·) (c :: cs) := by
      rintro d (rfl | rfl) rfl
      · exact runLength_pos cs rfl
      · exact runLength_pos cs rfl
    simp only [triviaExtent?, Bool.and_eq_true, beq_iff_eq] at h
    split at h
    · rename_i space
      cases h
      exact runLength_pos cs space
    split at h
    · cases h
      decide
    split at h
    · cases h
      decide
    split at h
    · rename_i slashes
      cases h
      exact ordinary (.inl rfl) slashes.1
    split at h
    · rename_i opening
      cases h
      obtain ⟨rfl, star⟩ := opening
      obtain ⟨rest, rfl⟩ := List.head?_eq_some_iff.mp star
      exact length_comment_pos rest
    split at h
    · rename_i hash
      cases h
      exact ordinary (.inr rfl) hash.1.2
    · cases h

theorem length_stringLiteral_pos (cs : List Char) : 0 < (StringLiteral.extent cs).length := by
  have quotes : 0 < (StringLiteral.delimiter cs).openingLength := by
    unfold StringLiteral.Delimiter.openingLength StringLiteral.Delimiter.quotes
    split <;> simp
  rw [StringLiteral.extent, StringLiteral.Extent.length_add]
  omega

/-- The cases follow the first characters. Only a few kinds have a length that is not written out,
and only a few kinds depend on more than these characters. -/
theorem punctuationExtent_spec (c : Char) (cs : List Char) :
    0 < (punctuationExtent c cs).2 ∧ (punctuationExtent c cs).1 ≠ .endOfFile := by
  unfold punctuationExtent
  split
  case h_1 => cases backquotedTail? cs <;> simp
  case h_3 => simp [length_stringLiteral_pos]
  case h_4 => split <;> simp [length_stringLiteral_pos]
  case h_31 => split <;> simp [operatorLength]
  case h_32 => split <;> simp [operatorLength]
  all_goals simp [operatorLength]

/-- A text that is not empty begins with a token of its own, which does not mark the end. -/
theorem tokenExtent_cons (c : Char) (cs : List Char) :
    0 < (tokenExtent (c :: cs)).2 ∧ (tokenExtent (c :: cs)).1 ≠ .endOfFile := by
  unfold tokenExtent
  dsimp only
  split
  · rename_i start
    have part : isIdentifierPart c := by
      simp only [isIdentifierStart, isIdentifierPart, Bool.or_eq_true] at start ⊢
      exact start.imp id Text.isAlphanumeric_of_isAlphabetic
    refine ⟨runLength_pos cs part, ?_⟩
    unfold wordExtent
    dsimp only
    split <;> decide
  split
  · rename_i digit
    unfold numberExtent
    split
    · simp
    · have whole : 0 < runLength isDigitPart (c :: cs) :=
        runLength_pos cs (by simp [isDigitPart, digit])
      dsimp only
      refine ⟨by omega, ?_⟩
      split <;> decide
  · exact punctuationExtent_spec c cs

namespace Lexeme

def text : Lexeme → String
  | .piece trivia => trivia.text
  | .token _ content => content

def textAll : List Lexeme → String
  | [] => ""
  | lexeme :: rest => lexeme.text ++ textAll rest

def isEnd : Lexeme → Bool
  | .piece _ => false
  | .token kind _ => kind == .endOfFile

end Lexeme

/-- The lexeme that a text begins with is a part of the text, is not empty, and does not mark the
end. -/
theorem lexeme_cons (atStart : Bool) (c : Char) (cs : List Char) :
    (lexeme atStart (c :: cs)).1.text =
        String.ofList ((c :: cs).take (lexeme atStart (c :: cs)).2) ∧
      0 < (lexeme atStart (c :: cs)).2 ∧ (lexeme atStart (c :: cs)).1.isEnd = false := by
  unfold lexeme
  split
  · rename_i kind length h
    exact ⟨rfl, triviaExtent?_pos h, rfl⟩
  · obtain ⟨positive, kind⟩ := tokenExtent_cons c cs
    exact ⟨rfl, positive, by simpa [Lexeme.isEnd] using kind⟩

/-- Cutting a text into lexemes loses nothing of it. The induction is on the text, and what has
been read already is dropped from it. -/
theorem textAll_lexemes (atStart : Bool) (taken : Nat) (cs : List Char) :
    Lexeme.textAll (lexemes atStart taken cs) = String.ofList (cs.drop taken) := by
  induction cs generalizing atStart taken with
  | nil => simp [lexemes, Lexeme.textAll]
  | cons c cs ih =>
    cases taken with
    | succ taken => rw [lexemes, ih, List.drop_succ_cons]
    | zero =>
      obtain ⟨text, positive, -⟩ := lexeme_cons atStart c cs
      obtain ⟨length, hlength⟩ : ∃ length, (lexeme atStart (c :: cs)).2 = length + 1 :=
        ⟨_, (Nat.succ_pred_eq_of_pos positive).symm⟩
      rw [lexemes, Lexeme.textAll, ih, text, hlength, List.drop_zero, Nat.add_sub_cancel,
        ← String.ofList_append, List.take_succ_cons, List.cons_append, List.take_append_drop]

/-- Each lexeme is what some part of the text begins with. -/
theorem exists_lexeme_of_mem_lexemes {atStart : Bool} {taken : Nat} {cs : List Char}
    {found : Lexeme} (h : found ∈ lexemes atStart taken cs) :
    ∃ (first : Bool) (c : Char) (rest : List Char),
      (first → atStart) ∧ found = (lexeme first (c :: rest)).1 := by
  induction cs generalizing atStart taken with
  | nil => simp [lexemes] at h
  | cons c cs ih =>
    have behind {taken : Nat} (member : found ∈ lexemes false taken cs) :
        ∃ (first : Bool) (c : Char) (rest : List Char),
          (first → atStart) ∧ found = (lexeme first (c :: rest)).1 := by
      obtain ⟨first, c, rest, start, same⟩ := ih member
      exact ⟨first, c, rest, fun isFirst => absurd (start isFirst) Bool.false_ne_true, same⟩
    cases taken with
    | succ taken => exact behind h
    | zero =>
      rw [lexemes] at h
      obtain here | later := List.mem_cons.mp h
      · exact ⟨atStart, c, cs, id, here⟩
      · exact behind later

theorem isEnd_of_mem_lexemes {atStart : Bool} {taken : Nat} {cs : List Char} {found : Lexeme}
    (h : found ∈ lexemes atStart taken cs) : found.isEnd = false := by
  obtain ⟨first, c, rest, -, rfl⟩ := exists_lexeme_of_mem_lexemes h
  exact (lexeme_cons first c rest).2.2

theorem text_ne_empty_of_mem_lexemes {atStart : Bool} {taken : Nat} {cs : List Char}
    {found : Lexeme} (h : found ∈ lexemes atStart taken cs) : found.text ≠ "" := by
  obtain ⟨first, c, rest, -, rfl⟩ := exists_lexeme_of_mem_lexemes h
  obtain ⟨text, positive, -⟩ := lexeme_cons first c rest
  intro empty
  rw [text, String.ofList_eq_empty_iff, List.take_eq_nil_iff] at empty
  obtain none | nil := empty
  · omega
  · cases nil

/-- Attaching trivia moves pieces from one token to the next and changes nothing of the text. -/
theorem renderAll_attach (lexemes : List Lexeme) :
    Token.renderAll ((attach lexemes).1 :: (attach lexemes).2) = Lexeme.textAll lexemes := by
  induction lexemes with
  | nil => rfl
  | cons lexeme rest ih =>
    cases lexeme with
    | piece piece =>
      rw [Lexeme.textAll, ← ih]
      simp [attach, Token.render, Trivia.render, Lexeme.text, String.append_assoc]
    | token kind text =>
      have split : Trivia.render ((attach rest).1.leading.takeWhile (!·.isNewline)) ++
          Trivia.render ((attach rest).1.leading.dropWhile (!·.isNewline)) =
            Trivia.render (attach rest).1.leading := by
        rw [← Trivia.render_append, List.takeWhile_append_dropWhile]
      rw [Lexeme.textAll, ← ih, Token.renderAll_cons (attach rest).1, Token.render, ← split]
      simp [attach, Token.render, Trivia.render, Lexeme.text, String.append_assoc]

end Lexer

/-- The last of the tokens marks the end, and no other one does. -/
def EndsOnce (tokens : List Token) : Prop :=
  ∃ before last, tokens = before ++ [last] ∧ last.isEnd ∧ ∀ token ∈ before, ¬token.isEnd

theorem EndsOnce.cons {token : Token} {tokens : List Token} (h : EndsOnce tokens)
    (inner : ¬token.isEnd) : EndsOnce (token :: tokens) := by
  obtain ⟨before, last, rfl, marks, others⟩ := h
  refine ⟨token :: before, last, rfl, marks, ?_⟩
  intro other member
  obtain rfl | member := List.mem_cons.mp member
  · exact inner
  · exact others other member

/-- Trivia in front of the first token has no bearing on where the tokens end. -/
theorem EndsOnce.relead {token : Token} {tokens : List Token} (h : EndsOnce (token :: tokens))
    (leading : Trivia) : EndsOnce ({ token with leading } :: tokens) := by
  obtain ⟨before, last, equation, marks, others⟩ := h
  cases before with
  | nil =>
    cases equation
    exact ⟨[], _, rfl, marks, nofun⟩
  | cons first before =>
    cases equation
    have rest : EndsOnce (before ++ [last]) :=
      ⟨before, last, rfl, marks, fun other member => others other (List.mem_cons_of_mem _ member)⟩
    exact rest.cons (others token List.mem_cons_self)

namespace Lexer

theorem endsOnce_attach {lexemes : List Lexeme} (h : ∀ lexeme ∈ lexemes, lexeme.isEnd = false) :
    EndsOnce ((attach lexemes).1 :: (attach lexemes).2) := by
  induction lexemes with
  | nil => exact ⟨[], _, rfl, rfl, nofun⟩
  | cons lexeme rest ih =>
    have later := ih fun other member => h other (List.mem_cons_of_mem _ member)
    cases lexeme with
    | piece piece => exact later.relead _
    | token kind text =>
      have inner : kind ≠ .endOfFile := by
        simpa [Lexeme.isEnd] using h _ List.mem_cons_self
      exact (later.relead _).cons (by simpa [attach, Token.isEnd] using inner)

/-- All tokens but the one that marks the end come from lexemes. -/
theorem mem_lexemes_of_mem_attach {lexemes : List Lexeme} {token : Token}
    (h : token ∈ (attach lexemes).1 :: (attach lexemes).2) :
    token.isEnd ∨ Lexeme.token token.kind token.text ∈ lexemes := by
  induction lexemes generalizing token with
  | nil =>
    obtain rfl : token = ⟨.endOfFile, "", [], []⟩ := by simpa [attach] using h
    exact .inl rfl
  | cons lexeme rest ih =>
    have relead {leading : Trivia} {other : Token}
        (member : other ∈ { (attach rest).1 with leading } :: (attach rest).2) :
        other.isEnd ∨ Lexeme.token other.kind other.text ∈ lexeme :: rest := by
      obtain rfl | later := List.mem_cons.mp member
      · exact (ih List.mem_cons_self).imp id (List.mem_cons_of_mem _)
      · exact (ih (List.mem_cons_of_mem _ later)).imp id (List.mem_cons_of_mem _)
    cases lexeme with
    | piece piece => exact relead h
    | token kind text =>
      obtain rfl | later := List.mem_cons.mp h
      · exact .inr List.mem_cons_self
      · exact relead later

end Lexer

/-- Only the token that marks the end is empty. -/
theorem text_ne_empty_of_mem_lex {text : String} {token : Token} (h : token ∈ lex text)
    (inner : ¬token.isEnd) : token.text ≠ "" := by
  obtain marks | member := Lexer.mem_lexemes_of_mem_attach h
  · exact absurd marks inner
  · exact Lexer.text_ne_empty_of_mem_lexemes member

/-- The tokens of a text, written one after the other, are the text. -/
theorem renderAll_lex (text : String) : Token.renderAll (lex text) = text := by
  unfold lex
  rw [Lexer.renderAll_attach, Lexer.textAll_lexemes, List.drop_zero, String.ofList_toList]

theorem endsOnce_lex (text : String) : EndsOnce (lex text) :=
  Lexer.endsOnce_attach fun _ member => Lexer.isEnd_of_mem_lexemes member

end SwiftTree
