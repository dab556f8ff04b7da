import SwiftTree.Grammar.State

/-!
# What tests can see

Two positions in two inputs look alike if the tokens ahead have the same kinds and texts, the same
of them stand at the start of a line, and the same of them are glued to the token before. Tests
cannot tell such positions apart, also after moving ahead, and tokens that fit nowhere are the same
number at both.
-/

namespace SwiftTree.Grammar

/-- Two positions look alike. A position is given by the token taken last, of which only the kind is
seen, and the tokens that follow. -/
inductive SameSight : Option Token → List Token → Option Token → List Token → Prop
  | nil {a b : Option Token} (last : a.map Token.kind = b.map Token.kind) : SameSight a [] b []
  | cons {a b : Option Token} {t u : Token} {ts us : List Token}
    (last : a.map Token.kind = b.map Token.kind)
    (kind : t.kind = u.kind) (text : t.text = u.text)
    (line : atLineStart a (t :: ts) = atLineStart b (u :: us))
    (glue : isGlued a (t :: ts) = isGlued b (u :: us))
    (later : SameSight (some t) ts (some u) us) : SameSight a (t :: ts) b (u :: us)

namespace SameSight

variable {a b : Option Token} {ts us : List Token}

theorem last (h : SameSight a ts b us) : a.map Token.kind = b.map Token.kind := by
  cases h with
  | nil last => exact last
  | cons last => exact last

theorem currentKind (h : SameSight a ts b us) : currentKind ts = currentKind us := by
  cases h with
  | nil => rfl
  | cons last kind => simp [Grammar.currentKind, kind]

/-- A condition on kind and text of the current token. -/
theorem any_head (h : SameSight a ts b us) (p : TokenKind → String → Bool) :
    (ts.head?.any fun token => p token.kind token.text) =
      us.head?.any fun token => p token.kind token.text := by
  cases h with
  | nil => rfl
  | cons last kind text => simp [kind, text]

theorem atLineStart (h : SameSight a ts b us) : atLineStart a ts = atLineStart b us := by
  cases h with
  | nil last => cases a <;> cases b <;> simp_all [Grammar.atLineStart]
  | cons last kind text line => exact line

theorem isGlued (h : SameSight a ts b us) : isGlued a ts = isGlued b us := by
  cases h with
  | nil last => cases a <;> cases b <;> rfl
  | cons last kind text line glue => exact glue

theorem startsDeclarationAfter (h : SameSight a ts b us) (amongMembers : Bool) (skipped : Nat) :
    startsDeclarationAfter amongMembers skipped ts =
      startsDeclarationAfter amongMembers skipped us := by
  induction h generalizing skipped with
  | nil => rfl
  | cons last kind text line glue later ih =>
    cases skipped with
    | succ skipped => exact ih skipped
    | zero =>
      simp only [Grammar.startsDeclarationAfter, kind, text, later.currentKind]
      split
      · rfl
      · simp only [ih]
      · rfl

/-- Positions that look alike still do so after moving ahead in both. -/
theorem lookAhead (h : SameSight a ts b us) (count : Nat) :
    SameSight (lookAhead count a ts).1 (lookAhead count a ts).2
      (lookAhead count b us).1 (lookAhead count b us).2 := by
  induction h generalizing count with
  | nil last => cases count <;> exact .nil last
  | cons last kind text line glue later ih =>
    cases count with
    | zero => exact .cons last kind text line glue later
    | succ count =>
      cases later with
      | nil stops => exact .cons last kind text line glue (.nil stops)
      | cons => exact ih count

/-- No test can tell the positions apart. -/
theorem holds (h : SameSight a ts b us) (test : Test) : test.holds a ts = test.holds b us := by
  induction test generalizing a b ts us with
  | kindIn kinds => simp only [Test.holds, h.currentKind]
  | keywordIn words => exact h.any_head fun kind text => kind == .keyword && words.contains text
  | text content => exact h.any_head fun _ text => text == content
  | lastIn kinds =>
    have through (last : Option Token) : (last.any fun token => kinds.contains token.kind) =
        (last.map Token.kind).any kinds.contains := by
      cases last <;> rfl
    simp only [Test.holds, through, h.last]
  | lineStart => exact h.atLineStart
  | glued => exact h.isGlued
  | declarationStart amongMembers => exact h.startsDeclarationAfter amongMembers 0
  | ahead count test ih => exact ih (h.lookAhead count)
  | not test ih => simp only [Test.holds, ih h]
  | and first second left right => simp only [Test.holds, left h, right h]
  | or first second left right => simp only [Test.holds, left h, right h]

/-- As many tokens fit nowhere. -/
theorem length_misplaced (h : SameSight a ts b us) (stop : Test) (forced : Bool) (depth : Nat) :
    (State.misplaced stop a forced depth ts).length =
      (State.misplaced stop b forced depth us).length := by
  induction h generalizing forced depth with
  | nil => rfl
  | @cons a b t u ts us last kind text line glue later ih =>
    have here : SameSight a (t :: ts) b (u :: us) := .cons last kind text line glue later
    have ends : t.isEnd = u.isEnd := by rw [Token.isEnd, Token.isEnd, kind]
    have opens : State.opensGroup t = State.opensGroup u := by
      rw [State.opensGroup, State.opensGroup, kind]
    have closes : State.closesGroup t = State.closesGroup u := by
      rw [State.closesGroup, State.closesGroup, kind]
    simp only [State.misplaced, ends, opens, closes, here.holds stop]
    split
    · rfl
    split
    · rfl
    split
    · simp only [List.length_cons, ih]
    split
    · split
      · rfl
      · simp only [List.length_cons, ih]
    · simp only [List.length_cons, ih]

end SameSight

end SwiftTree.Grammar
