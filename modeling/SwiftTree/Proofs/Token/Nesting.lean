import SwiftTree.Grammar.Rule

/-!
# Nested brackets

Parentheses, square brackets and braces group tokens. They are nested if each of them is closed by a
bracket of its own sort, in the order that a stack gives. Angle brackets are comparison operators as
well and group nothing.

Nested tokens have as many opening brackets as closing ones. So where more brackets are closed than
opened, they cannot be nested.
-/

namespace SwiftTree.Grammar

namespace Bracket

def openedBy? : TokenKind → Option Bracket
  | .leftParen => some paren
  | .leftSquare => some square
  | .leftBrace => some brace
  | _ => none

def closedBy? : TokenKind → Option Bracket
  | .rightParen => some paren
  | .rightSquare => some square
  | .rightBrace => some brace
  | _ => none

/-- The brackets that are open after a token, the innermost first. Only the innermost bracket can be
closed. -/
def step (stack : List Bracket) (kind : TokenKind) : Option (List Bracket) :=
  match openedBy? kind, closedBy? kind, stack with
  | some bracket, _, _ => some (bracket :: stack)
  | none, none, _ => some stack
  | none, some _, [] => none
  | none, some bracket, innermost :: outer => if innermost = bracket then some outer else none

def openAfter (stack : List Bracket) : List Token → Option (List Bracket)
  | [] => some stack
  | token :: rest => (step stack token.kind).bind fun stack => openAfter stack rest

theorem step_of_opens {kind : TokenKind} {bracket : Bracket} (h : openedBy? kind = some bracket)
    (stack : List Bracket) : step stack kind = some (bracket :: stack) := by
  simp [step, h]

theorem step_of_closes {kind : TokenKind} {bracket : Bracket} (h : closedBy? kind = some bracket)
    (stack : List Bracket) : step (bracket :: stack) kind = some stack := by
  have other : openedBy? kind = none := by cases kind <;> first | rfl | cases h
  simp [step, h, other]

theorem step_of_plain {kind : TokenKind} (opens : openedBy? kind = none)
    (closes : closedBy? kind = none) (stack : List Bracket) : step stack kind = some stack := by
  simp [step, opens, closes]

/-- All that a token can do: it opens a bracket, closes the innermost one, or is no bracket. -/
theorem step_cases {stack result : List Bracket} {kind : TokenKind}
    (h : step stack kind = some result) :
    (∃ bracket, openedBy? kind = some bracket ∧ closedBy? kind = none ∧
        result = bracket :: stack) ∨
      (∃ bracket, openedBy? kind = none ∧ closedBy? kind = some bracket ∧
        stack = bracket :: result) ∨
      (openedBy? kind = none ∧ closedBy? kind = none ∧ result = stack) := by
  unfold step at h
  split at h
  · rename_i bracket opens
    have other : closedBy? kind = none := by cases kind <;> first | rfl | cases opens
    exact .inl ⟨bracket, opens, other, (Option.some.inj h).symm⟩
  · rename_i opens closes
    exact .inr (.inr ⟨opens, closes, (Option.some.inj h).symm⟩)
  · cases h
  · rename_i bracket innermost outer opens closes
    split at h
    · rename_i same
      obtain rfl := Option.some.inj h
      exact .inr (.inl ⟨bracket, opens, closes, by rw [same]⟩)
    · cases h

/-- Brackets further out do not matter. -/
theorem step_append {stack result : List Bracket} {kind : TokenKind}
    (h : step stack kind = some result) (outer : List Bracket) :
    step (stack ++ outer) kind = some (result ++ outer) := by
  obtain ⟨bracket, opens, -, rfl⟩ | ⟨bracket, -, closes, rfl⟩ | ⟨opens, closes, rfl⟩ := step_cases h
  · exact step_of_opens opens _
  · exact step_of_closes closes _
  · exact step_of_plain opens closes _

theorem openAfter_append (stack : List Bracket) (as bs : List Token) :
    openAfter stack (as ++ bs) = (openAfter stack as).bind fun stack => openAfter stack bs := by
  induction as generalizing stack with
  | nil => rfl
  | cons token as ih =>
    rw [List.cons_append, openAfter, openAfter, Option.bind_assoc]
    exact congrArg _ (funext ih)

theorem openAfter_append_outer {stack result : List Bracket} {tokens : List Token}
    (h : openAfter stack tokens = some result) (outer : List Bracket) :
    openAfter (stack ++ outer) tokens = some (result ++ outer) := by
  induction tokens generalizing stack with
  | nil =>
    obtain rfl := Option.some.inj h
    rfl
  | cons token tokens ih =>
    obtain ⟨middle, first, rest⟩ := Option.bind_eq_some_iff.mp h
    rw [openAfter, step_append first, Option.bind_some]
    exact ih rest

def openings (tokens : List Token) : Nat :=
  tokens.countP fun token => (openedBy? token.kind).isSome

def closings (tokens : List Token) : Nat :=
  tokens.countP fun token => (closedBy? token.kind).isSome

theorem openings_append (as bs : List Token) : openings (as ++ bs) = openings as + openings bs :=
  List.countP_append

theorem closings_append (as bs : List Token) : closings (as ++ bs) = closings as + closings bs :=
  List.countP_append

theorem openings_singleton (token : Token) :
    openings [token] = (openedBy? token.kind).isSome.toNat := by
  rw [openings, List.countP_singleton]
  cases (openedBy? token.kind).isSome <;> rfl

theorem closings_singleton (token : Token) :
    closings [token] = (closedBy? token.kind).isSome.toNat := by
  rw [closings, List.countP_singleton]
  cases (closedBy? token.kind).isSome <;> rfl

theorem length_step {stack result : List Bracket} {token : Token}
    (h : step stack token.kind = some result) :
    result.length + closings [token] = stack.length + openings [token] := by
  rw [openings_singleton, closings_singleton]
  obtain ⟨bracket, opens, closes, rfl⟩ | ⟨bracket, opens, closes, rfl⟩ | ⟨opens, closes, rfl⟩ :=
    step_cases h
  · simp [opens, closes]
  · simp [opens, closes]
  · simp [opens, closes]

theorem length_openAfter {stack result : List Bracket} {tokens : List Token}
    (h : openAfter stack tokens = some result) :
    result.length + closings tokens = stack.length + openings tokens := by
  induction tokens generalizing stack with
  | nil =>
    obtain rfl := Option.some.inj h
    rfl
  | cons token tokens ih =>
    obtain ⟨middle, first, rest⟩ := Option.bind_eq_some_iff.mp h
    have here := length_step first
    have later := ih rest
    rw [← List.singleton_append, openings_append, closings_append]
    omega

end Bracket

open SwiftTree.Grammar.Bracket

/-- The brackets among some tokens are nested: all that are opened are closed, in the right order,
and no others are. -/
def Nested (tokens : List Token) : Prop :=
  openAfter [] tokens = some []

instance (tokens : List Token) : Decidable (Nested tokens) :=
  inferInstanceAs (Decidable (_ = _))

/-- More brackets are closed than opened. -/
def Excess (tokens : List Token) : Prop :=
  openings tokens < closings tokens

namespace Nested

variable {as bs : List Token} {token : Token}

theorem openAfter (h : Nested as) (stack : List Bracket) :
    Bracket.openAfter stack as = some stack :=
  openAfter_append_outer h stack

theorem append (first : Nested as) (second : Nested bs) : Nested (as ++ bs) := by
  rw [Nested, openAfter_append, first, Option.bind_some]
  exact second

theorem plain (opens : openedBy? token.kind = none) (closes : closedBy? token.kind = none) :
    Nested [token] := by
  rw [Nested, Bracket.openAfter, step_of_plain opens closes]
  rfl

/-- A token that is no bracket has no bearing on brackets. -/
theorem append_plain_iff (opens : openedBy? token.kind = none)
    (closes : closedBy? token.kind = none) : Nested (as ++ [token]) ↔ Nested as := by
  have last (stack : List Bracket) : Bracket.openAfter stack [token] = some stack :=
    (plain opens closes).openAfter stack
  rw [Nested, openAfter_append, funext last, Option.bind_fun_some]
  rfl

theorem count_eq (h : Nested as) : openings as = closings as := by
  have count := length_openAfter h
  rw [List.length_nil] at count
  omega

theorem not_excess (h : Nested as) : ¬Excess as :=
  Nat.not_lt_of_le (Nat.le_of_eq h.count_eq.symm)

/-- What is enclosed by a pair of brackets. Angle brackets are as good as no brackets. -/
theorem enclose {opening closing : Token} {bracket : Bracket} (h : Nested as)
    (first : opening.kind = bracket.openingKind) (last : closing.kind = bracket.closingKind) :
    Nested ([opening] ++ (as ++ [closing])) := by
  by_cases angle : bracket = .angle
  · subst angle
    exact (plain (by rw [first]; rfl) (by rw [first]; rfl)).append
      (h.append (plain (by rw [last]; rfl) (by rw [last]; rfl)))
  · have opens : openedBy? opening.kind = some bracket := by
      rw [first]
      cases bracket <;> first | rfl | exact absurd rfl angle
    have closes : closedBy? closing.kind = some bracket := by
      rw [last]
      cases bracket <;> first | rfl | exact absurd rfl angle
    rw [Nested, List.singleton_append, Bracket.openAfter, step_of_opens opens, Option.bind_some,
      openAfter_append, h.openAfter, Option.bind_some, Bracket.openAfter, step_of_closes closes]
    rfl

end Nested

namespace Excess

variable {as bs : List Token}

theorem append_left (h : Excess as) (rest : openings bs ≤ closings bs) : Excess (as ++ bs) := by
  unfold Excess at *
  rw [openings_append, closings_append]
  omega

theorem append_right (start : openings as ≤ closings as) (h : Excess bs) : Excess (as ++ bs) := by
  unfold Excess at *
  rw [openings_append, closings_append]
  omega

/-- A pair of brackets makes no difference. -/
theorem enclose {opening closing : Token} {bracket : Bracket} (h : Excess as)
    (first : opening.kind = bracket.openingKind) (last : closing.kind = bracket.closingKind) :
    Excess ([opening] ++ (as ++ [closing])) := by
  have pair :
      openings [opening] + openings [closing] = closings [opening] + closings [closing] := by
    simp only [openings_singleton, closings_singleton, first, last]
    cases bracket <;> rfl
  unfold Excess at *
  simp only [openings_append, closings_append]
  omega

end Excess

end SwiftTree.Grammar
