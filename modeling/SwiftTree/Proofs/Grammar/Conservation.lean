import SwiftTree.Proofs.Grammar.Run
import SwiftTree.Proofs.Node.Leaves

/-!
# Conservation of tokens

Whatever a rule does, the tokens that disappear from the input are the tokens that appear as leaves,
in the same order. This holds of each step, also of those that set tokens aside or reopen the child
built last, and it composes, so it is a step law and holds of every run.

The token that marks the end is never taken.
-/

namespace SwiftTree.Grammar

namespace State

/-- No token but the one that marks the end is left. -/
def AtEnd (s : State) : Prop :=
  currentKind s.rest = .endOfFile

end State

/-- The tokens are taken from the input one after the other, and become leaves of the node that is
being built. -/
structure Takes (s : State) (tokens : List Token) (t : State) : Prop where
  rest : s.rest = tokens ++ t.rest
  leaves : Node.leavesAll t.children.toList = Node.leavesAll s.children.toList ++ tokens
  taken : t.taken = s.taken + tokens.length
  last : t.last = tokens.getLast?.or s.last
  inner : ∀ token ∈ tokens, ¬token.isEnd

namespace Takes

variable {s t u : State} {as bs : List Token} {token : Token}

theorem refl (s : State) : Takes s [] s :=
  ⟨rfl, by simp, rfl, rfl, nofun⟩

theorem trans (first : Takes s as t) (second : Takes t bs u) : Takes s (as ++ bs) u where
  rest := by rw [first.rest, second.rest, List.append_assoc]
  leaves := by rw [second.leaves, first.leaves, List.append_assoc]
  taken := by rw [second.taken, first.taken, List.length_append, Nat.add_assoc]
  last := by rw [second.last, first.last, List.getLast?_append, Option.or_assoc]
  inner := by
    intro token member
    obtain member | member := List.mem_append.mp member
    · exact first.inner token member
    · exact second.inner token member

/-- What is built inside a node becomes part of the node around it. -/
theorem leave {kind : NodeKind} (inside : Takes (s.enter kind) as t) : Takes s as (s.leave t) where
  rest := inside.rest
  leaves := by
    have leaves : Node.leavesAll t.children.toList = as := inside.leaves
    simp [State.leave, leaves]
  taken := inside.taken
  last := inside.last
  inner := inside.inner

/-- Taking one token, whatever becomes of the children, as long as it is their last leaf. -/
theorem of_take? {children : Array Node} (h : s.take? = some (token, t))
    (leaves : Node.leavesAll children.toList = Node.leavesAll s.children.toList ++ [token]) :
    Takes s [token] { t with children } := by
  unfold State.take? at h
  split at h
  · cases h
  · rename_i current rest equation
    split at h
    · cases h
    · rename_i inner
      cases h
      exact ⟨equation, leaves, rfl, rfl, by simpa using inner⟩

end Takes

namespace State

/-- All that taking a token does. -/
theorem take?_eq_some {s t : State} {token : Token} (h : s.take? = some (token, t)) :
    s.rest = token :: t.rest ∧ ¬token.isEnd ∧
      t = { s with
        last := some token
        rest := t.rest
        taken := s.taken + 1
        offset := s.offset + token.width
        contentEnd := s.offset + (token.leading.width + token.text.utf8ByteSize) } := by
  unfold take? at h
  split at h
  · cases h
  · rename_i equation
    split at h
    · cases h
    · rename_i inner
      cases h
      exact ⟨equation, inner, rfl⟩

theorem take?_children {s t : State} {token : Token} (h : s.take? = some (token, t)) :
    t.children = s.children := by
  rw [(take?_eq_some h).2.2]

/-- There is a token to take exactly if the end has not been reached. -/
theorem take?_eq_none_iff {s : State} : s.take? = none ↔ s.AtEnd := by
  unfold take? AtEnd currentKind
  split <;> rename_i equation
  · simp [equation]
  · rename_i token rest
    rw [equation]
    by_cases marks : token.isEnd
    · have kind : token.kind = .endOfFile := by simpa [Token.isEnd] using marks
      simp [marks, kind]
    · have kind : token.kind ≠ .endOfFile := by simpa [Token.isEnd] using marks
      simp [marks, kind]

/-- No bracket marks the end. -/
theorem not_atEnd_of_opening {s : State} {bracket : Bracket}
    (h : currentKind s.rest = bracket.openingKind) : ¬s.AtEnd := by
  intro ends
  rw [AtEnd, h] at ends
  cases bracket <;> cases ends

theorem not_atEnd_of_closing {s : State} {bracket : Bracket}
    (h : currentKind s.rest = bracket.closingKind) : ¬s.AtEnd := by
  intro ends
  rw [AtEnd, h] at ends
  cases bracket <;> cases ends

theorem shift_of_atEnd {s : State} (h : s.AtEnd) : s.shift = s := by
  unfold shift
  rw [take?_eq_none_iff.mpr h]

theorem takes_shift {s : State} (h : ¬s.AtEnd) : ∃ token, Takes s [token] s.shift := by
  obtain ⟨⟨token, t⟩, taken⟩ := Option.ne_none_iff_exists'.mp (mt take?_eq_none_iff.mp h)
  unfold shift
  rw [taken]
  refine ⟨token, Takes.of_take? taken ?_⟩
  simp [take?_children taken]

theorem attach_of_atEnd {s : State} (h : s.AtEnd) : s.attach = s := by
  unfold attach
  rw [take?_eq_none_iff.mpr h]

/-- The token becomes the last leaf, both of a child that is opened again and of a new one. -/
theorem takes_attach {s : State} (h : ¬s.AtEnd) : ∃ token, Takes s [token] s.attach := by
  obtain ⟨⟨token, t⟩, taken⟩ := Option.ne_none_iff_exists'.mp (mt take?_eq_none_iff.mp h)
  have children := take?_children taken
  unfold attach
  rw [taken]
  dsimp only
  split
  · rename_i kind inside back
    obtain ⟨before, equation⟩ := Array.back?_eq_some_iff.mp back
    refine ⟨token, Takes.of_take? taken ?_⟩
    rw [← children, equation]
    simp
  · refine ⟨token, Takes.of_take? taken ?_⟩
    simp [children]

end State

/-- Some tokens are taken from the input and become leaves. -/
def Advances (s t : State) : Prop :=
  ∃ tokens, Takes s tokens t

namespace Advances

variable {s t : State}

theorem trans {u : State} (first : Advances s t) (second : Advances t u) : Advances s u := by
  obtain ⟨as, first⟩ := first
  obtain ⟨bs, second⟩ := second
  exact ⟨as ++ bs, first.trans second⟩

theorem shift (s : State) : Advances s s.shift := by
  by_cases h : s.AtEnd
  · exact ⟨[], by rw [State.shift_of_atEnd h]; exact Takes.refl s⟩
  · obtain ⟨token, takes⟩ := State.takes_shift h
    exact ⟨[token], takes⟩

theorem attach (s : State) : Advances s s.attach := by
  by_cases h : s.AtEnd
  · exact ⟨[], by rw [State.attach_of_atEnd h]; exact Takes.refl s⟩
  · obtain ⟨token, takes⟩ := State.takes_attach h
    exact ⟨[token], takes⟩

theorem shiftMany (count : Nat) (s : State) : Advances s (State.shiftMany count s) := by
  induction count generalizing s with
  | zero => exact ⟨[], Takes.refl s⟩
  | succ count ih => exact (shift s).trans (ih s.shift)

theorem leave {kind : NodeKind} (inside : Advances (s.enter kind) t) : Advances s (s.leave t) := by
  obtain ⟨tokens, inside⟩ := inside
  exact ⟨tokens, inside.leave⟩

theorem say (h : Advances s t) (report : Report) : Advances s (t.say report) := by
  obtain ⟨tokens, takes⟩ := h
  exact ⟨tokens, takes.rest, takes.leaves, takes.taken, takes.last, takes.inner⟩

theorem recover (s : State) (recovery : Recovery) : Advances s (s.recover recovery) := by
  unfold State.recover
  split
  · exact ⟨[], Takes.refl s⟩
  · exact (leave (shiftMany _ (s.enter .unexpectedNodes))).say _

theorem close (s : State) (bracket : Bracket) (label : String) (openedAt : Nat) :
    Advances s (s.close bracket label openedAt) := by
  unfold State.close
  split
  · exact shift s
  · exact say ⟨[], Takes.refl s⟩ _

/-- Every stretch of parsing conserves tokens. -/
theorem stepLaw : StepLaw Advances where
  refl s := ⟨[], Takes.refl s⟩
  trans := trans
  shift := shift
  attach := attach
  recover s _ _ := recover s _
  complain s _ _ := say ⟨[], Takes.refl s⟩ _
  delimited _ _ inside := (shift _).trans (inside.trans (close _ _ _ _))
  become s _ := ⟨[], rfl, by simp, rfl, rfl, nofun⟩
  ask s _ := ⟨[], rfl, by simp, rfl, rfl, nofun⟩
  node := leave

/-- The position in the input never moves back. -/
theorem taken_le (h : Advances s t) : s.taken ≤ t.taken := by
  obtain ⟨tokens, takes⟩ := h
  rw [takes.taken]
  exact Nat.le_add_right _ _

/-- Tokens that are taken are no longer left. -/
theorem taken_add_length (h : Advances s t) :
    t.taken + t.rest.length = s.taken + s.rest.length := by
  obtain ⟨tokens, takes⟩ := h
  rw [takes.taken, takes.rest, List.length_append, Nat.add_assoc]

/-- A stretch in which no token is taken leaves the position in the input as it was. -/
theorem eq_of_taken_eq (h : Advances s t) (same : t.taken = s.taken) :
    t.last = s.last ∧ t.rest = s.rest := by
  obtain ⟨tokens, takes⟩ := h
  have empty : tokens = [] := by
    have length := takes.taken
    rw [same] at length
    exact List.eq_nil_of_length_eq_zero (by omega)
  subst empty
  exact ⟨takes.last, takes.rest.symm⟩

end Advances

end SwiftTree.Grammar
