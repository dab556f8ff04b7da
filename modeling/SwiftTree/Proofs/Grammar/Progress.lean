import SwiftTree.Grammar.Swift
import SwiftTree.Proofs.Grammar.Conservation

/-!
# Progress

A rule consumes, under a condition on the tokens ahead, if it takes at least one token from every
state with that condition. Since a stretch that takes no token leaves the tokens ahead as they are,
a sequence consumes as soon as one of its parts does.

A loop whose rounds all consume runs until its test fails, provided that it has more rounds than
there are tokens.
-/

namespace SwiftTree.Grammar

/-- A condition on the token taken last and the tokens that are left. -/
abbrev Condition := Option Token → List Token → Prop

/-- There is a token to take. -/
def NotAtEnd : Condition :=
  fun _ rest => currentKind rest ≠ .endOfFile

/-- The rule takes a token from every state with the condition, whatever the goals are that it
pursues. -/
def Consumes {Goal : Type} (P : Condition) (rule : Rule Goal) : Prop :=
  ∀ ⦃pursue : Goal → State → State⦄, (∀ goal s, Advances s (pursue goal s)) →
    ∀ ⦃bound⦄, 0 < bound → ∀ base s, P s.last s.rest →
      s.taken < (rule.run pursue bound base s).taken

namespace Consumes

variable {Goal : Type} {P Q : Condition} {first second rule : Rule Goal}

theorem mono (h : Consumes Q rule) (weaker : ∀ last rest, P last rest → Q last rest) :
    Consumes P rule := by
  intro pursue goals bound positive base s holds
  exact h goals positive base s (weaker _ _ holds)

/-- No state has the condition. -/
theorem vacuous (never : ∀ last rest, ¬P last rest) : Consumes P rule := by
  intro pursue goals bound positive base s holds
  exact absurd holds (never _ _)

/-- Split the states with a condition into two kinds. -/
theorem split (Q : Condition) (yes : Consumes (fun last rest => P last rest ∧ Q last rest) rule)
    (no : Consumes (fun last rest => P last rest ∧ ¬Q last rest) rule) : Consumes P rule := by
  intro pursue goals bound positive base s holds
  by_cases h : Q s.last s.rest
  · exact yes goals positive base s ⟨holds, h⟩
  · exact no goals positive base s ⟨holds, h⟩

theorem shift : Consumes NotAtEnd (.shift : Rule Goal) := by
  intro pursue goals bound positive base s holds
  obtain ⟨token, takes⟩ := State.takes_shift holds
  exact Nat.lt_of_lt_of_eq (Nat.lt_succ_self _) takes.taken.symm

theorem attach : Consumes NotAtEnd (.attach : Rule Goal) := by
  intro pursue goals bound positive base s holds
  obtain ⟨token, takes⟩ := State.takes_attach holds
  exact Nat.lt_of_lt_of_eq (Nat.lt_succ_self _) takes.taken.symm

theorem node {kind : NodeKind} (body : Consumes P rule) : Consumes P (.node kind rule) := by
  intro pursue goals bound positive base s holds
  exact body goals positive base (s.enter kind) holds

theorem seq_left (h : Consumes P first) : Consumes P (.seq first second) := by
  intro pursue goals bound positive base s holds
  exact Nat.lt_of_lt_of_le (h goals positive base s holds)
    (Advances.stepLaw.run goals bound base second _).taken_le

/-- If the first rule takes no token, the second one starts where the first one did. -/
theorem seq_right (h : Consumes P second) : Consumes P (.seq first second) := by
  intro pursue goals bound positive base s holds
  have before := Advances.stepLaw.run goals bound base first s
  by_cases same : (first.run pursue bound base s).taken = s.taken
  · obtain ⟨last, rest⟩ := before.eq_of_taken_eq same
    have after := h goals positive base (first.run pursue bound base s) (by rwa [last, rest])
    rwa [same] at after
  · have after := (Advances.stepLaw.run goals bound base second
      (first.run pursue bound base s)).taken_le
    have le := before.taken_le
    change s.taken < (second.run pursue bound base (first.run pursue bound base s)).taken
    omega

theorem choose {test : Test}
    (yes : Consumes (fun last rest => P last rest ∧ test.holds last rest) first)
    (no : Consumes (fun last rest => P last rest ∧ ¬test.holds last rest) second) :
    Consumes P (.choose test first second) := by
  intro pursue goals bound positive base s holds
  unfold Rule.run
  split
  · rename_i h
    exact yes goals positive base s ⟨holds, h⟩
  · rename_i h
    exact no goals positive base s ⟨holds, h⟩

theorem when {test : Test} (h : Consumes P rule)
    (sure : ∀ last rest, P last rest → test.holds last rest) : Consumes P (.when test rule) := by
  intro pursue goals bound positive base s holds
  rw [Rule.when, Rule.run, if_pos (sure _ _ holds)]
  exact h goals positive base s holds

/-- One round of a loop is enough. -/
theorem while_ {test : Test} (h : Consumes P rule)
    (sure : ∀ last rest, P last rest → test.holds last rest) : Consumes P (.while_ test rule) := by
  intro pursue goals bound positive base s holds
  obtain ⟨rounds, rfl⟩ : ∃ rounds, bound = rounds + 1 := ⟨bound - 1, by omega⟩
  have body : Consumes P (.when test (.seq rule .again)) := h.seq_left.when sure
  have round := body goals positive base { s with again := false } holds
  have step := Advances.stepLaw.run goals (rounds + 1) base (.when test (.seq rule .again))
  unfold Rule.while_ Rule.run iterate
  dsimp only
  split
  · exact Nat.lt_of_lt_of_le round (Advances.stepLaw.iterate step rounds _).taken_le
  · exact round

theorem delimited {bracket : Bracket} {label : String} {goal : Goal}
    (sure : ∀ last rest, P last rest → currentKind rest = bracket.openingKind) :
    Consumes P (.delimited bracket label goal) := by
  intro pursue goals bound positive base s holds
  have opening := sure _ _ holds
  obtain ⟨token, takes⟩ := State.takes_shift (State.not_atEnd_of_opening opening)
  have later : Advances s.shift ((pursue goal s.shift).close bracket label s.contentStart) :=
    (goals goal s.shift).trans (Advances.close _ _ _ _)
  rw [Rule.run, if_pos opening]
  exact Nat.lt_of_lt_of_le (Nat.lt_of_lt_of_eq (Nat.lt_succ_self _) takes.taken.symm) later.taken_le

/-- A forced recovery sets aside the current token in any case. -/
theorem recover {recovery : Recovery} (forced : recovery.forced = true) :
    Consumes NotAtEnd (.recover recovery : Rule Goal) := by
  intro pursue goals bound positive base s holds
  have some_token : 0 < (State.misplaced recovery.stop s.last recovery.forced 0 s.rest).length := by
    obtain rest | ⟨token, rest, equation⟩ : s.rest = [] ∨ ∃ token rest, s.rest = token :: rest := by
      cases s.rest <;> simp
    · exact absurd rest (by intro empty; rw [NotAtEnd, empty] at holds; exact holds rfl)
    · have inner : ¬token.isEnd := by
        rw [NotAtEnd, equation] at holds
        simpa [Token.isEnd, currentKind] using holds
      rw [equation, forced, State.misplaced, if_neg inner]
      simp only [Bool.not_true, Bool.false_and, Bool.false_eq_true, if_false, Bool.and_false]
      split
      · simp
      · split <;> simp
  obtain ⟨token, takes⟩ := State.takes_shift (s := s.enter .unexpectedNodes) holds
  unfold Rule.run State.recover
  split
  · rename_i none_misplaced
    omega
  · rename_i count _
    have later := (Advances.shiftMany count (s.enter .unexpectedNodes).shift).taken_le
    rw [takes.taken] at later
    exact later

/-- A table of rules by keywords consumes if all rules in it do, and so does the other rule where
none of the keywords is current. -/
theorem dispatch {table : List (String × Rule Goal)} {otherwise : Rule Goal}
    (rules : ∀ entry ∈ table, Consumes P entry.2)
    (other : Consumes (fun last rest => P last rest ∧
      ∀ word ∈ table.map Prod.fst, ¬(Test.keyword word).holds last rest) otherwise) :
    Consumes P (.dispatch table otherwise) := by
  induction table generalizing P with
  | nil => exact other.mono fun _ _ holds => ⟨holds, nofun⟩
  | cons entry table ih =>
    apply choose
    · exact (rules entry List.mem_cons_self).mono fun _ _ holds => holds.1
    · apply ih
      · intro later member
        exact (rules later (List.mem_cons_of_mem _ member)).mono fun _ _ holds => holds.1
      · apply other.mono
        rintro last rest ⟨⟨holds, first⟩, rest⟩
        exact ⟨holds, List.forall_mem_cons.mpr ⟨first, rest⟩⟩

end Consumes

/-- A loop whose rounds take tokens ends only where its test fails. The induction is on the rounds,
and there are always more of them than tokens that are left. -/
theorem iterate_exit {step : State → State} {test : Test}
    (goes : ∀ s, test.holds s.last s.rest →
      (step s).again = true ∧ s.taken < (step s).taken ∧ Advances s (step s))
    (stops : ∀ s, ¬test.holds s.last s.rest → step s = s)
    (rounds : Nat) (s : State) (enough : s.rest.length < rounds) :
    ¬test.holds (iterate step rounds s).last (iterate step rounds s).rest := by
  induction rounds generalizing s with
  | zero => omega
  | succ rounds ih =>
    unfold iterate
    dsimp only
    by_cases h : test.holds s.last s.rest
    · obtain ⟨again, more, advances⟩ := goes { s with again := false } h
      have fewer := advances.taken_add_length
      rw [if_pos (by simp [again, more])]
      apply ih
      dsimp only at more fewer
      omega
    · rw [stops { s with again := false } h]
      simpa using h

/-- The rule takes a token in each round, so the rounds suffice. -/
theorem Consumes.while_exit {Goal : Type} {test : Test} {rule : Rule Goal}
    (h : Consumes (fun last rest => test.holds last rest) rule)
    {pursue : Goal → State → State} (goals : ∀ goal s, Advances s (pursue goal s))
    {bound : Nat} (base : Nat) (s : State) (enough : s.rest.length < bound) :
    ¬test.holds ((Rule.while_ test rule).run pursue bound base s).last
      ((Rule.while_ test rule).run pursue bound base s).rest := by
  have positive : 0 < bound := Nat.zero_lt_of_lt enough
  apply iterate_exit _ _ bound s enough
  · intro t holds
    have taken : Consumes _ (.when test (.seq rule .again)) := h.seq_left.when fun _ _ h => h
    refine ⟨?_, taken goals positive base t holds, Advances.stepLaw.run goals bound base _ t⟩
    rw [Rule.when, Rule.run, if_pos holds]
    rfl
  · intro t holds
    rw [Rule.when, Rule.run, if_neg holds]
    rfl

end SwiftTree.Grammar
