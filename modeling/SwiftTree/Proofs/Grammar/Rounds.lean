import SwiftTree.Proofs.Grammar.Progress
import SwiftTree.Proofs.Grammar.Unbounded

/-!
# Bounds that are never met

A run is bounded in two ways: a loop goes round again only if it has taken a token, and a goal is
called for only if one has been taken since the current goal began. Where each round that asks for
another takes a token anyway, and each call comes after one, the bounds make no difference: the
bounded run of a rule ends where the run without bounds does.
-/

namespace SwiftTree.Grammar

def Always : Condition :=
  fun _ _ => True

def Never : Condition :=
  fun _ _ => False

namespace State

variable (s : State)

theorem again_shift : s.shift.again = s.again := by
  unfold shift
  split
  · rename_i taken
    rw [(take?_eq_some taken).2.2]
    rfl
  · rfl

theorem again_attach : s.attach.again = s.again := by
  unfold attach
  split
  · rfl
  · rename_i taken
    rw [(take?_eq_some taken).2.2]
    split <;> rfl

theorem again_shiftMany (count : Nat) : (shiftMany count s).again = s.again := by
  induction count generalizing s with
  | zero => rfl
  | succ count ih => exact (ih s.shift).trans s.again_shift

theorem again_recover (recovery : Recovery) : (s.recover recovery).again = s.again := by
  unfold recover
  split
  · rfl
  · exact again_shiftMany (s.enter .unexpectedNodes) _

end State

namespace Rule

variable {Goal : Type}

/-- Whether a rule may ask for another round of a loop around it, itself or through a goal that it
calls for. -/
def asks : Rule Goal → Bool
  | node _ body => body.asks
  | seq first second => first.asks || second.asks
  | choose _ yes no => yes.asks || no.asks
  | again | call _ => true
  | _ => false

end Rule

/-- From every state with the condition, the rule asks for another round only if it takes a token,
whatever the goals are that it pursues. -/
def Earns {Goal : Type} (P : Condition) (rule : Rule Goal) : Prop :=
  ∀ ⦃pursue : Goal → State → State⦄, (∀ goal s, Advances s (pursue goal s)) →
    ∀ ⦃bound⦄, 0 < bound → ∀ base s, s.again = false → P s.last s.rest →
      (rule.run pursue bound base s).again = true → s.taken < (rule.run pursue bound base s).taken

namespace Earns

variable {Goal : Type} {P Q : Condition} {first second rule : Rule Goal}

theorem mono (h : Earns Q rule) (weaker : ∀ last rest, P last rest → Q last rest) :
    Earns P rule := by
  intro pursue goals bound positive base s calm holds
  exact h goals positive base s calm (weaker _ _ holds)

/-- A rule that takes a token may ask for what it likes. -/
theorem of_consumes (h : Consumes P rule) : Earns P rule := by
  intro pursue goals bound positive base s calm holds more
  exact h goals positive base s holds

theorem node {kind : NodeKind} (body : Earns P rule) : Earns P (.node kind rule) := by
  intro pursue goals bound positive base s calm holds more
  exact body goals positive base (s.enter kind) calm holds more

/-- If the first rule takes no token, it does not ask either, and the second one starts where the
first one did. -/
theorem seq (before : Earns P first) (after : Earns P second) : Earns P (.seq first second) := by
  intro pursue goals bound positive base s calm holds more
  have one := Advances.stepLaw.run goals bound base first s
  have two := Advances.stepLaw.run goals bound base second (first.run pursue bound base s)
  by_cases same : (first.run pursue bound base s).taken = s.taken
  · obtain ⟨last, rest⟩ := one.eq_of_taken_eq same
    have still : (first.run pursue bound base s).again = false := by
      cases asked : (first.run pursue bound base s).again with
      | false => rfl
      | true => exact absurd (before goals positive base s calm holds asked) (by omega)
    have later := after goals positive base (first.run pursue bound base s) still
      (by rwa [last, rest]) more
    rwa [same] at later
  · exact Nat.lt_of_lt_of_le (Nat.lt_of_le_of_ne one.taken_le (Ne.symm same)) two.taken_le

theorem choose {test : Test}
    (yes : Earns (fun last rest => P last rest ∧ test.holds last rest) first)
    (no : Earns (fun last rest => P last rest ∧ ¬test.holds last rest) second) :
    Earns P (.choose test first second) := by
  intro pursue goals bound positive base s calm holds
  unfold Rule.run
  split
  · rename_i h
    exact yes goals positive base s calm ⟨holds, h⟩
  · rename_i h
    exact no goals positive base s calm ⟨holds, h⟩

/-- A loop asks for another round only where it has run out of rounds, and then it has taken
tokens. -/
theorem loop : Earns P (.loop rule) := by
  intro pursue goals bound positive base s calm holds more
  obtain ⟨rounds, rfl⟩ : ∃ rounds, bound = rounds + 1 := ⟨bound - 1, by omega⟩
  have step := Advances.stepLaw.run goals (rounds + 1) base rule
  unfold Rule.run iterate at more ⊢
  dsimp only at more ⊢
  split at more
  · rename_i goes
    simp only [Bool.and_eq_true, decide_eq_true_eq] at goes
    rw [if_pos (by simp [goes])]
    exact Nat.lt_of_lt_of_le goes.2 (Advances.stepLaw.iterate step rounds _).taken_le
  · cases more

theorem delimited {bracket : Bracket} {label : String} {goal : Goal} :
    Earns P (.delimited bracket label goal) := by
  intro pursue goals bound positive base s calm holds more
  by_cases opening : currentKind s.rest = bracket.openingKind
  · have consumes : Consumes (fun _ rest => currentKind rest = bracket.openingKind)
        (.delimited bracket label goal) := Consumes.delimited fun _ _ h => h
    exact consumes goals positive base s opening
  · rw [Rule.run, if_neg opening, calm] at more
    cases more

/-- A rule that does not ask earns nothing, and need not. -/
theorem of_asks (silent : rule.asks = false) : Earns P rule := by
  induction rule generalizing P with
  | node kind body inside => exact (inside silent).node
  | seq first second before after =>
    rw [Rule.asks, Bool.or_eq_false_iff] at silent
    exact (before silent.1).seq (after silent.2)
  | choose test yes no left right =>
    rw [Rule.asks, Bool.or_eq_false_iff] at silent
    exact .choose (left silent.1) (right silent.2)
  | loop body => exact .loop
  | delimited bracket label goal => exact .delimited
  | again | call goal => cases silent
  | _ =>
    intro pursue goals bound positive base s calm holds more
    simp [Rule.run, State.again_shift, State.again_attach, State.again_recover, State.complain,
      State.say, calm] at more

theorem when {test : Test}
    (h : Earns (fun last rest => P last rest ∧ test.holds last rest) rule) :
    Earns P (.when test rule) :=
  .choose h (of_asks rfl)

/-- A rule that takes a token is repeated only after it has done so. -/
theorem repeated {test : Test} (h : Consumes (fun last rest => test.holds last rest) rule) :
    Earns P (.when test (.seq rule .again)) :=
  (of_consumes (h.seq_left.mono fun _ _ both => both.2)).when

/-- Where a token is taken right before, another round may be asked for. -/
theorem shift_again : Earns NotAtEnd (.steps [.shift, .again] : Rule Goal) :=
  of_consumes Consumes.shift.seq_left

end Earns

namespace Rule

variable {Goal : Type}

def calls : Rule Goal → List Goal
  | node _ body => body.calls
  | seq first second => first.calls ++ second.calls
  | choose _ yes no => yes.calls ++ no.calls
  | loop body => body.calls
  | call goal => [goal]
  | _ => []

end Rule

/-- A state in the pursuit of a goal that began when `base` tokens had been taken and fewer than
`bound` were left. -/
structure State.InReach (s : State) (bound base : Nat) : Prop where
  begun : base ≤ s.taken
  left : s.taken + s.rest.length < base + bound

theorem State.InReach.advance {s t : State} {bound base : Nat} (h : s.InReach bound base)
    (advances : Advances s t) : t.InReach bound base where
  begun := Nat.le_trans h.begun advances.taken_le
  left := advances.taken_add_length ▸ h.left

variable {Goal : Type} {grammar : Goal → Rule Goal}

/-- The goals are pursued to where they lead without bounds, once a token has been taken. -/
structure Leads (grammar : Goal → Rule Goal) (pursue : Goal → State → State) (bound base : Nat) :
    Prop where
  advances (goal : Goal) (s : State) : Advances s (pursue goal s)
  runs (goal : Goal) {s : State} : s.InReach bound base → base < s.taken →
    Runs grammar (grammar goal) s (pursue goal s)

/-- The bounded run of the rule ends where the run without bounds does, from every state with the
condition and from every state in which a token has been taken since the current goal began. -/
def Follows (grammar : Goal → Rule Goal) (P : Condition) (rule : Rule Goal) : Prop :=
  ∀ ⦃pursue : Goal → State → State⦄ ⦃bound base : Nat⦄, Leads grammar pursue bound base →
    ∀ ⦃s : State⦄, s.InReach bound base → base < s.taken ∨ P s.last s.rest →
      Runs grammar rule s (rule.run pursue bound base s)

namespace Follows

variable {P Q : Condition} {first second rule : Rule Goal}

theorem mono (h : Follows grammar Q rule) (weaker : ∀ last rest, P last rest → Q last rest) :
    Follows grammar P rule := by
  intro pursue bound base goals s within holds
  exact h goals within (holds.imp_right (weaker _ _))

/-- Split the states with a condition into two kinds. -/
theorem split (Q : Condition)
    (yes : Follows grammar (fun last rest => P last rest ∧ Q last rest) rule)
    (no : Follows grammar (fun last rest => P last rest ∧ ¬Q last rest) rule) :
    Follows grammar P rule := by
  intro pursue bound base goals s within holds
  by_cases h : Q s.last s.rest
  · exact yes goals within (holds.imp_right fun p => ⟨p, h⟩)
  · exact no goals within (holds.imp_right fun p => ⟨p, h⟩)

theorem node {kind : NodeKind} (body : Follows grammar P rule) :
    Follows grammar P (.node kind rule) := by
  intro pursue bound base goals s within holds
  exact .node (@body pursue bound base goals (s.enter kind) ⟨within.begun, within.left⟩ holds)

/-- What a stretch that takes no token leaves behind is a state with the condition as before. -/
theorem taken_or {s t : State} {base : Nat} (advances : Advances s t) (begun : base ≤ s.taken)
    (holds : base < s.taken ∨ P s.last s.rest) : base < t.taken ∨ P t.last t.rest := by
  by_cases same : t.taken = s.taken
  · obtain ⟨last, rest⟩ := advances.eq_of_taken_eq same
    rwa [same, last, rest]
  · have := advances.taken_le
    exact .inl (by omega)

theorem seq (before : Follows grammar P first) (after : Follows grammar P second) :
    Follows grammar P (.seq first second) := by
  intro pursue bound base goals s within holds
  have advances := Advances.stepLaw.run goals.advances bound base first s
  exact .seq (before goals within holds)
    (after goals (within.advance advances) (taken_or advances within.begun holds))

/-- What follows a rule that takes a token may call for goals. -/
theorem seq_consumes (takes : Consumes P first) (before : Follows grammar P first)
    (after : Follows grammar Never second) : Follows grammar P (.seq first second) := by
  intro pursue bound base goals s within holds
  have advances := Advances.stepLaw.run goals.advances bound base first s
  have positive : 0 < bound := by
    have := within.begun
    have := within.left
    omega
  have taken : base < (first.run pursue bound base s).taken := by
    obtain earlier | here := holds
    · exact Nat.lt_of_lt_of_le earlier advances.taken_le
    · exact Nat.lt_of_le_of_lt within.begun (takes goals.advances positive base s here)
  exact .seq (before goals within holds) (after goals (within.advance advances) (.inl taken))

theorem choose {test : Test}
    (yes : Follows grammar (fun last rest => P last rest ∧ test.holds last rest) first)
    (no : Follows grammar (fun last rest => P last rest ∧ ¬test.holds last rest) second) :
    Follows grammar P (.choose test first second) := by
  intro pursue bound base goals s within holds
  unfold Rule.run
  split
  · rename_i h
    exact .yes h (yes goals within (holds.imp_right fun p => ⟨p, h⟩))
  · rename_i h
    exact .no h (no goals within (holds.imp_right fun p => ⟨p, h⟩))

/-- A loop whose rounds earn what they ask for is never stopped. The induction is on the rounds, and
there are always more of them than tokens that are left. -/
theorem loop (earns : Earns Always rule) (body : Follows grammar P rule) :
    Follows grammar P (.loop rule) := by
  intro pursue bound base goals s within holds
  have enough : s.rest.length < bound := by
    have := within.begun
    have := within.left
    omega
  have positive : 0 < bound := Nat.zero_lt_of_lt enough
  have rounds (rounds : Nat) : ∀ s : State, s.rest.length < rounds → s.InReach bound base →
      base < s.taken ∨ P s.last s.rest →
        Runs grammar (.loop rule) s (iterate (rule.run pursue bound base) rounds s) := by
    induction rounds with
    | zero => intro s none; omega
    | succ rounds ih =>
      intro s more within holds
      have round := @body pursue bound base goals { s with again := false }
        ⟨within.begun, within.left⟩ holds
      have paid := earns goals.advances positive base { s with again := false } rfl trivial
      have advances : Advances s (rule.run pursue bound base { s with again := false }) :=
        (Advances.stepLaw.ask s false).trans round.advances
      unfold iterate
      dsimp only
      generalize rule.run pursue bound base { s with again := false } = next at *
      cases asked : next.again with
      | false =>
        have same : { next with again := false } = next := by rw [← asked]
        rw [Bool.false_and, if_neg Bool.false_ne_true, same]
        exact .last round asked
      | true =>
        have taken : s.taken < next.taken := paid asked
        have fewer := advances.taken_add_length
        have begun := within.begun
        rw [if_pos (by simp [taken])]
        exact .round round asked
          (ih next (by omega) (within.advance advances) (.inl (by omega)))
  exact rounds bound s enough within holds

theorem call {goal : Goal} : Follows grammar Never (.call goal) := by
  intro pursue bound base goals s within holds
  have taken := holds.resolve_right id
  rw [Rule.run, if_pos taken]
  exact .call (goals.runs goal within taken)

theorem delimited {bracket : Bracket} {label : String} {goal : Goal} :
    Follows grammar P (.delimited bracket label goal) := by
  intro pursue bound base goals s within holds
  unfold Rule.run
  split
  · rename_i opening
    obtain ⟨token, takes⟩ := State.takes_shift (State.not_atEnd_of_opening opening)
    have taken : base < s.shift.taken := by
      rw [takes.taken]
      exact Nat.lt_succ_of_le within.begun
    exact .opened opening (goals.runs goal (within.advance (Advances.shift s)) taken)
  · rename_i other
    exact .unopened other

/-- A rule that calls for no goals keeps within its bounds if its loops earn what they ask for, and
so does any rule after a token has been taken. -/
theorem of_calls (free : rule.calls = [] ∨ ∀ last rest, ¬P last rest)
    (earns : ∀ body ∈ rule.loops, Earns Always body) : Follows grammar P rule := by
  induction rule with
  | node kind body inside => exact (inside free earns).node
  | seq first second before after =>
    rw [Rule.calls, List.append_eq_nil_iff] at free
    rw [Rule.loops, List.forall_mem_append] at earns
    exact (before (free.imp_left And.left) earns.1).seq (after (free.imp_left And.right) earns.2)
  | choose test yes no left right =>
    rw [Rule.calls, List.append_eq_nil_iff] at free
    rw [Rule.loops, List.forall_mem_append] at earns
    exact .choose ((left (free.imp_left And.left) earns.1).mono fun _ _ both => both.1)
      ((right (free.imp_left And.right) earns.2).mono fun _ _ both => both.1)
  | loop body round =>
    rw [Rule.loops, List.forall_mem_cons] at earns
    exact .loop earns.1 (round free earns.2)
  | call goal =>
    obtain none | never := free
    · cases none
    · exact call.mono never
  | delimited bracket label goal => exact .delimited
  | skip => exact fun _ _ _ _ s _ _ => .skip s
  | shift => exact fun _ _ _ _ s _ _ => .shift s
  | attach => exact fun _ _ _ _ s _ _ => .attach s
  | recover recovery => exact fun _ _ _ _ s _ _ => .recover recovery s
  | report complaint => exact fun _ _ _ _ s _ _ => .report complaint s
  | become kind => exact fun _ _ _ _ s _ _ => .become kind s
  | again => exact fun _ _ _ _ s _ _ => .again s

end Follows

/-- After a token has been taken, as many levels suffice as there were tokens. -/
theorem leads_pursue {levels base : Nat}
    (goals : ∀ goal s, s.rest.length < levels →
      Runs grammar (grammar goal) s (pursue grammar levels goal s)) :
    Leads grammar (pursue grammar levels) (levels + 1) base where
  advances := Advances.stepLaw.pursue grammar levels
  runs := by
    intro goal s within taken
    have := within.left
    exact goals goal s (by omega)

section

variable (follows : ∀ goal, Follows grammar Always (grammar goal))

include follows

/-- With more levels than tokens, a goal is pursued to where it leads without bounds. -/
theorem runs_pursue {levels : Nat} (goal : Goal) (s : State) (enough : s.rest.length < levels) :
    Runs grammar (grammar goal) s (pursue grammar levels goal s) := by
  induction levels generalizing goal s with
  | zero => omega
  | succ levels ih =>
    exact follows goal (leads_pursue ih) ⟨Nat.le_refl _, by omega⟩ (.inr trivial)

variable {rule : Rule Goal} (kept : Follows grammar Always rule)

include kept

/-- A run without bounds is a bounded run, with as many levels as there are tokens. -/
theorem run_eq_of_runs {s t : State} (run : Runs grammar rule s t) :
    rule.run (pursue grammar s.rest.length) (s.rest.length + 1) s.taken s = t :=
  (kept (leads_pursue (runs_pursue follows)) ⟨Nat.le_refl _, by omega⟩ (.inr trivial)).unique run

theorem taken_lt_of_consumes {P : Condition} (consumes : Consumes P rule) {s t : State}
    (run : Runs grammar rule s t) (holds : P s.last s.rest) : s.taken < t.taken := by
  have taken := consumes (Advances.stepLaw.pursue grammar s.rest.length)
    (Nat.succ_pos s.rest.length) s.taken s holds
  rwa [run_eq_of_runs follows kept run] at taken

/-- What is earned in bounded runs is paid without bounds. -/
theorem pays_of_earns (earns : Earns Always rule) : Pays grammar rule := by
  intro s t run more
  have paid := earns (Advances.stepLaw.pursue grammar s.rest.length)
    (Nat.succ_pos s.rest.length) s.taken { s with again := false } rfl trivial
  rw [run_eq_of_runs follows kept run] at paid
  exact paid more

end

end SwiftTree.Grammar
