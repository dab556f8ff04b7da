import SwiftTree.Grammar.Run

/-!
# Laws of running rules

Two ways to prove something about every run of every rule without looking at the rule. A step law
relates the states before and after a run: if it composes and each single step obeys it, every run
obeys it. Where it depends on what a rule may complain about, that is read off the rule. A
correspondence relates the states of two runs of one rule: if the two states agree on what rules
look at and each single step keeps them related, the runs end in related states.

The induction over rules, over the rounds of a loop and over the levels of goals is done here once
for each of the two.
-/

namespace SwiftTree.Grammar

namespace Rule

variable {Goal : Type}

/-- The complaints that a rule may make by itself. -/
def complaints : Rule Goal → List Complaint
  | report complaint => [complaint]
  | node _ body => body.complaints
  | seq first second => first.complaints ++ second.complaints
  | choose _ yes no => yes.complaints ++ no.complaints
  | loop body => body.complaints
  | _ => []

/-- The ways in which a rule may set tokens aside by itself. -/
def recoveries : Rule Goal → List Recovery
  | recover recovery => [recovery]
  | node _ body => body.recoveries
  | seq first second => first.recoveries ++ second.recoveries
  | choose _ yes no => yes.recoveries ++ no.recoveries
  | loop body => body.recoveries
  | _ => []

end Rule

/-- What composes and holds of every round of a loop holds of the loop. The wish for another round
must not matter. -/
theorem iterate_of_steps {R : State → State → Prop} (refl : ∀ s, R s s)
    (trans : ∀ {s t u}, R s t → R t u → R s u) (ask : ∀ (s : State) again, R s { s with again })
    {step : State → State} (steps : ∀ s, R s (step s)) (rounds : Nat) (s : State) :
    R s (iterate step rounds s) := by
  induction rounds generalizing s with
  | zero => exact refl s
  | succ rounds ih =>
    have round : R s (step { s with again := false }) := trans (ask s false) (steps _)
    unfold iterate
    dsimp only
    split
    · exact trans round (ih _)
    · exact trans round (ask _ false)

/-- A relation between the states before and after any stretch of parsing, which holds of every
stretch because it holds of single steps. A node is built from a state of its own, so what happens
inside is known only as a stretch from the entered state; what happens between brackets is a stretch
that ends where the closing bracket is taken or missed. The law is restricted to rules that make
certain complaints only, and set tokens aside in certain ways only. -/
structure RestrictedLaw (complaints : Complaint → Prop) (recoveries : Recovery → Prop)
    (R : State → State → Prop) : Prop where
  refl (s : State) : R s s
  trans {s t u : State} : R s t → R t u → R s u
  shift (s : State) : R s s.shift
  attach (s : State) : R s s.attach
  recover (s : State) {recovery : Recovery} : recoveries recovery → R s (s.recover recovery)
  complain (s : State) {complaint : Complaint} : complaints complaint → R s (s.complain complaint)
  delimited {s inner : State} {bracket : Bracket} (label : String) :
    currentKind s.rest = bracket.openingKind → R s.shift inner →
      R s (inner.close bracket label s.contentStart)
  become (s : State) (kind : NodeKind) : R s { s with kind }
  ask (s : State) (again : Bool) : R s { s with again }
  node {s inner : State} {kind : NodeKind} : R (s.enter kind) inner → R s (s.leave inner)

namespace RestrictedLaw

variable {complaints : Complaint → Prop} {recoveries : Recovery → Prop}
variable {R : State → State → Prop}

theorem iterate (law : RestrictedLaw complaints recoveries R) {step : State → State}
    (steps : ∀ s, R s (step s)) (rounds : Nat) (s : State) : R s (iterate step rounds s) :=
  iterate_of_steps law.refl law.trans law.ask steps rounds s

/-- A run of a rule obeys the law if the goals that it pursues do. -/
theorem run (law : RestrictedLaw complaints recoveries R) {Goal : Type}
    {pursue : Goal → State → State} (goals : ∀ goal s, R s (pursue goal s)) (bound base : Nat)
    {rule : Rule Goal} (allowed : ∀ complaint ∈ rule.complaints, complaints complaint)
    (aside : ∀ recovery ∈ rule.recoveries, recoveries recovery) (s : State) :
    R s (rule.run pursue bound base s) := by
  induction rule generalizing s with
  | skip => exact law.refl s
  | shift => exact law.shift s
  | attach => exact law.attach s
  | recover recovery => exact law.recover s (aside recovery List.mem_cons_self)
  | report complaint => exact law.complain s (allowed complaint List.mem_cons_self)
  | become kind => exact law.become s kind
  | node kind body inside => exact law.node (inside allowed aside (s.enter kind))
  | seq first second before after =>
    simp only [Rule.complaints, Rule.recoveries, List.forall_mem_append] at allowed aside
    exact law.trans (before allowed.1 aside.1 s) (after allowed.2 aside.2 _)
  | choose test yes no left right =>
    simp only [Rule.complaints, Rule.recoveries, List.forall_mem_append] at allowed aside
    unfold Rule.run
    split
    · exact left allowed.1 aside.1 s
    · exact right allowed.2 aside.2 s
  | loop body round => exact law.iterate (round allowed aside) bound s
  | again => exact law.ask s true
  | call goal =>
    unfold Rule.run
    split
    · exact goals goal s
    · exact law.refl s
  | delimited bracket label goal =>
    unfold Rule.run
    split
    · rename_i opening
      exact law.delimited label opening (goals goal s.shift)
    · exact law.refl s

theorem pursue (law : RestrictedLaw complaints recoveries R) {Goal : Type}
    {grammar : Goal → Rule Goal}
    (allowed : ∀ goal, ∀ complaint ∈ (grammar goal).complaints, complaints complaint)
    (aside : ∀ goal, ∀ recovery ∈ (grammar goal).recoveries, recoveries recovery)
    (levels : Nat) (goal : Goal) (s : State) : R s (pursue grammar levels goal s) := by
  induction levels generalizing goal s with
  | zero => exact law.refl s
  | succ levels ih => exact law.run ih (levels + 1) s.taken (allowed goal) (aside goal) s

end RestrictedLaw

/-- A law that is restricted to no rules. -/
abbrev StepLaw (R : State → State → Prop) : Prop :=
  RestrictedLaw (fun _ => True) (fun _ => True) R

namespace StepLaw

variable {R : State → State → Prop}

theorem run (law : StepLaw R) {Goal : Type} {pursue : Goal → State → State}
    (goals : ∀ goal s, R s (pursue goal s)) (bound base : Nat) (rule : Rule Goal) (s : State) :
    R s (rule.run pursue bound base s) :=
  RestrictedLaw.run law goals bound base (fun _ _ => trivial) (fun _ _ => trivial) s

theorem pursue (law : StepLaw R) {Goal : Type} (grammar : Goal → Rule Goal) (levels : Nat)
    (goal : Goal) (s : State) : R s (pursue grammar levels goal s) :=
  RestrictedLaw.pursue law (fun _ _ _ => trivial) (fun _ _ _ => trivial) levels goal s

end StepLaw

/-- A relation between the states of two runs that no step can tell apart. -/
structure Correspondence (R : State → State → Prop) : Prop where
  holds {s t : State} : R s t → ∀ test : Test, test.holds s.last s.rest = test.holds t.last t.rest
  taken {s t : State} : R s t → s.taken = t.taken
  again {s t : State} : R s t → s.again = t.again
  shift {s t : State} : R s t → R s.shift t.shift
  attach {s t : State} : R s t → R s.attach t.attach
  recover {s t : State} (recovery : Recovery) : R s t → R (s.recover recovery) (t.recover recovery)
  complain {s t : State} (complaint : Complaint) :
    R s t → R (s.complain complaint) (t.complain complaint)
  close {s t : State} (bracket : Bracket) (label : String) (i j : Nat) :
    R s t → R (s.close bracket label i) (t.close bracket label j)
  become {s t : State} (kind : NodeKind) : R s t → R { s with kind } { t with kind }
  ask {s t : State} (again : Bool) : R s t → R { s with again } { t with again }
  enter {s t : State} (kind : NodeKind) : R s t → R (s.enter kind) (t.enter kind)
  leave {s t i j : State} : R s t → R i j → R (s.leave i) (t.leave j)

namespace Correspondence

variable {R : State → State → Prop}

/-- The kind of the current token can be found out by tests. -/
theorem currentKind (law : Correspondence R) {s t : State} (h : R s t) :
    currentKind s.rest = currentKind t.rest := by
  have same := law.holds h (.kindIn [Grammar.currentKind s.rest])
  simp only [Test.holds, List.contains_cons, beq_self_eq_true, List.contains_nil,
    Bool.or_false] at same
  exact (beq_iff_eq.mp same.symm).symm

theorem iterate (law : Correspondence R) {f g : State → State}
    (steps : ∀ {s t}, R s t → R (f s) (g t)) (rounds : Nat) {s t : State} (h : R s t) :
    R (iterate f rounds s) (iterate g rounds t) := by
  induction rounds generalizing s t with
  | zero => exact h
  | succ rounds ih =>
    have round : R (f { s with again := false }) (g { t with again := false }) :=
      steps (law.ask false h)
    have another : ((f { s with again := false }).again &&
          decide (s.taken < (f { s with again := false }).taken)) =
        ((g { t with again := false }).again &&
          decide (t.taken < (g { t with again := false }).taken)) := by
      rw [law.again round, law.taken round, law.taken h]
    unfold Grammar.iterate
    dsimp only
    rw [another]
    split
    · exact ih round
    · exact law.ask false round

/-- Two runs of a rule end in related states if the goals that they pursue do. -/
theorem run (law : Correspondence R) {Goal : Type} {p q : Goal → State → State}
    (goals : ∀ goal {s t}, R s t → R (p goal s) (q goal t)) (bound base : Nat)
    (rule : Rule Goal) {s t : State} (h : R s t) :
    R (rule.run p bound base s) (rule.run q bound base t) := by
  induction rule generalizing s t with
  | skip => exact h
  | shift => exact law.shift h
  | attach => exact law.attach h
  | recover recovery => exact law.recover recovery h
  | report complaint => exact law.complain complaint h
  | become kind => exact law.become kind h
  | node kind body inside => exact law.leave h (inside (law.enter kind h))
  | seq first second before after => exact after (before h)
  | choose test yes no left right =>
    unfold Rule.run
    rw [law.holds h test]
    split
    · exact left h
    · exact right h
  | loop body round => exact law.iterate round bound h
  | again => exact law.ask true h
  | call goal =>
    unfold Rule.run
    rw [law.taken h]
    split
    · exact goals goal h
    · exact h
  | delimited bracket label goal =>
    unfold Rule.run
    rw [law.currentKind h]
    split
    · exact law.close bracket label _ _ (goals goal (law.shift h))
    · exact h

theorem pursue (law : Correspondence R) {Goal : Type} (grammar : Goal → Rule Goal) (levels : Nat)
    (goal : Goal) {s t : State} (h : R s t) :
    R (pursue grammar levels goal s) (pursue grammar levels goal t) := by
  induction levels generalizing goal s t with
  | zero => exact h
  | succ levels ih =>
    unfold Grammar.pursue
    rw [law.taken h]
    exact law.run ih (levels + 1) t.taken (grammar goal) h

end Correspondence

end SwiftTree.Grammar
