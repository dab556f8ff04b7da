import SwiftTree.Proofs.Grammar.Conservation

/-!
# Running without bounds

What a rule does where nothing holds it up: a loop goes round as often as it is asked to, and a goal
is pursued wherever it is called for. Such a run may go on for ever, so it is a relation between
states and not a function. It has no two outcomes, and it obeys every step law.

A rule has an outcome from every state if the goals have one and each round of a loop that asks for
another takes a token.
-/

namespace SwiftTree.Grammar

variable {Goal : Type} {grammar : Goal → Rule Goal}

/-- The run of a rule from one state ends in another. -/
inductive Runs (grammar : Goal → Rule Goal) : Rule Goal → State → State → Prop
  | skip (s : State) : Runs grammar .skip s s
  | shift (s : State) : Runs grammar .shift s s.shift
  | attach (s : State) : Runs grammar .attach s s.attach
  | recover (recovery : Recovery) (s : State) :
    Runs grammar (.recover recovery) s (s.recover recovery)
  | report (complaint : Complaint) (s : State) :
    Runs grammar (.report complaint) s (s.complain complaint)
  | become (kind : NodeKind) (s : State) : Runs grammar (.become kind) s { s with kind }
  | node {kind : NodeKind} {body : Rule Goal} {s t : State} :
    Runs grammar body (s.enter kind) t → Runs grammar (.node kind body) s (s.leave t)
  | seq {first second : Rule Goal} {s t u : State} :
    Runs grammar first s t → Runs grammar second t u → Runs grammar (.seq first second) s u
  | yes {test : Test} {yes no : Rule Goal} {s t : State} :
    test.holds s.last s.rest → Runs grammar yes s t → Runs grammar (.choose test yes no) s t
  | no {test : Test} {yes no : Rule Goal} {s t : State} :
    ¬test.holds s.last s.rest → Runs grammar no s t → Runs grammar (.choose test yes no) s t
  /-- The last round of a loop does not ask for another. -/
  | last {body : Rule Goal} {s t : State} :
    Runs grammar body { s with again := false } t → t.again = false → Runs grammar (.loop body) s t
  /-- A round that asks for another is followed by it. -/
  | round {body : Rule Goal} {s t u : State} :
    Runs grammar body { s with again := false } t → t.again = true →
      Runs grammar (.loop body) t u → Runs grammar (.loop body) s u
  | again (s : State) : Runs grammar .again s { s with again := true }
  | call {goal : Goal} {s t : State} :
    Runs grammar (grammar goal) s t → Runs grammar (.call goal) s t
  | opened {bracket : Bracket} {label : String} {goal : Goal} {s t : State} :
    currentKind s.rest = bracket.openingKind → Runs grammar (grammar goal) s.shift t →
      Runs grammar (.delimited bracket label goal) s (t.close bracket label s.contentStart)
  | unopened {bracket : Bracket} {label : String} {goal : Goal} {s : State} :
    currentKind s.rest ≠ bracket.openingKind → Runs grammar (.delimited bracket label goal) s s

namespace Runs

variable {rule : Rule Goal} {s t u : State}

/-- A run has no two outcomes. -/
theorem unique (first : Runs grammar rule s t) (second : Runs grammar rule s u) : t = u := by
  induction first generalizing u with
  | skip | shift | attach | recover | report | become | again =>
    cases second
    rfl
  | node _ inside =>
    cases second with
    | node body => rw [inside body]
  | seq _ _ before after =>
    cases second with
    | seq first second =>
      obtain rfl := before first
      exact after second
  | yes holds _ branch =>
    cases second with
    | yes _ taken => exact branch taken
    | no fails _ => exact absurd holds fails
  | no fails _ branch =>
    cases second with
    | yes holds _ => exact absurd holds fails
    | no _ taken => exact branch taken
  | last _ done body =>
    cases second with
    | last final _ => exact body final
    | round next more _ =>
      obtain rfl := body next
      rw [done] at more
      cases more
  | round _ more _ body later =>
    cases second with
    | last final done =>
      obtain rfl := body final
      rw [done] at more
      cases more
    | round next _ others =>
      obtain rfl := body next
      exact later others
  | call _ goal =>
    cases second with
    | call pursued => exact goal pursued
  | opened opening _ goal =>
    cases second with
    | opened _ pursued => rw [goal pursued]
    | unopened other => exact absurd opening other
  | unopened other =>
    cases second with
    | opened opening _ => exact absurd opening other
    | unopened _ => rfl

/-- Step laws do not depend on the bounds. -/
theorem obeys {R : State → State → Prop} (law : StepLaw R) (run : Runs grammar rule s t) :
    R s t := by
  induction run with
  | skip s => exact law.refl s
  | shift s => exact law.shift s
  | attach s => exact law.attach s
  | recover recovery s => exact law.recover s trivial
  | report complaint s => exact law.complain s trivial
  | become kind s => exact law.become s kind
  | node _ inside => exact law.node inside
  | seq _ _ before after => exact law.trans before after
  | yes _ _ branch => exact branch
  | no _ _ branch => exact branch
  | last _ _ body => exact law.trans (law.ask _ false) body
  | round _ _ _ body later => exact law.trans (law.trans (law.ask _ false) body) later
  | again s => exact law.ask s true
  | call _ goal => exact goal
  | opened opening _ goal => exact law.delimited _ opening goal
  | unopened _ => exact law.refl _

theorem advances (run : Runs grammar rule s t) : Advances s t :=
  run.obeys Advances.stepLaw

end Runs

namespace Rule

/-- The rule and the rules that it is made of. -/
def parts : Rule Goal → List (Rule Goal)
  | node kind body => node kind body :: body.parts
  | seq first second => seq first second :: (first.parts ++ second.parts)
  | choose test yes no => choose test yes no :: (yes.parts ++ no.parts)
  | loop body => loop body :: body.parts
  | rule => [rule]

def loops : Rule Goal → List (Rule Goal)
  | node _ body => body.loops
  | seq first second => first.loops ++ second.loops
  | choose _ yes no => yes.loops ++ no.loops
  | loop body => body :: body.loops
  | _ => []

theorem self_mem_parts (rule : Rule Goal) : rule ∈ rule.parts := by
  cases rule <;> exact List.mem_cons_self

/-- The loops of a part are loops of the whole. -/
theorem loops_subset_of_mem_parts {part whole : Rule Goal} (h : part ∈ whole.parts) :
    part.loops ⊆ whole.loops := by
  induction whole with
  | node kind body inside =>
    obtain rfl | h := List.mem_cons.mp h
    · exact List.Subset.refl _
    · exact inside h
  | seq first second before after =>
    obtain rfl | h := List.mem_cons.mp h
    · exact List.Subset.refl _
    obtain h | h := List.mem_append.mp h
    · exact List.subset_append_of_subset_left _ (before h)
    · exact List.subset_append_of_subset_right _ (after h)
  | choose test yes no left right =>
    obtain rfl | h := List.mem_cons.mp h
    · exact List.Subset.refl _
    obtain h | h := List.mem_append.mp h
    · exact List.subset_append_of_subset_left _ (left h)
    · exact List.subset_append_of_subset_right _ (right h)
  | loop body inside =>
    obtain rfl | h := List.mem_cons.mp h
    · exact List.Subset.refl _
    · exact List.subset_cons_of_subset _ (inside h)
  | _ =>
    obtain rfl := List.mem_singleton.mp h
    exact List.Subset.refl _

end Rule

/-- A round that asks for another takes a token. -/
def Pays (grammar : Goal → Rule Goal) (body : Rule Goal) : Prop :=
  ∀ s t : State, Runs grammar body { s with again := false } t → t.again = true →
    s.taken < t.taken

/-- A loop whose rounds pay comes to an end, because the tokens do. -/
theorem Runs.exists_loop {body : Rule Goal} (pays : Pays grammar body)
    (round : ∀ s, ∃ t, Runs grammar body s t) (s : State) :
    ∃ t, Runs grammar (.loop body) s t := by
  obtain ⟨t, first⟩ := round { s with again := false }
  cases more : t.again with
  | false => exact ⟨t, .last first more⟩
  | true =>
    have paid := pays s t first more
    have fewer : t.taken + t.rest.length = s.taken + s.rest.length :=
      first.advances.taken_add_length
    obtain ⟨u, later⟩ := exists_loop pays round t
    exact ⟨u, .round first more later⟩
termination_by s.rest.length
decreasing_by omega

/-- A rule comes to an end if its loops do and the goals that it pursues. -/
theorem Runs.exists_of_pays (goals : ∀ goal s, ∃ t, Runs grammar (grammar goal) s t)
    {rule : Rule Goal} (pays : ∀ body ∈ rule.loops, Pays grammar body) (s : State) :
    ∃ t, Runs grammar rule s t := by
  induction rule generalizing s with
  | skip => exact ⟨_, .skip s⟩
  | shift => exact ⟨_, .shift s⟩
  | attach => exact ⟨_, .attach s⟩
  | recover recovery => exact ⟨_, .recover recovery s⟩
  | report complaint => exact ⟨_, .report complaint s⟩
  | become kind => exact ⟨_, .become kind s⟩
  | node kind body inside =>
    obtain ⟨t, run⟩ := inside pays (s.enter kind)
    exact ⟨_, .node run⟩
  | seq first second before after =>
    rw [Rule.loops, List.forall_mem_append] at pays
    obtain ⟨t, earlier⟩ := before pays.1 s
    obtain ⟨u, later⟩ := after pays.2 t
    exact ⟨u, .seq earlier later⟩
  | choose test yes no left right =>
    rw [Rule.loops, List.forall_mem_append] at pays
    by_cases holds : test.holds s.last s.rest
    · obtain ⟨t, run⟩ := left pays.1 s
      exact ⟨t, .yes holds run⟩
    · obtain ⟨t, run⟩ := right pays.2 s
      exact ⟨t, .no holds run⟩
  | loop body round =>
    rw [Rule.loops, List.forall_mem_cons] at pays
    exact exists_loop pays.1 (round pays.2) s
  | again => exact ⟨_, .again s⟩
  | call goal =>
    obtain ⟨t, run⟩ := goals goal s
    exact ⟨t, .call run⟩
  | delimited bracket label goal =>
    by_cases opening : currentKind s.rest = bracket.openingKind
    · obtain ⟨t, run⟩ := goals goal s.shift
      exact ⟨_, .opened opening run⟩
    · exact ⟨s, .unopened opening⟩

end SwiftTree.Grammar
