import SwiftTree.Proofs.Grammar.Items
import SwiftTree.Proofs.Grammar.Placement

/-!
# Silent stretches of parsing

Reports are never taken back, so a run in which nothing is reported is made of steps in which
nothing is reported: no complaint is made, no token is set aside, and every bracket that is opened
is closed. What such a run does is known better than what runs do in general.

Some of it is seen from the rule alone. A rule that always reports something has no silent runs. The
kind of the current token is known where a test has been passed. And a node that is begun with one
kind has another one in the end if every silent run settles it.
-/

namespace SwiftTree.Grammar

/-- A stretch of parsing that does something in particular unless something is reported. -/
structure Silently (R : State → State → Prop) (s t : State) : Prop where
  grows : s.reports.size ≤ t.reports.size
  silent : t.reports.size = s.reports.size → R s t

namespace Silently

variable {R Q : State → State → Prop} {s t u : State}

theorem of_same (same : t.reports = s.reports) (h : R s t) : Silently R s t :=
  ⟨Nat.le_of_eq (by rw [same]), fun _ => h⟩

/-- Nothing is said about a stretch in which something is reported. -/
theorem of_lt (h : s.reports.size < t.reports.size) : Silently R s t :=
  ⟨Nat.le_of_lt h, fun same => absurd same (Nat.ne_of_gt h)⟩

theorem mono (h : Silently R s t) (weaker : R s t → Q s t) : Silently Q s t :=
  ⟨h.grows, fun same => weaker (h.silent same)⟩

/-- Both parts of a silent stretch are silent. -/
theorem trans {P : State → State → Prop} (first : Silently R s t) (second : Silently Q t u)
    (compose : R s t → Q t u → P s u) : Silently P s u := by
  refine ⟨Nat.le_trans first.grows second.grows, ?_⟩
  intro same
  have before := first.grows
  have after := second.grows
  exact compose (first.silent (by omega)) (second.silent (by omega))

end Silently

namespace State

theorem reports_shift (s : State) : s.shift.reports = s.reports := by
  unfold shift
  split
  · rename_i token t taken
    obtain ⟨-, -, same⟩ := take?_eq_some taken
    rw [same]
    rfl
  · rfl

theorem reports_attach (s : State) : s.attach.reports = s.reports := by
  unfold attach
  split
  · rfl
  · rename_i token t taken
    obtain ⟨-, -, same⟩ := take?_eq_some taken
    split
    · rw [same]
    · rw [same]
      rfl

theorem reports_shiftMany (count : Nat) (s : State) :
    (shiftMany count s).reports = s.reports := by
  induction count generalizing s with
  | zero => rfl
  | succ count ih => rw [shiftMany, ih, reports_shift]

theorem lt_reports_say (s : State) (report : Report) :
    s.reports.size < (s.say report).reports.size := by
  rw [say, Array.size_push]
  exact Nat.lt_succ_self _

/-- Tokens are never set aside in silence. -/
theorem recover_cases (s : State) (recovery : Recovery) :
    s.recover recovery = s ∨ s.reports.size < (s.recover recovery).reports.size := by
  unfold recover
  split
  · exact .inl rfl
  · rename_i count _
    have kept : (s.leave (shiftMany (count + 1) (s.enter .unexpectedNodes))).reports = s.reports :=
      reports_shiftMany (count + 1) (s.enter .unexpectedNodes)
    right
    rw [← kept]
    exact lt_reports_say _ _

/-- A bracket is closed, or said to be open. -/
theorem close_cases (s : State) (bracket : Bracket) (label : String) (openedAt : Nat) :
    (currentKind s.rest = bracket.closingKind ∧ s.close bracket label openedAt = s.shift) ∨
      s.reports.size < (s.close bracket label openedAt).reports.size := by
  unfold close
  split
  · rename_i closing
    exact .inl ⟨closing, rfl⟩
  · exact .inr (lt_reports_say _ _)

end State

namespace Silently

variable {R : State → State → Prop}

theorem recover {s : State} (refl : R s s) (recovery : Recovery) :
    Silently R s (s.recover recovery) := by
  obtain same | more := s.recover_cases recovery
  · rw [same]
    exact of_same rfl refl
  · exact of_lt more

theorem close {s : State} {bracket : Bracket}
    (shut : currentKind s.rest = bracket.closingKind → R s s.shift) (label : String)
    (openedAt : Nat) : Silently R s (s.close bracket label openedAt) := by
  obtain ⟨closing, same⟩ | more := s.close_cases bracket label openedAt
  · rw [same]
    exact of_same s.reports_shift (shut closing)
  · exact of_lt more

end Silently

/-- Reports are never taken back. -/
theorem reports_stepLaw : StepLaw fun s t => s.reports.size ≤ t.reports.size where
  refl _ := Nat.le_refl _
  trans := Nat.le_trans
  shift s := Nat.le_of_eq (by rw [s.reports_shift])
  attach s := Nat.le_of_eq (by rw [s.reports_attach])
  recover s recovery _ := (Silently.recover (R := fun _ _ => True) trivial recovery).grows
  complain s _ _ := Nat.le_of_lt (s.lt_reports_say _)
  delimited {s inner bracket} label _ inside := by
    rw [s.reports_shift] at inside
    have shut : Silently (fun _ _ => True) inner (inner.close bracket label s.contentStart) :=
      .close (fun _ => trivial) label _
    exact Nat.le_trans inside shut.grows
  become _ _ := Nat.le_refl _
  ask _ _ := Nat.le_refl _
  node inside := inside

theorem mem_all_tokenKinds (kind : TokenKind) : kind ∈ TokenKind.all := by
  cases kind <;> decide

namespace Test

/-- Whether a test may give an answer where the current token has some kind. -/
def admits : Test → Bool → TokenKind → Bool
  | kindIn kinds, answer, kind => kinds.contains kind == answer
  | keywordIn _, true, kind => kind == .keyword
  | declarationStart _, true, kind => kind == .atSign || kind == .keyword
  | not test, answer, kind => test.admits (!answer) kind
  | and first second, true, kind => first.admits true kind && second.admits true kind
  | and first second, false, kind => first.admits false kind || second.admits false kind
  | or first second, true, kind => first.admits true kind || second.admits true kind
  | or first second, false, kind => first.admits false kind && second.admits false kind
  | _, _, _ => true

/-- A declaration begins with an attribute or with a keyword. -/
theorem currentKind_of_startsDeclaration {amongMembers : Bool} {rest : List Token}
    (h : startsDeclaration amongMembers rest) :
    currentKind rest = .atSign ∨ currentKind rest = .keyword := by
  cases rest with
  | nil => cases h
  | cons token rest =>
    unfold startsDeclaration startsDeclarationAfter at h
    split at h
    · rename_i kind
      exact .inl kind
    · rename_i kind
      exact .inr kind
    · cases h

/-- Every answer of a test is one that it may give. -/
theorem admits_holds (test : Test) (last : Option Token) (rest : List Token) :
    test.admits (test.holds last rest) (currentKind rest) := by
  induction test with
  | kindIn kinds => simp [admits, holds]
  | keywordIn words =>
    cases answer : (keywordIn words).holds last rest with
    | false => rfl
    | true => exact beq_iff_eq.mpr (currentKind_of_keywordIn answer)
  | declarationStart amongMembers =>
    cases answer : (declarationStart amongMembers).holds last rest with
    | false => rfl
    | true => simpa [admits] using currentKind_of_startsDeclaration answer
  | not test ih => simpa [admits, holds] using ih
  | and first second left right =>
    cases a : first.holds last rest <;> cases b : second.holds last rest <;>
      simp_all [admits, holds]
  | or first second left right =>
    cases a : first.holds last rest <;> cases b : second.holds last rest <;>
      simp_all [admits, holds]
  | text content => rfl
  | lastIn kinds => rfl
  | lineStart => rfl
  | glued => rfl
  | ahead count test => rfl

/-- The kinds that the current token may have after a test has given an answer. -/
def narrow (test : Test) (answer : Bool) (known : List TokenKind) : List TokenKind :=
  known.filter (test.admits answer)

theorem mem_narrow {test : Test} {answer : Bool} {known : List TokenKind} {last : Option Token}
    {rest : List Token} (current : currentKind rest ∈ known) (h : test.holds last rest = answer) :
    currentKind rest ∈ test.narrow answer known :=
  List.mem_filter.mpr ⟨current, h ▸ test.admits_holds last rest⟩

end Test

namespace Rule

variable {Goal : Type} {pursue : Goal → State → State}

/-- Whether the rule stays at the current token. -/
def stays : Rule Goal → Bool
  | skip | report _ | become _ | again => true
  | _ => false

/-- The kinds that the current token may have after the rule. -/
def onward (rule : Rule Goal) (known : List TokenKind) : List TokenKind :=
  if rule.stays then known else TokenKind.all

theorem mem_onward {rule : Rule Goal} {known : List TokenKind} {s : State}
    (current : currentKind s.rest ∈ known) (bound base : Nat) :
    currentKind (rule.run pursue bound base s).rest ∈ rule.onward known := by
  unfold onward
  split
  · rename_i stays
    cases rule with
    | skip => exact current
    | report complaint => exact current
    | become kind => exact current
    | again => exact current
    | _ => cases stays
  · exact mem_all_tokenKinds _

/-- Whether the rule reports something in any case. -/
def loud : Rule Goal → Bool
  | report _ => true
  | node _ body => body.loud
  | seq first second => first.loud || second.loud
  | choose _ yes no => yes.loud && no.loud
  | _ => false

theorem lt_reports_of_loud (goals : ∀ goal s, s.reports.size ≤ (pursue goal s).reports.size)
    (bound base : Nat) {rule : Rule Goal} (h : rule.loud) (s : State) :
    s.reports.size < (rule.run pursue bound base s).reports.size := by
  induction rule generalizing s with
  | report complaint => exact s.lt_reports_say _
  | node kind body inside => exact inside h (s.enter kind)
  | seq first second before after =>
    have start := reports_stepLaw.run goals bound base first s
    have rest := reports_stepLaw.run goals bound base second (first.run pursue bound base s)
    rw [loud, Bool.or_eq_true] at h
    obtain h | h := h
    · exact Nat.lt_of_lt_of_le (before h s) rest
    · exact Nat.lt_of_le_of_lt start (after h _)
  | choose test yes no left right =>
    rw [loud, Bool.and_eq_true] at h
    unfold run
    split
    · exact left h.1 s
    · exact right h.2 s
  | _ => cases h

/-- Whether every silent run of the rule settles the kind of the node that is being built. -/
def settles : Rule Goal → Bool
  | report _ => true
  | become _ => true
  | seq first second => first.settles || second.settles
  | choose _ yes no => yes.settles && no.settles
  | _ => false

/-- A kind that has been settled may be settled again, but does not come undone. -/
theorem mem_becomes_of_settles (goals : ∀ goal s, s.reports.size ≤ (pursue goal s).reports.size)
    (builds : ∀ goal s, Builds .parts [] s (pursue goal s)) (bound base : Nat) {rule : Rule Goal}
    {holding : Holding} (fits : rule.fits holding) (h : rule.settles) {s : State}
    (placed : s.Placed holding)
    (silent : (rule.run pursue bound base s).reports.size = s.reports.size) :
    (rule.run pursue bound base s).kind ∈ rule.becomes := by
  induction rule generalizing s with
  | report complaint => exact absurd silent (Nat.ne_of_gt (s.lt_reports_say _))
  | become kind => exact List.mem_singleton.mpr rfl
  | seq first second before after =>
    rw [Rule.fits, Bool.and_eq_true] at fits
    rw [settles, Bool.or_eq_true] at h
    rw [run] at silent ⊢
    have start := reports_stepLaw.run goals bound base first s
    have rest := reports_stepLaw.run goals bound base second (first.run pursue bound base s)
    obtain ⟨middle, -⟩ := builds_run builds bound base fits.1 s placed
    rw [becomes, List.mem_append]
    obtain h | h := h
    · have settled := before fits.1 h placed (by omega)
      obtain ⟨-, same | other⟩ := builds_run builds bound base fits.2 _ middle
      · rw [same]
        exact .inl settled
      · exact .inr other
    · exact .inr (after fits.2 h middle (by omega))
  | choose test yes no left right =>
    rw [Rule.fits, Bool.and_eq_true] at fits
    rw [settles, Bool.and_eq_true] at h
    rw [becomes, List.mem_append]
    unfold run at silent ⊢
    split at silent
    · rename_i holds
      rw [if_pos holds]
      exact .inl (left fits.1 h.1 placed silent)
    · rename_i fails
      rw [if_neg fails]
      exact .inr (right fits.2 h.2 placed silent)
  | _ => cases h

/-- The kinds that a node begun with a kind may have after a silent run of its rule. -/
def outcomes (kind : NodeKind) (body : Rule Goal) : List NodeKind :=
  if body.settles then body.becomes else kind :: body.becomes

theorem mem_outcomes (goals : ∀ goal s, s.reports.size ≤ (pursue goal s).reports.size)
    (builds : ∀ goal s, Builds .parts [] s (pursue goal s)) (bound base : Nat) {body : Rule Goal}
    {kind : NodeKind} (fits : body.fits kind.holding) {s : State}
    (silent : (body.run pursue bound base (s.enter kind)).reports.size = s.reports.size) :
    (body.run pursue bound base (s.enter kind)).kind ∈ body.outcomes kind := by
  have placed := State.Placed.enter s kind
  unfold outcomes
  split
  · rename_i settles
    exact mem_becomes_of_settles goals builds bound base fits settles placed silent
  · obtain ⟨-, same | other⟩ := builds_run builds bound base fits _ placed
    · rw [same]
      exact List.mem_cons_self
    · exact List.mem_cons_of_mem _ other

end Rule

end SwiftTree.Grammar
