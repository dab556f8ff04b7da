import SwiftTree.Proofs.Grammar.Silence
import SwiftTree.Proofs.Token.Nesting

/-!
# Brackets taken in silence

In a silent run every bracket that is opened is closed, and most rules take single tokens only where
these are no brackets. The generic requirements of a declaration are the exception: they go on past
a closing bracket that closes nothing. So the tokens taken in a silent run are nested, or else more
brackets are closed than opened and the surplus is found in the requirements.

Which tokens a rule may take one by one is checked without running it, from what tests tell about
the current token. The check leaves out the modifiers of a declaration. There a group of three
tokens is taken one by one after a look at all three.
-/

namespace SwiftTree

/-- The brackets in generic requirements are nested. -/
def Node.RequirementsNested (node : Node) : Prop :=
  node.kind? = some .genericWhereClause → Grammar.Nested node.leaves

theorem Node.requirementsNested_composite {kind : NodeKind} {children : List Node} :
    (composite kind children).RequirementsNested ↔
      (kind = .genericWhereClause → Grammar.Nested (leavesAll children)) := by
  rw [RequirementsNested, kind?, Option.some.injEq, leaves_composite]

namespace Grammar

open SwiftTree.Grammar.Bracket

/-- A token of the kind is no bracket. -/
def IsPlain (kind : TokenKind) : Prop :=
  openedBy? kind = none ∧ closedBy? kind = none

instance (kind : TokenKind) : Decidable (IsPlain kind) :=
  inferInstanceAs (Decidable (_ ∧ _))

namespace State

/-- The brackets in all generic requirements in the node that is being built are nested. -/
def RequirementsNested (s : State) : Prop :=
  ∀ child ∈ s.children.toList, child.Everywhere Node.RequirementsNested

theorem requirementsNested_push {s : State} {node : Node} :
    (s.push node).RequirementsNested ↔
      s.RequirementsNested ∧ node.Everywhere Node.RequirementsNested := by
  rw [RequirementsNested, push, Array.toList_push, List.forall_mem_append,
    List.forall_mem_singleton]
  rfl

theorem requirementsNested_take? {s t : State} {token : Token}
    (taken : s.take? = some (token, t)) : t.RequirementsNested ↔ s.RequirementsNested := by
  rw [RequirementsNested, take?_children taken]
  rfl

theorem requirementsNested_shift (s : State) :
    s.shift.RequirementsNested ↔ s.RequirementsNested := by
  unfold shift
  split
  · rename_i token t taken
    rw [requirementsNested_push, requirementsNested_take? taken, Node.everywhere_token]
    exact and_iff_left nofun
  · rfl

theorem requirementsNested_leave (s t : State) :
    (s.leave t).RequirementsNested ↔ s.RequirementsNested ∧
      (t.kind = .genericWhereClause → Nested (Node.leavesAll t.children.toList)) ∧
        t.RequirementsNested := by
  rw [← Node.requirementsNested_composite]
  unfold RequirementsNested
  rw [← Node.everywhere_composite, leave, Array.toList_push, List.forall_mem_append,
    List.forall_mem_singleton]

/-- A token that is no bracket may be added to requirements. -/
theorem requirementsNested_attach {s : State} (plain : IsPlain (currentKind s.rest)) :
    s.attach.RequirementsNested ↔ s.RequirementsNested := by
  unfold attach
  split
  · rfl
  · rename_i token t taken
    rw [← requirementsNested_take? taken]
    have leaf : (Node.token token).Everywhere Node.RequirementsNested :=
      (Node.everywhere_token token).mpr nofun
    have kind : IsPlain token.kind := by
      rw [(take?_eq_some taken).1] at plain
      exact plain
    split
    · rename_i last children back
      obtain ⟨before, equation⟩ := Array.back?_eq_some_iff.mp back
      unfold RequirementsNested
      rw [equation, Array.pop_push]
      simp only [Array.toList_push, List.forall_mem_append, List.forall_mem_singleton,
        Node.everywhere_composite, Node.requirementsNested_composite, Node.leavesAll_append,
        Node.leavesAll_cons, Node.leavesAll_nil, Node.leaves_token, List.append_nil,
        Nested.append_plain_iff kind.1 kind.2, leaf, and_true]
    · rw [requirementsNested_push, Node.everywhere_composite, List.forall_mem_singleton]
      exact and_iff_left ⟨nofun, leaf⟩

end State

/-- A stretch of parsing in which the tokens that are taken are nested, and so are those of the
requirements among them; or else it closes more brackets than it opens, and some requirements are to
blame, unless the stretch is a part of requirements itself. -/
def Nests (stray : Bool) (s t : State) : Prop :=
  ∃ tokens, Takes s tokens t ∧
    ((Nested tokens ∧ (t.RequirementsNested ↔ s.RequirementsNested)) ∨
      (Excess tokens ∧ (stray ∨ ¬t.RequirementsNested)))

namespace Nests

variable {stray : Bool} {s t u : State}

theorem of_same (rest : t.rest = s.rest) (last : t.last = s.last) (taken : t.taken = s.taken)
    (children : t.children = s.children) : Nests stray s t := by
  refine ⟨[], ⟨rest.symm, by rw [children, List.append_nil], taken, last, nofun⟩, .inl ⟨rfl, ?_⟩⟩
  rw [State.RequirementsNested, children]
  rfl

theorem refl (stray : Bool) (s : State) : Nests stray s s :=
  of_same rfl rfl rfl rfl

theorem trans (first : Nests stray s t) (second : Nests stray t u) : Nests stray s u := by
  obtain ⟨as, before, ⟨nested, same⟩ | ⟨excess, blame⟩⟩ := first
  · obtain ⟨bs, after, ⟨nested', same'⟩ | ⟨excess', blame'⟩⟩ := second
    · exact ⟨as ++ bs, before.trans after, .inl ⟨nested.append nested', same'.trans same⟩⟩
    · exact ⟨as ++ bs, before.trans after,
        .inr ⟨excess'.append_right (Nat.le_of_eq nested.count_eq), blame'⟩⟩
  · obtain ⟨bs, after, ⟨nested', same'⟩ | ⟨excess', blame'⟩⟩ := second
    · exact ⟨as ++ bs, before.trans after,
        .inr ⟨excess.append_left (Nat.le_of_eq nested'.count_eq), blame.imp_right (mt same'.mp)⟩⟩
    · exact ⟨as ++ bs, before.trans after,
        .inr ⟨excess.append_left (Nat.le_of_lt excess'), blame'⟩⟩

/-- Requirements may be to blame wherever they are. -/
theorem mono (h : Nests false s t) (stray : Bool) : Nests stray s t := by
  obtain ⟨tokens, takes, nested | ⟨excess, blame⟩⟩ := h
  · exact ⟨tokens, takes, .inl nested⟩
  · exact ⟨tokens, takes, .inr ⟨excess, .inr (blame.resolve_left Bool.false_ne_true)⟩⟩

/-- The token that is taken has the kind of the current token. -/
theorem kind_of_takes {token : Token} (h : Takes s [token] t) :
    currentKind s.rest = token.kind := by
  rw [h.rest]
  rfl

/-- A closing bracket that is taken by itself has gone astray. -/
theorem shift (h : openedBy? (currentKind s.rest) = none)
    (closes : stray ∨ closedBy? (currentKind s.rest) = none) : Nests stray s s.shift := by
  by_cases atEnd : s.AtEnd
  · rw [State.shift_of_atEnd atEnd]
    exact refl stray s
  · obtain ⟨token, takes⟩ := State.takes_shift atEnd
    rw [kind_of_takes takes] at h closes
    cases closed : closedBy? token.kind with
    | none => exact ⟨[token], takes, .inl ⟨.plain h closed, s.requirementsNested_shift⟩⟩
    | some bracket =>
      have excess : Excess [token] := by
        rw [Excess, openings_singleton, closings_singleton, h, closed]
        exact Nat.zero_lt_one
      rw [closed] at closes
      exact ⟨[token], takes, .inr ⟨excess, .inl (closes.resolve_right nofun)⟩⟩

theorem attach (plain : IsPlain (currentKind s.rest)) : Nests stray s s.attach := by
  by_cases atEnd : s.AtEnd
  · rw [State.attach_of_atEnd atEnd]
    exact refl stray s
  · obtain ⟨token, takes⟩ := State.takes_attach atEnd
    refine ⟨[token], takes, .inl ⟨?_, State.requirementsNested_attach plain⟩⟩
    rw [kind_of_takes takes] at plain
    exact .plain plain.1 plain.2

/-- What stands between a pair of brackets. -/
theorem enclose {bracket : Bracket} (opening : currentKind s.rest = bracket.openingKind)
    (inside : Nests false s.shift t) (closing : currentKind t.rest = bracket.closingKind) :
    Nests stray s t.shift := by
  obtain ⟨first, before⟩ := State.takes_shift (State.not_atEnd_of_opening opening)
  obtain ⟨last, after⟩ := State.takes_shift (State.not_atEnd_of_closing closing)
  obtain ⟨tokens, takes, nested⟩ := inside
  rw [kind_of_takes before] at opening
  rw [kind_of_takes after] at closing
  refine ⟨[first] ++ (tokens ++ [last]), before.trans (takes.trans after), ?_⟩
  rw [t.requirementsNested_shift]
  obtain ⟨nested, same⟩ | ⟨excess, blame⟩ := nested
  · exact .inl ⟨nested.enclose opening closing, same.trans s.requirementsNested_shift⟩
  · exact .inr ⟨excess.enclose opening closing, .inr (blame.resolve_left Bool.false_ne_true)⟩

/-- In silence, a bracket that has been opened is closed. -/
theorem delimited {bracket : Bracket} (opening : currentKind s.rest = bracket.openingKind)
    (inside : Silently (Nests false) s.shift t) (label : String) (openedAt : Nat) :
    Silently (Nests stray) s (t.close bracket label openedAt) := by
  have opened : Silently (fun _ _ => True) s s.shift := .of_same s.reports_shift trivial
  have shut : Silently (fun t u => currentKind t.rest = bracket.closingKind ∧ u = t.shift)
      t (t.close bracket label openedAt) := .close (fun closing => ⟨closing, rfl⟩) label openedAt
  have enclosed : Silently (fun _ u => Nests stray s u) s.shift
      (t.close bracket label openedAt) := by
    refine inside.trans shut ?_
    rintro inside ⟨closing, same⟩
    rw [same]
    exact inside.enclose opening closing
  exact opened.trans enclosed fun _ nests => nests

/-- A node that has been built. If it holds requirements, it is to blame for what went astray in
it. -/
theorem node {kind : NodeKind} (inside : Nests (kind == .genericWhereClause) (s.enter kind) t)
    (settled : t.kind = .genericWhereClause ↔ kind = .genericWhereClause) :
    Nests stray s (s.leave t) := by
  obtain ⟨tokens, takes, nested⟩ := inside
  have leaves : Node.leavesAll t.children.toList = tokens := takes.leaves
  have fresh : (s.enter kind).RequirementsNested := nofun
  refine ⟨tokens, takes.leave, ?_⟩
  rw [s.requirementsNested_leave t, leaves]
  obtain ⟨nested, same⟩ | ⟨excess, blame⟩ := nested
  · exact .inl ⟨nested, and_iff_left ⟨fun _ => nested, same.mpr fresh⟩⟩
  · refine .inr ⟨excess, .inr ?_⟩
    rintro ⟨-, own, below⟩
    obtain here | other := blame
    · exact (own (settled.mpr (beq_iff_eq.mp here))).not_excess excess
    · exact other below

/-- A loop nests what it takes if each of its rounds does. -/
theorem iterate {step : State → State} (steps : ∀ s, Silently (Nests stray) s (step s))
    (rounds : Nat) (s : State) : Silently (Nests stray) s (iterate step rounds s) :=
  iterate_of_steps (fun s => .of_same rfl (refl stray s)) (fun one two => one.trans two trans)
    (fun _ _ => .of_same rfl (of_same rfl rfl rfl rfl)) steps rounds s

end Nests

/-- The kinds that the current token may have where a goal is pursued. -/
def Goal.expects : Goal → List TokenKind
  | .conditional => [.keyword]
  | _ => TokenKind.all

namespace Rule

/-- The lists of modifiers that the rule builds by itself. -/
def modifierLists : Rule Goal → List (Rule Goal)
  | node kind body =>
    if kind = .declModifierList then [node kind body] else body.modifierLists
  | seq first second => first.modifierLists ++ second.modifierLists
  | choose _ yes no => yes.modifierLists ++ no.modifierLists
  | loop body => body.modifierLists
  | _ => []

/-- Whether the rule takes single tokens in silence only where they are no brackets, if the current
token has one of some kinds. Inside of requirements, closing brackets may go astray. Lists of
modifiers are not looked at. -/
def nests (stray : Bool) (known : List TokenKind) : Rule Goal → Bool
  | shift => known.all fun kind =>
    (openedBy? kind).isNone && (stray || (closedBy? kind).isNone)
  | attach => known.all fun kind => IsPlain kind
  | node kind body =>
    kind == .declModifierList ||
      ((body.outcomes kind).all fun settled =>
        (settled == .genericWhereClause) == (kind == .genericWhereClause)) &&
        body.nests (kind == .genericWhereClause) known
  | seq first second =>
    first.loud || (first.nests stray known && second.nests stray (first.onward known))
  | choose test yes no =>
    yes.nests stray (test.narrow true known) && no.nests stray (test.narrow false known)
  | loop body => body.nests stray TokenKind.all
  | call goal => known.all goal.expects.contains
  | delimited _ _ goal => TokenKind.all.all goal.expects.contains
  | _ => true

/-- A rule that passes the check nests what it takes in silence, if the goals that it pursues and
the modifiers in it do. -/
theorem nests_run {pursue : Goal → State → State}
    (grows : ∀ goal s, s.reports.size ≤ (pursue goal s).reports.size)
    (builds : ∀ goal s, Builds .parts [] s (pursue goal s))
    (goals : ∀ goal s, currentKind s.rest ∈ goal.expects →
      Silently (Nests false) s (pursue goal s)) (bound base : Nat)
    {rule : Rule Goal}
    (modifiers : ∀ part ∈ rule.modifierLists, ∀ s,
      Silently (Nests false) s (part.run pursue bound base s))
    {holding : Holding} (fits : rule.fits holding) {stray : Bool} {known : List TokenKind}
    (h : rule.nests stray known) {s : State} (current : currentKind s.rest ∈ known) :
    Silently (Nests stray) s (rule.run pursue bound base s) := by
  induction rule generalizing holding stray known s with
  | skip => exact .of_same rfl (.refl _ s)
  | shift =>
    have stands := List.all_eq_true.mp h _ current
    rw [Bool.and_eq_true, Bool.or_eq_true, Option.isNone_iff_eq_none,
      Option.isNone_iff_eq_none] at stands
    exact .of_same s.reports_shift (.shift stands.1 stands.2)
  | attach =>
    exact .of_same s.reports_attach (.attach (of_decide_eq_true (List.all_eq_true.mp h _ current)))
  | recover recovery => exact .recover (.refl _ s) recovery
  | report complaint => exact .of_lt (s.lt_reports_say _)
  | become kind => exact .of_same rfl (.of_same rfl rfl rfl rfl)
  | node kind body inside =>
    rw [Rule.fits, Bool.and_eq_true] at fits
    by_cases list : kind = .declModifierList
    · have part := modifiers (.node kind body) (by simp [modifierLists, list]) s
      exact part.mono fun nests => nests.mono stray
    · have others : ∀ part ∈ body.modifierLists, ∀ s,
          Silently (Nests false) s (part.run pursue bound base s) := by
        rwa [modifierLists, if_neg list] at modifiers
      rw [nests, Bool.or_eq_true, Bool.and_eq_true, List.all_eq_true] at h
      obtain ⟨settles, h⟩ := h.resolve_left (by simp [list])
      have inner := inside others fits.2 h current (s := s.enter kind)
      refine ⟨inner.grows, fun silent => ?_⟩
      have settled := settles _ (mem_outcomes grows builds bound base fits.2 silent)
      exact (inner.silent silent).node (by simpa using settled)
  | seq first second before after =>
    rw [Rule.fits, Bool.and_eq_true] at fits
    rw [modifierLists, List.forall_mem_append] at modifiers
    rw [nests, Bool.or_eq_true, Bool.and_eq_true] at h
    obtain loud | h := h
    · -- Whatever comes after a report, the run is not silent.
      have whole : (seq first second).loud := by simp [Rule.loud, loud]
      exact .of_lt (lt_reports_of_loud grows bound base whole s)
    · exact (before modifiers.1 fits.1 h.1 current).trans
        (after modifiers.2 fits.2 h.2 (mem_onward current bound base)) Nests.trans
  | choose test yes no left right =>
    rw [Rule.fits, Bool.and_eq_true] at fits
    rw [modifierLists, List.forall_mem_append] at modifiers
    rw [nests, Bool.and_eq_true] at h
    unfold run
    split
    · rename_i holds
      exact left modifiers.1 fits.1 h.1 (Test.mem_narrow current holds)
    · rename_i fails
      exact right modifiers.2 fits.2 h.2 (Test.mem_narrow current (Bool.eq_false_iff.mpr fails))
  | loop body round =>
    exact Nests.iterate (fun s => round modifiers fits h (mem_all_tokenKinds _)) bound s
  | again => exact .of_same rfl (.of_same rfl rfl rfl rfl)
  | call goal =>
    unfold run
    split
    · have expected := List.contains_iff_mem.mp (List.all_eq_true.mp h _ current)
      exact (goals goal s expected).mono fun nests => nests.mono stray
    · exact .of_same rfl (.refl _ s)
  | delimited bracket label goal =>
    unfold run
    split
    · rename_i opening
      have expected := List.contains_iff_mem.mp
        (List.all_eq_true.mp h (currentKind s.shift.rest) (mem_all_tokenKinds _))
      exact Nests.delimited opening (goals goal s.shift expected) label _
    · exact .of_same rfl (.refl _ s)

end Rule

theorem nests_swift (goal : Goal) : (swift goal).nests false goal.expects := by
  cases goal with
  | items context owner => cases context <;> rfl
  | group label => rfl
  | angles label => rfl
  | parameters => rfl
  | cases => rfl
  | conditional => rfl

theorem modifierLists_swift (goal : Goal) :
    ∀ part ∈ (swift goal).modifierLists, part = Rule.modifiers := by
  cases goal with
  | items context owner => cases context <;> exact List.forall_mem_singleton.mpr rfl
  | _ => exact nofun

/-- Taking a token leaves the others. -/
theorem State.rest_shift {s : State} {token : Token} {later : List Token}
    (h : s.rest = token :: later) (inner : token.kind ≠ .endOfFile) : s.shift.rest = later := by
  have ahead : ¬s.AtEnd := by
    rw [AtEnd, h]
    exact inner
  obtain ⟨first, takes⟩ := takes_shift ahead
  have rest := takes.rest
  rw [h, List.singleton_append] at rest
  exact (List.cons.inj rest).2.symm

/-- A word in parentheses is ahead. -/
def Test.argument : Test :=
  .kind .leftParen &&& .ahead 1 (.kind .identifier) &&& .ahead 2 (.kind .rightParen)

/-- The three tokens are there: of fewer, one would have to be of two kinds. -/
theorem Test.exists_of_argument {last : Option Token} {rest : List Token}
    (h : argument.holds last rest) :
    ∃ first second third later, rest = first :: second :: third :: later ∧
      first.kind = .leftParen ∧ second.kind = .identifier ∧ third.kind = .rightParen := by
  simp only [argument, holds_and, Bool.and_eq_true, holds_kind] at h
  obtain ⟨⟨opening, word⟩, closing⟩ := h
  cases rest with
  | nil => cases opening
  | cons first rest =>
    cases rest with
    | nil =>
      have other : first.kind = .identifier := (holds_kind _ last _).mp word
      cases opening.symm.trans other
    | cons second rest =>
      have inner : second.kind = .identifier := (holds_kind _ (some first) _).mp word
      cases rest with
      | nil =>
        have other : second.kind = .rightParen := (holds_kind _ (some first) _).mp closing
        cases inner.symm.trans other
      | cons third later =>
        exact ⟨first, second, third, later, rfl, opening, inner,
          (holds_kind _ (some second) _).mp closing⟩

/-- All three tokens of an argument have been seen before the first of them is taken. -/
theorem Nests.argument {stray : Bool} {s : State} (h : Test.argument.holds s.last s.rest) :
    Nests stray s s.shift.shift.shift := by
  obtain ⟨first, second, third, later, rest, opening, word, closing⟩ := Test.exists_of_argument h
  have after : s.shift.rest = second :: third :: later :=
    s.rest_shift rest (by rw [opening]; exact nofun)
  have next : s.shift.shift.rest = third :: later :=
    s.shift.rest_shift after (by rw [word]; exact nofun)
  have plain : currentKind s.shift.rest = .identifier := by
    rw [after]
    exact word
  have inside : Nests false s.shift s.shift.shift :=
    .shift (by rw [plain]; rfl) (.inr (by rw [plain]; rfl))
  have opens : currentKind s.rest = Bracket.openingKind .paren := by
    rw [rest]
    exact opening
  have closes : currentKind s.shift.shift.rest = Bracket.closingKind .paren := by
    rw [next]
    exact closing
  exact inside.enclose opens closes

namespace Rule

theorem nests_argument (pursue : Goal → State → State) (bound base : Nat) (s : State) :
    Silently (Nests false) s
      ((Rule.when .argument (.steps [.shift, .shift, .shift])).run pursue bound base s) := by
  unfold Rule.when run
  split
  · rename_i holds
    have same : s.shift.shift.shift.reports = s.reports := by
      rw [State.reports_shift, State.reports_shift, State.reports_shift]
    exact .of_same same (.argument holds)
  · exact .of_same rfl (.refl _ s)

/-- A modifier with its argument. -/
theorem nests_modifier (pursue : Goal → State → State) (bound base : Nat) (s : State) :
    Silently (Nests false) s
      ((Rule.when .modifier (.seq (.steps [.shift,
        .when .argument (.steps [.shift, .shift, .shift])]) .again)).run pursue bound base s) := by
  unfold Rule.when run
  split
  · rename_i holds
    have word : currentKind s.rest ∈ [TokenKind.keyword] :=
      Test.mem_narrow (mem_all_tokenKinds _) holds
    rw [List.mem_singleton] at word
    have plain : Nests false s s.shift := .shift (by rw [word]; rfl) (.inr (by rw [word]; rfl))
    have taken : Silently (Nests false) s s.shift := .of_same s.reports_shift plain
    have both := taken.trans (nests_argument pursue bound base s.shift) Nests.trans
    exact both.trans (.of_same rfl (.of_same rfl rfl rfl rfl)) Nests.trans
  · exact .of_same rfl (.refl _ s)

theorem nests_modifiers {pursue : Goal → State → State}
    (grows : ∀ goal s, s.reports.size ≤ (pursue goal s).reports.size)
    (builds : ∀ goal s, Builds .parts [] s (pursue goal s)) (bound base : Nat) (s : State) :
    Silently (Nests false) s (modifiers.run pursue bound base s) := by
  let body : Rule Goal := .while_ .modifier <|
    .steps [.shift, .when .argument (.steps [.shift, .shift, .shift])]
  have inner : Silently (Nests false) (s.enter .declModifierList)
      (body.run pursue bound base (s.enter .declModifierList)) :=
    Nests.iterate (nests_modifier pursue bound base) bound _
  refine ⟨inner.grows, fun silent => (inner.silent silent).node ?_⟩
  have fits : body.fits (NodeKind.holding .declModifierList) := rfl
  have settled : (body.run pursue bound base (s.enter .declModifierList)).kind ∈
      [NodeKind.declModifierList] := mem_outcomes grows builds bound base fits silent
  rw [List.mem_singleton.mp settled]

end Rule

theorem nests_pursue (levels : Nat) (goal : Goal) {s : State}
    (current : currentKind s.rest ∈ goal.expects) :
    Silently (Nests false) s (pursue swift levels goal s) := by
  induction levels generalizing goal s with
  | zero => exact .of_same rfl (.refl _ s)
  | succ levels ih =>
    have grows := reports_stepLaw.pursue swift levels
    have modifiers : ∀ part ∈ (swift goal).modifierLists, ∀ t,
        Silently (Nests false) t (part.run (pursue swift levels) (levels + 1) s.taken t) := by
      intro part member t
      rw [modifierLists_swift goal part member]
      exact Rule.nests_modifiers grows (builds_pursue levels) (levels + 1) s.taken t
    exact Rule.nests_run grows (builds_pursue levels) (fun goal _ => ih goal) (levels + 1) s.taken
      modifiers (fits_swift goal) (nests_swift goal) current

end Grammar

end SwiftTree
