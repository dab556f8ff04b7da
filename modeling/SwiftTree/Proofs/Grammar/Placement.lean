import SwiftTree.Proofs.Node.Placement

/-!
# Rules that keep nodes in their places

Whether a rule can put a node where it may not stand is seen from the rule without running it. A
rule is run inside of some node, and all that matters of that node is what it holds; a goal is
pursued only inside of nodes that hold parts. The kind of a node may be settled only while it is
being built, so the kinds that it may take are collected from the rule.

The check is made for each goal of the Swift grammar, and the induction over rules shows that it
suffices.
-/

namespace SwiftTree.Grammar

namespace Rule

variable {Goal : Type}

/-- The kinds that the node which is being built may be given by the rule. -/
def becomes : Rule Goal → List NodeKind
  | become kind => [kind]
  | seq first second => first.becomes ++ second.becomes
  | choose _ yes no => yes.becomes ++ no.becomes
  | loop body => body.becomes
  | _ => []

/-- Whether the rule puts nodes only where they may stand, if it is run inside of a node that holds
the given sort of children. -/
def fits (holding : Holding) : Rule Goal → Bool
  | skip | report _ | again => true
  | shift | call _ | delimited _ _ _ => holding == .parts
  | attach => holding == .codeItems || holding == .members
  | recover _ => holding.admitsKind .unexpectedNodes
  | become kind => kind.holding == holding
  | node kind body =>
    ((kind :: body.becomes).all fun kind => holding.admitsKind kind) && body.fits kind.holding
  | seq first second => first.fits holding && second.fits holding
  | choose _ yes no => yes.fits holding && no.fits holding
  | loop body => body.fits holding

end Rule

namespace State

/-- All children of the node that is being built may stand there. -/
structure Placed (holding : Holding) (s : State) : Prop where
  kind : s.kind.holding = holding
  admitted : ∀ child ∈ s.children.toList, holding.admits child
  placed : ∀ child ∈ s.children.toList, child.Placed

namespace Placed

variable {holding : Holding} {s t : State}

theorem push (h : s.Placed holding) {node : Node} (admitted : holding.admits node)
    (placed : node.Placed) : (s.push node).Placed holding where
  kind := h.kind
  admitted := by
    simp only [State.push, Array.toList_push, List.forall_mem_append, List.forall_mem_singleton]
    exact ⟨h.admitted, admitted⟩
  placed := by
    simp only [State.push, Array.toList_push, List.forall_mem_append, List.forall_mem_singleton]
    exact ⟨h.placed, placed⟩

theorem enter (s : State) (kind : NodeKind) : (s.enter kind).Placed kind.holding :=
  ⟨rfl, nofun, nofun⟩

theorem leave (outer : s.Placed holding) (inner : t.Placed t.kind.holding)
    (admitted : holding.admitsKind t.kind) : (s.leave t).Placed holding := by
  have node : Node.Placed (.composite t.kind t.children.toList) :=
    .composite inner.admitted inner.placed
  have pushed : (s.push (.composite t.kind t.children.toList)).Placed holding :=
    outer.push admitted node
  exact ⟨outer.kind, pushed.admitted, pushed.placed⟩

/-- The token that marks the end is never taken. -/
theorem take? {token : Token} (h : s.Placed holding) (taken : s.take? = some (token, t)) :
    t.Placed holding ∧ t.kind = s.kind ∧ ¬token.isEnd := by
  obtain ⟨-, inner, equation⟩ := take?_eq_some taken
  rw [equation]
  exact ⟨⟨h.kind, h.admitted, h.placed⟩, rfl, inner⟩

end Placed

end State

/-- A stretch of parsing after which all children may stand where they stand, if they could before,
and in which the node that is being built may be given one of some kinds. -/
def Builds (holding : Holding) (kinds : List NodeKind) (s t : State) : Prop :=
  s.Placed holding → t.Placed holding ∧ (t.kind = s.kind ∨ t.kind ∈ kinds)

namespace Builds

variable {holding : Holding} {kinds more : List NodeKind} {s t u : State}

theorem refl (holding : Holding) (kinds : List NodeKind) (s : State) :
    Builds holding kinds s s :=
  fun h => ⟨h, .inl rfl⟩

theorem mono (h : Builds holding kinds s t) (le : kinds ⊆ more) : Builds holding more s t :=
  fun placed => ⟨(h placed).1, (h placed).2.imp id fun member => le member⟩

theorem trans (first : Builds holding kinds s t) (second : Builds holding kinds t u) :
    Builds holding kinds s u := by
  intro placed
  obtain ⟨middle, kind⟩ := first placed
  obtain ⟨final, kind'⟩ := second middle
  refine ⟨final, ?_⟩
  obtain same | member := kind'
  · rwa [same]
  · exact .inr member

/-- Neither reports nor the wish for another round matter. -/
theorem of_same (kind : t.kind = s.kind) (children : t.children = s.children) :
    Builds holding kinds s t :=
  fun h => ⟨⟨kind ▸ h.kind, children ▸ h.admitted, children ▸ h.placed⟩, .inl kind⟩

theorem shift (s : State) : Builds .parts kinds s s.shift := by
  intro placed
  unfold State.shift
  split
  · rename_i token t taken
    obtain ⟨after, kind, inner⟩ := placed.take? taken
    exact ⟨after.push (by simpa [Holding.admitsToken] using inner) (.token token), .inl kind⟩
  · exact ⟨placed, .inl rfl⟩

theorem shiftMany (count : Nat) (s : State) : Builds .parts kinds s (State.shiftMany count s) := by
  induction count generalizing s with
  | zero => exact refl _ _ s
  | succ count ih => exact (shift s).trans (ih s.shift)

/-- An item that is opened again holds parts, so a semicolon may be added to it. -/
theorem attach (items : holding = .codeItems ∨ holding = .members) (s : State) :
    Builds holding kinds s s.attach := by
  have aside : holding.admitsKind .unexpectedNodes := by
    obtain rfl | rfl := items
    · rfl
    · rfl
  intro placed
  unfold State.attach
  split
  · exact ⟨placed, .inl rfl⟩
  · rename_i token t taken
    obtain ⟨after, kind, inner⟩ := placed.take? taken
    split
    · rename_i last children back
      obtain ⟨before, equation⟩ := Array.back?_eq_some_iff.mp back
      have admitted := after.admitted
      have inside := after.placed
      simp only [equation, Array.toList_push, List.forall_mem_append,
        List.forall_mem_singleton] at admitted inside
      have parts : last.holding = .parts := Holding.parts_of_item items admitted.2
      have reopened : Node.Placed (.composite last (children ++ [.token token])) := by
        constructor
        · rw [List.forall_mem_append, List.forall_mem_singleton]
          refine ⟨inside.2.admitted, ?_⟩
          simpa [parts, Holding.admitsToken] using inner
        · rw [List.forall_mem_append, List.forall_mem_singleton]
          exact ⟨inside.2.children, .token token⟩
      refine ⟨⟨after.kind, ?_, ?_⟩, .inl kind⟩
      · simp only [equation, Array.pop_push, Array.toList_push, List.forall_mem_append,
          List.forall_mem_singleton]
        exact ⟨admitted.1, admitted.2⟩
      · simp only [equation, Array.pop_push, Array.toList_push, List.forall_mem_append,
          List.forall_mem_singleton]
        exact ⟨inside.1, reopened⟩
    · refine ⟨after.push aside ?_, .inl kind⟩
      constructor
      · rw [List.forall_mem_singleton]
        simpa [NodeKind.holding, Holding.admitsToken] using inner
      · rw [List.forall_mem_singleton]
        exact .token token

/-- A node may be built if each kind that it may take may stand where it is built. -/
theorem node {kind : NodeKind} (inside : Builds kind.holding kinds (s.enter kind) t)
    (admitted : ∀ settled ∈ kind :: kinds, holding.admitsKind settled) :
    Builds holding more s (s.leave t) := by
  intro placed
  obtain ⟨built, settled⟩ := inside (.enter s kind)
  have inner : t.Placed t.kind.holding := by rw [built.kind]; exact built
  refine ⟨placed.leave inner (admitted t.kind ?_), .inl rfl⟩
  obtain same | member := settled
  · rw [same]
    exact List.mem_cons_self
  · exact List.mem_cons_of_mem _ member

theorem recover (s : State) (recovery : Recovery)
    (aside : holding.admitsKind .unexpectedNodes) :
    Builds holding kinds s (s.recover recovery) := by
  unfold State.recover
  split
  · exact refl _ _ s
  · rename_i count _
    have inside : Builds (NodeKind.holding .unexpectedNodes) [] (s.enter .unexpectedNodes)
        (State.shiftMany (count + 1) (s.enter .unexpectedNodes)) := shiftMany _ _
    have built : Builds holding kinds s
        (s.leave (State.shiftMany (count + 1) (s.enter .unexpectedNodes))) :=
      node inside (List.forall_mem_singleton.mpr aside)
    exact built.trans (of_same rfl rfl)

theorem close (s : State) (bracket : Bracket) (label : String) (openedAt : Nat) :
    Builds .parts kinds s (s.close bracket label openedAt) := by
  unfold State.close
  split
  · exact shift s
  · exact of_same rfl rfl

theorem iterate {step : State → State} (steps : ∀ s, Builds holding kinds s (step s))
    (rounds : Nat) (s : State) : Builds holding kinds s (iterate step rounds s) :=
  iterate_of_steps (refl _ _) trans (fun _ _ => of_same rfl rfl) steps rounds s

end Builds

/-- A rule that fits builds what it should, if the goals that it pursues do. -/
theorem Rule.builds_run {Goal : Type} {pursue : Goal → State → State}
    (goals : ∀ goal s, Builds .parts [] s (pursue goal s)) (bound base : Nat) {rule : Rule Goal}
    {holding : Holding} (h : rule.fits holding) (s : State) :
    Builds holding rule.becomes s (rule.run pursue bound base s) := by
  induction rule generalizing holding s with
  | skip => exact .refl _ _ s
  | shift =>
    obtain rfl : holding = .parts := by simpa [fits] using h
    exact .shift s
  | attach => exact .attach (by simpa [fits] using h) s
  | recover recovery => exact .recover s recovery h
  | report complaint => exact .of_same rfl rfl
  | become kind =>
    obtain rfl : kind.holding = holding := by simpa [fits] using h
    intro placed
    exact ⟨⟨rfl, placed.admitted, placed.placed⟩, .inr List.mem_cons_self⟩
  | node kind body inside =>
    rw [fits, Bool.and_eq_true, List.all_eq_true] at h
    exact .node (inside h.2 (s.enter kind)) h.1
  | seq first second before after =>
    rw [fits, Bool.and_eq_true] at h
    exact ((before h.1 s).mono (List.subset_append_left _ _)).trans
      ((after h.2 _).mono (List.subset_append_right _ _))
  | choose test yes no left right =>
    rw [fits, Bool.and_eq_true] at h
    unfold Rule.run
    split
    · exact (left h.1 s).mono (List.subset_append_left _ _)
    · exact (right h.2 s).mono (List.subset_append_right _ _)
  | loop body round => exact .iterate (round h) bound s
  | again => exact .of_same rfl rfl
  | call goal =>
    obtain rfl : holding = .parts := by simpa [fits] using h
    unfold Rule.run
    split
    · exact goals goal s
    · exact .refl _ _ s
  | delimited bracket label goal =>
    obtain rfl : holding = .parts := by simpa [fits] using h
    unfold Rule.run
    split
    · exact ((Builds.shift s).trans (goals goal _)).trans (.close _ _ _ _)
    · exact .refl _ _ s

/-- Every goal of the Swift grammar may be pursued inside of a node that holds parts. -/
theorem fits_swift (goal : Goal) : (swift goal).fits .parts := by
  cases goal with
  | items context owner => cases context <;> rfl
  | group label => rfl
  | angles label => rfl
  | parameters => rfl
  | cases => rfl
  | conditional => rfl

theorem becomes_swift (goal : Goal) : (swift goal).becomes = [] := by
  cases goal <;> rfl

theorem builds_pursue (levels : Nat) (goal : Goal) (s : State) :
    Builds .parts [] s (pursue swift levels goal s) := by
  induction levels generalizing goal s with
  | zero => exact .refl _ _ s
  | succ levels ih =>
    have run := Rule.builds_run ih (levels + 1) s.taken (fits_swift goal) s
    rwa [becomes_swift] at run

/-- The items of a block stand in one list, and all nodes in it are in their places. -/
theorem exists_items (context : ItemContext) (owner : NodeKind) (tokens : List Token) :
    ∃ items, (parseItems context owner tokens).children.toList =
        [.composite context.listKind items] ∧
      Node.Placed (.composite context.listKind items) := by
  let start := State.start .sourceFile tokens
  let body : Rule Goal := .while_ context.goesOn <|
    .choose (.kind .semicolon) .attach (.item context owner)
  have fits : body.fits context.listKind.holding := by cases context <;> rfl
  have unsettled : body.becomes = [] := by cases context <;> rfl
  have built := Rule.builds_run (builds_pursue tokens.length) (tokens.length + 1) start.taken fits
    (start.enter context.listKind)
  rw [unsettled] at built
  obtain ⟨placed, same | other⟩ := built (.enter start context.listKind)
  · refine ⟨_, ?_, .composite placed.admitted placed.placed⟩
    change [Node.composite (body.run (pursue swift tokens.length) (tokens.length + 1) start.taken
      (start.enter context.listKind)).kind _] = _
    rw [same]
    rfl
  · cases other

end SwiftTree.Grammar
