import SwiftTree.Proofs.Grammar.Silence

/-!
# What is set aside in silence

Tokens that fit nowhere are set aside with a report, and a declaration that turns out to be none is
reported as well. One case is left: a semicolon belongs to the item in front of it, and where a list
has no item yet, a semicolon is set aside as if it were unexpected, and nothing is said about it. So
after a silent run only semicolons at the start of lists of items have been set aside.

That a rule sets nothing else aside is checked without running it. The check follows what tests tell
about the current token, and what kinds a node can have in the end.
-/

namespace SwiftTree

namespace Node

/-- The node holds semicolons that have no item in front of them. -/
def HoldsSemicolons (node : Node) : Prop :=
  ∃ tokens : List Token, tokens ≠ [] ∧ (∀ token ∈ tokens, token.kind = .semicolon) ∧
    node = .composite .unexpectedNodes (tokens.map .token)

/-- No child has been set aside, except for semicolons at the start of a list of items. -/
def TidyAmong (holding : Holding) (children : List Node) : Prop :=
  ∀ index child, children[index]? = some child → child.kind? = some .unexpectedNodes →
    index = 0 ∧ (holding = .codeItems ∨ holding = .members) ∧ child.HoldsSemicolons

namespace TidyAmong

variable {holding : Holding} {children before : List Node} {node : Node}

theorem nil (holding : Holding) : TidyAmong holding [] :=
  nofun

theorem concat (h : TidyAmong holding children) (other : node.kind? ≠ some .unexpectedNodes) :
    TidyAmong holding (children ++ [node]) := by
  intro index child found aside
  rw [List.getElem?_append] at found
  split at found
  · exact h index child found aside
  · obtain rfl := List.mem_singleton.mp (List.mem_of_getElem? found)
    exact absurd aside other

/-- A semicolon that follows other semicolons is kept with them. -/
theorem reopen {kind : NodeKind} {token : Token} (semicolon : token.kind = .semicolon)
    (h : TidyAmong holding (before ++ [.composite kind children])) :
    TidyAmong holding (before ++ [.composite kind (children ++ [.token token])]) := by
  intro index child found aside
  rw [List.getElem?_append] at found
  split at found
  · rename_i inside
    exact h index child (by rwa [List.getElem?_append_left inside]) aside
  · rename_i outside
    obtain rfl := List.mem_singleton.mp (List.mem_of_getElem? found)
    obtain rfl : index = before.length := by
      obtain ⟨last, -⟩ := List.getElem?_eq_some_iff.mp found
      rw [List.length_singleton] at last
      omega
    obtain ⟨first, items, tokens, some, all, same⟩ :=
      h before.length (.composite kind children) List.getElem?_concat_length aside
    cases same
    refine ⟨first, items, tokens ++ [token], by simp, ?_, by simp⟩
    rw [List.forall_mem_append, List.forall_mem_singleton]
    exact ⟨all, semicolon⟩

end TidyAmong

/-- Nothing has been set aside right below the node, except for semicolons. -/
def Tidy : Node → Prop
  | token _ => True
  | composite kind children => TidyAmong kind.holding children

end Node

namespace Grammar

namespace State

/-- Only composites stand in a list of items. -/
theorem Placed.children_eq_empty {s : State} {holding : Holding} (placed : s.Placed holding)
    (items : holding = .codeItems ∨ holding = .members)
    (none_last : ∀ kind children, s.children.back? ≠ some (.composite kind children)) :
    s.children = #[] := by
  cases back : s.children.back? with
  | none => exact Array.back?_eq_none_iff.mp back
  | some child =>
    cases child with
    | token other =>
      have admitted := placed.admitted _ (Array.mem_toList_iff.mpr (Array.mem_of_back? back))
      obtain rfl | rfl := items
      · cases admitted
      · cases admitted
    | composite kind children => exact absurd back (none_last kind children)

/-- Nothing has been set aside in the node that is being built, except for semicolons. -/
structure Tidy (s : State) : Prop where
  among : Node.TidyAmong s.kind.holding s.children.toList
  below : ∀ child ∈ s.children.toList, child.Everywhere Node.Tidy

namespace Tidy

variable {s t : State}

theorem of_same (kind : t.kind.holding = s.kind.holding) (children : t.children = s.children)
    (h : s.Tidy) : t.Tidy :=
  ⟨by rw [kind, children]; exact h.among, by rw [children]; exact h.below⟩

theorem enter (s : State) (kind : NodeKind) : (s.enter kind).Tidy :=
  ⟨.nil _, nofun⟩

theorem push (h : s.Tidy) {node : Node} (other : node.kind? ≠ some .unexpectedNodes)
    (tidy : node.Everywhere Node.Tidy) : (s.push node).Tidy where
  among := by
    rw [State.push, Array.toList_push]
    exact h.among.concat other
  below := by
    rw [State.push, Array.toList_push, List.forall_mem_append, List.forall_mem_singleton]
    exact ⟨h.below, tidy⟩

theorem leave (outer : s.Tidy) (inner : t.Tidy) (other : t.kind ≠ .unexpectedNodes) :
    (s.leave t).Tidy := by
  have node : (Node.composite t.kind t.children.toList).Everywhere Node.Tidy :=
    Node.everywhere_composite.mpr ⟨inner.among, inner.below⟩
  have kind : (Node.composite t.kind t.children.toList).kind? ≠ some .unexpectedNodes :=
    fun same => other (Option.some.inj same)
  obtain ⟨among, below⟩ := outer.push kind node
  exact ⟨among, below⟩

theorem take? {token : Token} (h : s.Tidy) (taken : s.take? = some (token, t)) : t.Tidy := by
  obtain ⟨-, -, same⟩ := take?_eq_some taken
  exact of_same (by rw [same]) (take?_children taken) h

theorem shift (h : s.Tidy) : s.shift.Tidy := by
  unfold State.shift
  split
  · rename_i token t taken
    exact (h.take? taken).push nofun ((Node.everywhere_token token).mpr trivial)
  · exact h

/-- An item that takes a semicolon is as tidy as it was. -/
theorem reopen {kind : NodeKind} {children : List Node} {token : Token}
    (h : (Node.composite kind children).Everywhere Node.Tidy) :
    (Node.composite kind (children ++ [.token token])).Everywhere Node.Tidy := by
  rw [Node.everywhere_composite] at h
  rw [Node.everywhere_composite, List.forall_mem_append, List.forall_mem_singleton]
  exact ⟨Node.TidyAmong.concat h.1 nofun, h.2, (Node.everywhere_token token).mpr trivial⟩

/-- A semicolon that no item takes is set aside in an empty list of items. -/
theorem push_semicolon {token : Token} (empty : s.children = #[])
    (items : s.kind.holding = .codeItems ∨ s.kind.holding = .members)
    (semicolon : token.kind = .semicolon) :
    (s.push (.composite .unexpectedNodes [.token token])).Tidy := by
  have semicolons : (Node.composite .unexpectedNodes [.token token]).HoldsSemicolons :=
    ⟨[token], List.cons_ne_nil _ _, List.forall_mem_singleton.mpr semicolon, rfl⟩
  have only : (s.push (.composite .unexpectedNodes [.token token])).children.toList =
      [.composite .unexpectedNodes [.token token]] := by
    rw [State.push, Array.toList_push, empty]
    rfl
  constructor
  · intro index child found aside
    rw [only] at found
    obtain rfl := List.mem_singleton.mp (List.mem_of_getElem? found)
    obtain ⟨first, -⟩ := List.getElem?_eq_some_iff.mp found
    exact ⟨Nat.lt_one_iff.mp first, items, semicolons⟩
  · rw [only, List.forall_mem_singleton]
    exact reopen (Node.everywhere_composite.mpr ⟨.nil _, List.forall_mem_nil _⟩)

/-- A semicolon goes to the item in front of it, or is set aside. -/
theorem attach {holding : Holding} (h : s.Tidy) (placed : s.Placed holding)
    (items : holding = .codeItems ∨ holding = .members)
    (semicolon : currentKind s.rest = .semicolon) : s.attach.Tidy := by
  unfold State.attach
  split
  · exact h
  · rename_i token t taken
    have after := h.take? taken
    have kind : token.kind = .semicolon := by
      rw [(take?_eq_some taken).1] at semicolon
      exact semicolon
    split
    · rename_i last children back
      obtain ⟨before, equation⟩ := Array.back?_eq_some_iff.mp back
      obtain ⟨among, below⟩ := after
      rw [equation, Array.toList_push] at among below
      rw [List.forall_mem_append, List.forall_mem_singleton] at below
      constructor
      · rw [equation, Array.pop_push, Array.toList_push]
        exact among.reopen kind
      · rw [equation, Array.pop_push, Array.toList_push, List.forall_mem_append,
          List.forall_mem_singleton]
        exact ⟨below.1, reopen below.2⟩
    · rename_i none_last
      obtain ⟨still, -, -⟩ := placed.take? taken
      exact push_semicolon (still.children_eq_empty items none_last) (still.kind ▸ items) kind

end Tidy

end State

/-- A stretch of parsing in which nothing is set aside, except for semicolons. -/
def Tidies (s t : State) : Prop :=
  s.Tidy → t.Tidy

theorem Tidies.trans {s t u : State} (first : Tidies s t) (second : Tidies t u) : Tidies s u :=
  fun tidy => second (first tidy)

namespace Rule

/-- Whether the rule sets nothing aside in silence, except for semicolons, if the current token has
one of some kinds. -/
def tidies {Goal : Type} (known : List TokenKind) : Rule Goal → Bool
  | attach => known.all (· == .semicolon)
  | node kind body => (body.outcomes kind).all (· != .unexpectedNodes) && body.tidies known
  | seq first second =>
    first.loud || (first.tidies known && second.tidies (first.onward known))
  | choose test yes no =>
    yes.tidies (test.narrow true known) && no.tidies (test.narrow false known)
  | loop body => body.tidies TokenKind.all
  | _ => true

/-- A rule that passes the check sets nothing aside in silence, if the goals that it pursues do
not. -/
theorem tidies_run {Goal : Type} {pursue : Goal → State → State}
    (grows : ∀ goal s, s.reports.size ≤ (pursue goal s).reports.size)
    (builds : ∀ goal s, Builds .parts [] s (pursue goal s))
    (goals : ∀ goal s, s.Placed .parts → Silently Tidies s (pursue goal s)) (bound base : Nat)
    {rule : Rule Goal} {holding : Holding} (fits : rule.fits holding) {known : List TokenKind}
    (h : rule.tidies known) {s : State} (placed : s.Placed holding)
    (current : currentKind s.rest ∈ known) :
    Silently Tidies s (rule.run pursue bound base s) := by
  induction rule generalizing holding known s with
  | skip => exact .of_same rfl id
  | shift => exact .of_same s.reports_shift State.Tidy.shift
  | attach =>
    have items : holding = .codeItems ∨ holding = .members := by simpa [Rule.fits] using fits
    have semicolon := beq_iff_eq.mp (List.all_eq_true.mp h _ current)
    exact .of_same s.reports_attach fun tidy => tidy.attach placed items semicolon
  | recover recovery => exact .recover id recovery
  | report complaint => exact .of_lt (s.lt_reports_say _)
  | become kind =>
    have same : kind.holding = holding := by simpa [Rule.fits] using fits
    exact .of_same rfl (.of_same (same.trans placed.kind.symm) rfl)
  | node kind body inside =>
    rw [Rule.fits, Bool.and_eq_true] at fits
    rw [tidies, Bool.and_eq_true, List.all_eq_true] at h
    have inner := inside fits.2 h.2 (.enter s kind) current
    refine ⟨inner.grows, fun silent tidy => ?_⟩
    have settled := mem_outcomes grows builds bound base fits.2 silent
    exact tidy.leave (inner.silent silent (.enter s kind)) (bne_iff_ne.mp (h.1 _ settled))
  | seq first second before after =>
    rw [Rule.fits, Bool.and_eq_true] at fits
    rw [tidies, Bool.or_eq_true, Bool.and_eq_true] at h
    obtain loud | h := h
    · -- Whatever comes after a report, the run is not silent.
      have whole : (seq first second).loud := by simp [Rule.loud, loud]
      exact .of_lt (lt_reports_of_loud grows bound base whole s)
    · obtain ⟨middle, -⟩ := builds_run builds bound base fits.1 s placed
      exact (before fits.1 h.1 placed current).trans
        (after fits.2 h.2 middle (mem_onward current bound base)) Tidies.trans
  | choose test yes no left right =>
    rw [Rule.fits, Bool.and_eq_true] at fits
    rw [tidies, Bool.and_eq_true] at h
    unfold run
    split
    · rename_i holds
      exact left fits.1 h.1 placed (Test.mem_narrow current holds)
    · rename_i fails
      exact right fits.2 h.2 placed (Test.mem_narrow current (Bool.eq_false_iff.mpr fails))
  | loop body round =>
    refine (iterate_of_steps
      (R := fun s t => s.Placed holding → t.Placed holding ∧ Silently Tidies s t)
      ?_ ?_ ?_ ?_ bound s placed).2
    · exact fun s placed => ⟨placed, .of_same rfl id⟩
    · intro s t u one two placed
      obtain ⟨middle, first⟩ := one placed
      obtain ⟨final, second⟩ := two middle
      exact ⟨final, first.trans second Tidies.trans⟩
    · intro s again placed
      exact ⟨⟨placed.kind, placed.admitted, placed.placed⟩, .of_same rfl (.of_same rfl rfl)⟩
    · intro s placed
      have inner : body.fits holding := fits
      exact ⟨(builds_run builds bound base inner s placed).1,
        round inner h placed (mem_all_tokenKinds _)⟩
  | again => exact .of_same rfl (.of_same rfl rfl)
  | call goal =>
    obtain rfl : holding = .parts := by simpa [Rule.fits] using fits
    unfold run
    split
    · exact goals goal s placed
    · exact .of_same rfl id
  | delimited bracket label goal =>
    obtain rfl : holding = .parts := by simpa [Rule.fits] using fits
    unfold run
    split
    · have built : Builds .parts [] s s.shift := .shift s
      have opening : Silently Tidies s s.shift := .of_same s.reports_shift State.Tidy.shift
      have closing : Silently Tidies (pursue goal s.shift)
          ((pursue goal s.shift).close bracket label s.contentStart) :=
        .close (fun _ => State.Tidy.shift) label _
      have inside := goals goal s.shift (built placed).1
      exact opening.trans (inside.trans closing Tidies.trans) Tidies.trans
    · exact .of_same rfl id

end Rule

theorem tidies_swift (goal : Goal) : (swift goal).tidies TokenKind.all := by
  cases goal with
  | items context owner => cases context <;> rfl
  | group label => rfl
  | angles label => rfl
  | parameters => rfl
  | cases => rfl
  | conditional => rfl

theorem tidies_pursue (levels : Nat) (goal : Goal) {s : State} (placed : s.Placed .parts) :
    Silently Tidies s (pursue swift levels goal s) := by
  induction levels generalizing goal s with
  | zero => exact .of_same rfl id
  | succ levels ih =>
    exact Rule.tidies_run (reports_stepLaw.pursue swift levels) (builds_pursue levels)
      (fun goal _ => ih goal) (levels + 1) s.taken (fits_swift goal) (tidies_swift goal) placed
      (mem_all_tokenKinds _)

/-- If nothing is reported on the items at top level, nothing has been set aside among them, except
for semicolons. -/
theorem tidy_parseItems {tokens : List Token}
    (silent : (parseItems .topLevel .sourceFile tokens).reports = #[]) :
    ∀ child ∈ (parseItems .topLevel .sourceFile tokens).children.toList,
      child.Everywhere Node.Tidy := by
  let start := State.start .sourceFile tokens
  have placed : start.Placed .document := ⟨rfl, nofun, nofun⟩
  have fits : (Rule.items .topLevel .sourceFile).fits .document := rfl
  have run := Rule.tidies_run (reports_stepLaw.pursue swift tokens.length)
    (builds_pursue tokens.length) (fun goal _ => tidies_pursue tokens.length goal)
    (tokens.length + 1) start.taken fits (tidies_swift (.items .topLevel .sourceFile)) placed
    (mem_all_tokenKinds _)
  exact (run.silent (congrArg Array.size silent) ⟨.nil _, nofun⟩).below

end Grammar

end SwiftTree
