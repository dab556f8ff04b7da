import SwiftTree.Proofs.Grammar.Items

/-!
# Every item has a token

One round of a list of items takes a token and adds at most one item, so each item that is added has
a token. A semicolon goes to the item in front of it, which then has one more.
-/

namespace SwiftTree.Grammar

/-- The rule adds at most a number of children behind those that are there, whatever the goals are
that it pursues. -/
def Appends {Goal : Type} (count : Nat) (rule : Rule Goal) : Prop :=
  ∀ (pursue : Goal → State → State) (bound base : Nat) (s : State), ∃ added : List Node,
    added.length ≤ count ∧
      (rule.run pursue bound base s).children.toList = s.children.toList ++ added

namespace Appends

variable {Goal : Type} {first second rule : Rule Goal} {i j : Nat}

theorem skip : Appends 0 (.skip : Rule Goal) :=
  fun _ _ _ _ => ⟨[], Nat.le_refl 0, (List.append_nil _).symm⟩

theorem report {complaint : Complaint} : Appends 0 (.report complaint : Rule Goal) :=
  fun _ _ _ _ => ⟨[], Nat.le_refl 0, (List.append_nil _).symm⟩

theorem node {kind : NodeKind} : Appends 1 (.node kind rule) :=
  fun _ _ _ _ => ⟨[_], Nat.le_refl 1, Array.toList_push⟩

theorem recover {recovery : Recovery} : Appends 1 (.recover recovery : Rule Goal) := by
  intro pursue bound base s
  unfold Rule.run State.recover
  split
  · exact ⟨[], Nat.zero_le 1, (List.append_nil _).symm⟩
  · exact ⟨[_], Nat.le_refl 1, Array.toList_push⟩

theorem seq (before : Appends i first) (after : Appends j second) :
    Appends (i + j) (.seq first second) := by
  intro pursue bound base s
  obtain ⟨as, few, children⟩ := before pursue bound base s
  obtain ⟨bs, few', children'⟩ := after pursue bound base (first.run pursue bound base s)
  refine ⟨as ++ bs, ?_, ?_⟩
  · rw [List.length_append]
    exact Nat.add_le_add few few'
  · rw [← List.append_assoc, ← children]
    exact children'

theorem choose {test : Test} (yes : Appends i first) (no : Appends i second) :
    Appends i (.choose test first second) := by
  intro pursue bound base s
  unfold Rule.run
  split
  · exact yes pursue bound base s
  · exact no pursue bound base s

theorem dispatch {table : List (String × Rule Goal)} (rules : ∀ entry ∈ table, Appends i entry.2)
    (other : Appends i rule) : Appends i (.dispatch table rule) := by
  induction table with
  | nil => exact other
  | cons entry table ih =>
    rw [List.forall_mem_cons] at rules
    exact choose rules.1 (ih rules.2)

end Appends

namespace Rule

theorem appends_statement (phrase : String) : Appends 1 (statement phrase) := by
  apply Appends.dispatch
  · simp only [List.forall_mem_cons, List.not_mem_nil, false_implies, implies_true, and_true]
    and_intros <;> exact .node
  · exact .choose .node .recover

theorem appends_item (context : ItemContext) (owner : NodeKind) :
    Appends 1 (item context owner) := by
  apply Appends.choose .node
  cases context with
  | topLevel => exact .choose (Appends.report.seq (Appends.node.seq .skip)) (appends_statement _)
  | members => exact .recover
  | codeBlock => exact appends_statement _
  | switchCase => exact appends_statement _
  | closure => exact appends_statement _

end Rule

namespace State

def Filled (s : State) : Prop :=
  ∀ child ∈ s.children.toList, child.leaves ≠ []

/-- A single child that is added along with a token has that token. -/
theorem Filled.append {s t : State} (h : s.Filled) {added : List Node}
    (children : t.children.toList = s.children.toList ++ added) (single : added.length ≤ 1)
    (advances : Advances s t) (more : s.taken < t.taken) : t.Filled := by
  obtain ⟨tokens, takes⟩ := advances
  have some : tokens ≠ [] := by
    rintro rfl
    have same := takes.taken
    rw [List.length_nil] at same
    omega
  have leaves : Node.leavesAll added = tokens := by
    have all := takes.leaves
    rw [children, Node.leavesAll_append] at all
    exact List.append_cancel_left all
  unfold Filled
  rw [children, List.forall_mem_append]
  refine ⟨h, ?_⟩
  obtain _ | ⟨child, _ | ⟨other, more⟩⟩ := added
  · nofun
  · rw [List.forall_mem_singleton]
    rw [Node.leavesAll_cons, Node.leavesAll_nil, List.append_nil] at leaves
    rwa [leaves]
  · simp at single

theorem Filled.attach {s : State} (h : s.Filled) : s.attach.Filled := by
  unfold State.attach
  split
  · exact h
  · rename_i token t taken
    have same := take?_children taken
    have before : t.Filled := by
      unfold Filled
      rwa [same]
    split
    · rename_i kind children back
      obtain ⟨others, equation⟩ := Array.back?_eq_some_iff.mp back
      unfold Filled at before ⊢
      simp only [equation, Array.toList_push, List.forall_mem_append] at before
      simp only [equation, Array.pop_push, Array.toList_push, List.forall_mem_append,
        List.forall_mem_singleton]
      exact ⟨before.1, by simp⟩
    · unfold Filled at before ⊢
      simp only [State.push, Array.toList_push, List.forall_mem_append, List.forall_mem_singleton]
      exact ⟨before, by simp⟩

end State

/-- A round of a list of items leaves no item without a token. -/
theorem filled_round {pursue : Goal → State → State} (goals : ∀ goal s, Advances s (pursue goal s))
    {bound : Nat} (positive : 0 < bound) (base : Nat) {context : ItemContext} {owner : NodeKind}
    {s : State} (goes : context.goesOn.holds s.last s.rest) (h : s.Filled) :
    ((Rule.choose (.kind .semicolon) .attach (.item context owner)).run pursue bound base
      s).Filled := by
  unfold Rule.run
  split
  · exact h.attach
  · obtain ⟨added, single, children⟩ := Rule.appends_item context owner pursue bound base s
    exact h.append children single (Advances.stepLaw.run goals bound base _ s)
      (Rule.consumes_item context owner goals positive base s (Rule.notAtEnd_of_goesOn goes))

/-- Every item of a block has a token. -/
theorem leaves_ne_nil_of_mem_items {context : ItemContext} {owner : NodeKind} {tokens : List Token}
    {item : Node}
    (h : item ∈ (parseItems context owner tokens).children.toList.flatMap Node.children) :
    item.leaves ≠ [] := by
  let start := (State.start .sourceFile tokens).enter context.listKind
  let round : Rule Goal := .choose (.kind .semicolon) .attach (.item context owner)
  have goals := Advances.stepLaw.pursue swift tokens.length
  have steps (s : State) : s.Filled → ((Rule.when context.goesOn (.seq round .again)).run
      (pursue swift tokens.length) (tokens.length + 1) 0 s).Filled := by
    intro filled
    rw [Rule.when, Rule.run]
    split
    · rename_i goes
      exact filled_round goals (Nat.succ_pos _) 0 goes filled
    · exact filled
  have filled : ((Rule.while_ context.goesOn round).run (pursue swift tokens.length)
      (tokens.length + 1) 0 start).Filled :=
    iterate_of_steps (R := fun s t => s.Filled → t.Filled) (fun _ => id) (fun f g => g ∘ f)
      (fun _ _ => id) steps _ start fun _ member => absurd member List.not_mem_nil
  have items : (parseItems context owner tokens).children.toList.flatMap Node.children =
      ((Rule.while_ context.goesOn round).run (pursue swift tokens.length)
        (tokens.length + 1) 0 start).children.toList :=
    List.append_nil _
  rw [items] at h
  exact filled item h

end SwiftTree.Grammar
