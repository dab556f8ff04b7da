import SwiftTree.Grammar.Swift
import SwiftTree.Proofs.Grammar.Conservation
import SwiftTree.Proofs.Node.Find
import SwiftTree.Proofs.Node.Trivia
import SwiftTree.QuotedCode

/-!
# Code that was set aside

Where tokens fit nowhere, they are set aside in a node of their own, and a report quotes them. The
node may be given a semicolon later, and it becomes part of the nodes around it, but it stays at the
offset that the report names, and what it holds begins with the code that the report quotes.

Nothing else is reported in these words: the complaints of a rule are read off the rule, and those
of the Swift grammar begin differently.
-/

namespace SwiftTree.Grammar

/-- Where code may be said to have been found. -/
def IsPlace (phrase : String) : Prop :=
  phrase = "at top level" ∨ ∃ kind : NodeKind, phrase = "in " ++ kind.description

namespace Report

/-- The message says that code was unexpected. -/
def Quotes (report : Report) : Prop :=
  quotationStart <+: report.diagnostic.message.toList

/-- The report is about a node that was set aside at an offset. The message quotes the tokens that
were set aside then; others may have been added to the node since. -/
structure Covers (report : Report) (offset : Nat) (node : Node) : Prop where
  subject : report.subject = some (.unexpectedNodes, offset)
  offset : report.diagnostic.offset = some offset
  recovered : ∃ first taken added phrase,
    node = .composite .unexpectedNodes (List.map .token (first :: taken ++ added)) ∧
      first.text ≠ "" ∧ IsPlace phrase ∧
      report.diagnostic.message =
        "unexpected code '" ++ Token.content (first :: taken) ++ "' " ++ phrase

namespace Covers

variable {report : Report} {offset : Nat} {node : Node}

theorem tokens (h : report.Covers offset node) : ∃ first rest,
    node = .composite .unexpectedNodes (List.map .token (first :: rest)) ∧ first.text ≠ "" := by
  obtain ⟨first, taken, added, phrase, shape, text, -⟩ := h.recovered
  exact ⟨first, taken ++ added, shape, text⟩

/-- The message quotes what the node begins with. -/
theorem message (h : report.Covers offset node) : ∃ code phrase more,
    report.diagnostic.message = "unexpected code '" ++ code ++ "' " ++ phrase ∧ IsPlace phrase ∧
      code ≠ "" ∧ node.contentText = code ++ more := by
  obtain ⟨first, taken, added, phrase, rfl, text, place, message⟩ := h.recovered
  obtain ⟨more, goes⟩ := Token.exists_content_append (List.cons_ne_nil first taken) added
  refine ⟨_, phrase, more, message, place, Token.content_ne_empty text taken, ?_⟩
  rw [Node.contentText_eq_content, Node.leaves_composite, Node.leavesAll_map_token, goes]

/-- A node that is opened again begins with what it began with. -/
theorem reopen {kind : NodeKind} {children : List Node}
    (h : report.Covers offset (.composite kind children)) (token : Token) :
    report.Covers offset (.composite kind (children ++ [.token token])) := by
  obtain ⟨subject, start, first, taken, added, phrase, same, text, place, message⟩ := h
  cases same
  exact ⟨subject, start, first, taken, added ++ [token], phrase, by simp, text, place, message⟩

end Covers

/-- One of the nodes, or a node inside of them, is what the report is about. Their offsets count
from a base. -/
def Grounded (report : Report) (base : Nat) (nodes : List Node) : Prop :=
  ∃ node offset, node.Occurs offset nodes ∧ report.Covers (base + offset) node

namespace Grounded

variable {report : Report} {base : Nat} {nodes : List Node}

theorem append (h : report.Grounded base nodes) (more : List Node) :
    report.Grounded base (nodes ++ more) := by
  obtain ⟨node, offset, occurs, covers⟩ := h
  exact ⟨node, offset, occurs.append more, covers⟩

/-- What is inside of the last node is in the node around it. -/
theorem leave {inside : List Node} (kind : NodeKind)
    (h : report.Grounded (base + Node.widthAll nodes) inside) :
    report.Grounded base (nodes ++ [.composite kind inside]) := by
  obtain ⟨node, offset, occurs, covers⟩ := h
  obtain ⟨trail, holds⟩ := occurs.exists_holds kind
  exact ⟨node, Node.widthAll nodes + offset, .concat nodes holds, Nat.add_assoc .. ▸ covers⟩

theorem reopen {kind : NodeKind} {children : List Node}
    (h : report.Grounded base (nodes ++ [.composite kind children])) (token : Token) :
    report.Grounded base (nodes ++ [.composite kind (children ++ [.token token])]) := by
  obtain ⟨node, offset, occurs, covers⟩ := h
  obtain ⟨rfl, rfl⟩ | kept := occurs.reopen [.token token]
  · have here : (Node.composite kind (children ++ [.token token])).Holds [] 0
        (.composite kind (children ++ [.token token])) := Node.holds_nil_iff.mpr ⟨rfl, rfl⟩
    exact ⟨_, _, .concat nodes here, covers.reopen token⟩
  · exact ⟨node, offset, kept, covers⟩

end Grounded

end Report

/-- Only the message of a report tells whether it speaks of unexpected code. -/
theorem Report.not_quotes_of_head {report : Report} {c : Char}
    (h : report.diagnostic.message.toList.head? = some c) (other : c ≠ 'u') : ¬report.Quotes := by
  intro quotes
  have first : quotationStart.head? = some 'u' := by decide +kernel
  obtain ⟨more, same⟩ := quotes
  rw [← same, List.head?_append, first] at h
  exact other (Option.some.inj h).symm

namespace State

/-- Something is set aside only if the end has not been reached. -/
theorem exists_first_of_misplaced {stop : Test} {last : Option Token} {forced : Bool} {depth : Nat}
    {rest : List Token} (h : misplaced stop last forced depth rest ≠ []) :
    ∃ first later, rest = first :: later ∧ ¬first.isEnd := by
  cases rest with
  | nil => exact absurd rfl h
  | cons first later =>
    refine ⟨first, later, rfl, ?_⟩
    intro marks
    rw [misplaced, if_pos marks] at h
    exact h rfl

/-- Taking many tokens adds tokens only. -/
theorem exists_children_shiftMany (count : Nat) (s : State) :
    ∃ tokens : List Token,
      (shiftMany count s).children.toList = s.children.toList ++ tokens.map .token ∧
        (shiftMany count s).kind = s.kind := by
  induction count generalizing s with
  | zero => exact ⟨[], by simp [shiftMany], rfl⟩
  | succ count ih =>
    obtain ⟨tokens, children, kind⟩ := ih s.shift
    rw [shiftMany, children, kind]
    unfold shift
    split
    · rename_i token t taken
      obtain ⟨-, -, same⟩ := take?_eq_some taken
      refine ⟨token :: tokens, ?_, ?_⟩
      · simp [push, take?_children taken]
      · rw [same]
        rfl
    · exact ⟨tokens, rfl, rfl⟩

/-- Unless the end has been reached, the first of them is the current token. -/
theorem exists_children_shiftMany_succ {s : State} {first : Token} {later : List Token}
    (rest : s.rest = first :: later) (inner : ¬first.isEnd) (count : Nat) :
    ∃ more : List Token, (shiftMany (count + 1) s).children.toList =
        s.children.toList ++ List.map .token (first :: more) ∧
      (shiftMany (count + 1) s).kind = s.kind := by
  obtain ⟨more, children, kind⟩ := exists_children_shiftMany count s.shift
  have taken : ∃ t : State, s.take? = some (first, t) := by
    unfold take?
    rw [rest]
    dsimp only
    rw [if_neg inner]
    exact ⟨_, rfl⟩
  obtain ⟨t, taken⟩ := taken
  obtain ⟨-, -, same⟩ := take?_eq_some taken
  have shifted : s.shift = t.push (.token first) := by
    unfold shift
    rw [taken]
  refine ⟨more, ?_, ?_⟩
  · rw [shiftMany, children, shifted]
    simp [push, take?_children taken]
  · rw [shiftMany, kind, shifted, same]
    rfl

/-- The children of the node that is being built end where the tokens that are left start, and none
of these is empty. -/
structure Aligned (base : Nat) (s : State) : Prop where
  offset : s.offset = base + Node.widthAll s.children.toList
  texts : ∀ token ∈ s.rest, ¬token.isEnd → token.text ≠ ""

end State

/-- In a stretch of parsing each new report of unexpected code is grounded in the children, and
those that were grounded still are. -/
structure Explained (base : Nat) (s t : State) : Prop where
  aligned : t.Aligned base
  kept : ∀ report : Report, report.Grounded base s.children.toList →
    report.Grounded base t.children.toList
  reports : ∀ report ∈ t.reports.toList, report ∈ s.reports.toList ∨
    (report.Quotes → report.Grounded base t.children.toList)

/-- A stretch of parsing that explains its reports, wherever the node that is being built begins. -/
def Explains (s t : State) : Prop :=
  ∀ base, s.Aligned base → Explained base s t

namespace Explains

variable {s t u : State}

theorem refl (s : State) : Explains s s :=
  fun _ aligned => ⟨aligned, fun _ h => h, fun _ member => .inl member⟩

theorem trans (first : Explains s t) (second : Explains t u) : Explains s u := by
  intro base aligned
  have before := first base aligned
  have after := second base before.aligned
  refine ⟨after.aligned, fun report h => after.kept report (before.kept report h), ?_⟩
  intro report member
  obtain earlier | now := after.reports report member
  · obtain earliest | then_ := before.reports report earlier
    · exact .inl earliest
    · exact .inr fun quotes => after.kept report (then_ quotes)
  · exact .inr now

/-- Neither the kind of the node that is being built nor the wish for another round matters. -/
theorem of_same (offset : t.offset = s.offset) (rest : t.rest = s.rest)
    (children : t.children = s.children) (reports : t.reports = s.reports) : Explains s t := by
  intro base aligned
  refine ⟨⟨?_, rest ▸ aligned.texts⟩, ?_, ?_⟩
  · rw [offset, children, aligned.offset]
  · rw [children]
    exact fun _ h => h
  · rw [reports]
    exact fun _ member => .inl member

/-- A report that does not speak of unexpected code needs no explanation. -/
theorem say {report : Report} (h : ¬report.Quotes) (s : State) : Explains s (s.say report) := by
  intro base aligned
  refine ⟨⟨aligned.offset, aligned.texts⟩, fun _ h => h, ?_⟩
  intro other member
  obtain earlier | last := List.mem_append.mp (Array.toList_push ▸ member)
  · exact .inl earlier
  · obtain rfl := List.mem_singleton.mp last
    exact .inr fun quotes => absurd quotes h

/-- A token is taken, whatever becomes of the children, as long as it is added at their end. -/
theorem of_take? {token : Token} {children : Array Node} (taken : s.take? = some (token, t))
    (width : Node.widthAll children.toList = Node.widthAll s.children.toList + token.width)
    (kept : ∀ (report : Report) base, report.Grounded base s.children.toList →
      report.Grounded base children.toList) : Explains s { t with children } := by
  obtain ⟨rest, -, same⟩ := State.take?_eq_some taken
  intro base aligned
  refine ⟨⟨?_, ?_⟩, fun report => kept report base, ?_⟩
  · rw [same]
    dsimp only
    rw [width, aligned.offset, Nat.add_assoc]
  · intro other member
    exact aligned.texts other (rest ▸ List.mem_cons_of_mem _ member)
  · rw [same]
    exact fun _ member => .inl member

theorem shift (s : State) : Explains s s.shift := by
  unfold State.shift
  split
  · rename_i token t taken
    refine of_take? taken ?_ ?_
    · simp [State.take?_children taken, Node.widthAll_append, Node.width]
    · intro report base h
      rw [State.take?_children taken, Array.toList_push]
      exact h.append _
  · exact refl s

theorem shiftMany (count : Nat) (s : State) : Explains s (State.shiftMany count s) := by
  induction count generalizing s with
  | zero => exact refl s
  | succ count ih => exact (shift s).trans (ih s.shift)

theorem attach (s : State) : Explains s s.attach := by
  unfold State.attach
  split
  · exact refl s
  · rename_i token t taken
    have children := State.take?_children taken
    split
    · rename_i kind inside back
      obtain ⟨before, equation⟩ := Array.back?_eq_some_iff.mp back
      refine of_take? taken ?_ ?_
      · rw [← children, equation]
        simp [Node.widthAll_append, Node.width, Nat.add_assoc]
      · intro report base h
        rw [← children, equation, Array.toList_push] at h
        rw [equation, Array.pop_push, Array.toList_push]
        exact h.reopen token
    · refine of_take? taken ?_ ?_
      · simp [children, Node.widthAll_append, Node.width]
      · intro report base h
        rw [children, Array.toList_push]
        exact h.append _

/-- What is built inside of a node begins where the tokens are that were left then. -/
theorem leave {kind : NodeKind} (inside : Explains (s.enter kind) t) : Explains s (s.leave t) := by
  intro base aligned
  have entered : (s.enter kind).Aligned s.offset := ⟨rfl, aligned.texts⟩
  have built := inside s.offset entered
  refine ⟨⟨?_, built.aligned.texts⟩, ?_, ?_⟩
  · have offset := built.aligned.offset
    rw [aligned.offset] at offset
    simp [State.leave, Node.widthAll_append, Node.width, offset, Nat.add_assoc]
  · intro report h
    rw [State.leave, Array.toList_push]
    exact h.append _
  · intro report member
    obtain earlier | now := built.reports report member
    · exact .inl earlier
    · refine .inr fun quotes => ?_
      have grounded := now quotes
      rw [aligned.offset] at grounded
      rw [State.leave, Array.toList_push]
      exact grounded.leave t.kind

theorem recover {recovery : Recovery} (place : IsPlace recovery.phrase) (s : State) :
    Explains s (s.recover recovery) := by
  unfold State.recover
  split
  · exact refl s
  · rename_i count length
    have nonempty : State.misplaced recovery.stop s.last recovery.forced 0 s.rest ≠ [] := by
      intro none
      rw [none] at length
      cases length
    obtain ⟨first, later, rest, inner⟩ := State.exists_first_of_misplaced nonempty
    dsimp only
    -- the node that holds what is set aside
    have built : Explains s
        (s.leave (State.shiftMany (count + 1) (s.enter .unexpectedNodes))) := leave (shiftMany _ _)
    have entered : (s.enter .unexpectedNodes).rest = first :: later := rest
    obtain ⟨more, children, kind⟩ : ∃ more,
        (State.shiftMany (count + 1) (s.enter .unexpectedNodes)).children.toList =
          List.map .token (first :: more) ∧
        (State.shiftMany (count + 1) (s.enter .unexpectedNodes)).kind = .unexpectedNodes :=
      State.exists_children_shiftMany_succ entered inner count
    intro base aligned
    have explained := built base aligned
    have text : first.text ≠ "" :=
      aligned.texts first (by rw [rest]; exact List.mem_cons_self) inner
    refine ⟨⟨explained.aligned.offset, explained.aligned.texts⟩, explained.kept, ?_⟩
    intro report member
    obtain earlier | last := List.mem_append.mp (Array.toList_push ▸ member)
    · exact explained.reports report earlier
    · obtain rfl := List.mem_singleton.mp last
      refine .inr fun _ => ?_
      have here : (Node.composite .unexpectedNodes (List.map .token (first :: more))).Holds [] 0
          (.composite .unexpectedNodes (List.map .token (first :: more))) :=
        Node.holds_nil_iff.mpr ⟨rfl, rfl⟩
      refine ⟨.composite .unexpectedNodes (List.map .token (first :: more)),
        Node.widthAll s.children.toList, ?_, ?_, ?_, first, more, [], recovery.phrase, ?_⟩
      · rw [State.say, State.leave, Array.toList_push, kind, children]
        exact .concat s.children.toList here
      · rw [aligned.offset]
      · rw [aligned.offset]
      · refine ⟨by rw [List.append_nil], text, place, ?_⟩
        dsimp only
        rw [children, Node.contentText_eq_content, Node.leaves_composite, Node.leavesAll_map_token]

theorem complain {complaint : Complaint} (head : complaint.message.toList.head? = some 'e')
    (s : State) : Explains s (s.complain complaint) := by
  unfold State.complain
  refine say ?_ s
  exact Report.not_quotes_of_head head (by decide)

theorem close (s : State) (bracket : Bracket) (label : String) (openedAt : Nat) :
    Explains s (s.close bracket label openedAt) := by
  unfold State.close
  split
  · exact shift s
  · refine say ?_ s
    have head : ("expected '" ++ bracket.closing ++ "' to end " ++ label).toList.head? =
        some 'e' := by simp
    exact Report.not_quotes_of_head head (by decide)

/-- Every stretch of parsing explains its reports, as long as complaints do not speak of unexpected
code. -/
theorem restrictedLaw : RestrictedLaw (fun complaint => complaint.message.toList.head? = some 'e')
    (fun recovery => IsPlace recovery.phrase) Explains where
  refl := refl
  trans := trans
  shift := shift
  attach := attach
  recover s _ place := recover place s
  complain s _ head := complain head s
  delimited _ _ inside := (shift _).trans (inside.trans (close _ _ _ _))
  become _ _ := of_same rfl rfl rfl rfl
  ask _ _ := of_same rfl rfl rfl rfl
  node := leave

end Explains

/-- The complaints about an item, whatever list it stands in. -/
theorem complaints_items (context : ItemContext) (owner : NodeKind) :
    (swift (.items context owner)).complaints ⊆
      Rule.declaration.complaints ++ (Rule.extraneousBrace.complaints ++
        (Rule.statement "").complaints) := by
  have anywhere (phrase : String) :
      (Rule.statement phrase).complaints = (Rule.statement "").complaints := rfl
  cases context <;>
    simp [swift, Rule.items, Rule.item, Rule.while_, Rule.when, Rule.nonMember, Rule.complaints,
      anywhere]

/-- All that the Swift grammar complains about. -/
def swiftComplaints : List Complaint :=
  Rule.declaration.complaints ++ (Rule.extraneousBrace.complaints ++
    (Rule.statement "").complaints) ++ (Rule.parameters.complaints ++ Rule.switchCases.complaints)

theorem complaints_swift (goal : Goal) : (swift goal).complaints ⊆ swiftComplaints := by
  cases goal with
  | items context owner =>
    exact fun complaint member => List.mem_append_left _ (complaints_items context owner member)
  | group label => exact List.nil_subset _
  | angles label => exact List.nil_subset _
  | parameters =>
    exact fun complaint member => List.mem_append_right _ (List.mem_append_left _ member)
  | cases =>
    exact fun complaint member => List.mem_append_right _ (List.mem_append_right _ member)
  | conditional =>
    -- an `if` is one of the statements
    intro complaint member
    have among : complaint ∈ (Rule.statement "").complaints := by
      have here : complaint ∈ Rule.conditional.complaints := member
      simp [Rule.statement, Rule.dispatch, Rule.complaints, here]
    exact List.mem_append_left _ (List.mem_append_right _ (List.mem_append_right _ among))

theorem head?_message_swift (goal : Goal) :
    ∀ complaint ∈ (swift goal).complaints, complaint.message.toList.head? = some 'e' := by
  have all : ∀ complaint ∈ swiftComplaints, complaint.message.toList.head? = some 'e' := by
    decide +kernel
  exact fun complaint member => all complaint (complaints_swift goal member)

theorem phrases_items (context : ItemContext) (owner : NodeKind) :
    (swift (.items context owner)).recoveries.map Recovery.phrase =
      ["in function", context.phrase owner] := by
  cases context <;> rfl

theorem isPlace_phrase (context : ItemContext) (owner : NodeKind) :
    IsPlace (context.phrase owner) := by
  unfold ItemContext.phrase
  split
  · exact .inl rfl
  · exact .inr ⟨owner, rfl⟩

theorem isPlace_swift (goal : Goal) :
    ∀ recovery ∈ (swift goal).recoveries, IsPlace recovery.phrase := by
  suffices h : ∀ phrase ∈ (swift goal).recoveries.map Recovery.phrase, IsPlace phrase from
    fun recovery member => h _ (List.mem_map_of_mem member)
  cases goal with
  | items context owner =>
    have function : "in function" = "in " ++ NodeKind.description .functionDecl := by decide +kernel
    rw [phrases_items, function, List.forall_mem_cons, List.forall_mem_singleton]
    exact ⟨.inr ⟨.functionDecl, rfl⟩, isPlace_phrase context owner⟩
  | parameters =>
    have phrases : (swift .parameters).recoveries.map Recovery.phrase =
      ["in " ++ NodeKind.description .parameterClause] := by decide +kernel
    rw [phrases, List.forall_mem_singleton]
    exact .inr ⟨.parameterClause, rfl⟩
  | cases =>
    have phrases : (swift .cases).recoveries.map Recovery.phrase =
      ["in " ++ NodeKind.description .switchExpr] := by decide +kernel
    rw [phrases, List.forall_mem_singleton]
    exact .inr ⟨.switchExpr, rfl⟩
  | group label => exact nofun
  | angles label => exact nofun
  | conditional => exact nofun

/-- Every report of unexpected code is about a node among the items. -/
theorem grounded_parseItems {tokens : List Token}
    (texts : ∀ token ∈ tokens, ¬token.isEnd → token.text ≠ "") (context : ItemContext)
    (owner : NodeKind) {report : Report}
    (reported : report ∈ (parseItems context owner tokens).reports.toList)
    (quotes : report.Quotes) :
    report.Grounded 0 (parseItems context owner tokens).children.toList := by
  have explains := Explains.restrictedLaw.pursue head?_message_swift isPlace_swift
    (tokens.length + 1) (.items context owner) (State.start .sourceFile tokens)
  obtain earlier | now := (explains 0 ⟨rfl, texts⟩).reports report reported
  · cases earlier
  · exact now quotes

end SwiftTree.Grammar
