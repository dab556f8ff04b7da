import Mathlib.Data.List.Forall2
import SwiftTree.Proofs.Grammar.Sight
import SwiftTree.Proofs.Parse.Lossless

/-!
# Parsing does not depend on layout

Layout is what stands between the tokens. Of it the grammar sees only where lines begin and which
tokens touch. So two texts with the same tokens that agree on these two facts are parsed alike: the
trees have the same shape with corresponding tokens in the same places, and the grammar complains
about the same things in the same order.

Positions do differ between the two texts, and so does code that is quoted in a message with the
trivia inside of it.
-/

namespace SwiftTree

namespace Token

def bare (token : Token) : Token :=
  { token with leading := [], trailing := [] }

theorem bare_eq_bare_iff {a b : Token} : a.bare = b.bare ↔ a.kind = b.kind ∧ a.text = b.text := by
  simp [bare]

/-- Whether a line ends between two neighbouring tokens. -/
def breaksBetween (before after : Token) : Bool :=
  after.leading.breaksLine || before.trailing.breaksLine

/-- Whether nothing stands between two neighbouring tokens. -/
def touches (before after : Token) : Bool :=
  after.leading.isEmpty && before.trailing.isEmpty

/-- What the grammar sees of the gap between each token and the next. -/
def gaps : List Token → List (Bool × Bool)
  | before :: after :: rest =>
    (breaksBetween before after, touches before after) :: gaps (after :: rest)
  | _ => []

end Token

/-- The tokens have the same kinds and texts, and the same gaps as far as they can be seen. -/
structure SameLayout (as bs : List Token) : Prop where
  tokens : as.map Token.bare = bs.map Token.bare
  gaps : Token.gaps as = Token.gaps bs

namespace Node

mutual

/-- The node with the trivia of all its tokens left out: its shape, with kind and text of the token
at each place. -/
def bare : Node → Node
  | token t => token t.bare
  | composite kind children => composite kind (bareAll children)

def bareAll : List Node → List Node
  | [] => []
  | node :: rest => bare node :: bareAll rest

end

@[simp] theorem bareAll_eq_map (nodes : List Node) : bareAll nodes = nodes.map bare := by
  induction nodes with
  | nil => rfl
  | cons node rest ih => rw [bareAll, ih, List.map_cons]

@[simp] theorem bare_token (t : Token) : (token t).bare = token t.bare := by
  rw [bare]

@[simp] theorem bare_composite (kind : NodeKind) (children : List Node) :
    (composite kind children).bare = composite kind (children.map bare) := by
  rw [bare, bareAll_eq_map]

end Node

/-- The same complaint about two texts. Messages differ only in the code that they quote. -/
structure Diagnostic.Alike (d e : Diagnostic) : Prop where
  severity : d.severity = e.severity
  fixIts : d.fixIts.length = e.fixIts.length
  notes : d.notes.length = e.notes.length
  message : d.message = e.message ∨ ∃ code code' phrase,
    d.message = "unexpected code '" ++ code ++ "' " ++ phrase ∧
      e.message = "unexpected code '" ++ code' ++ "' " ++ phrase

namespace Grammar

/-- Two states of parsing that differ in trivia only. -/
structure SameShape (s t : State) : Prop where
  sight : SameSight s.last s.rest t.last t.rest
  taken : s.taken = t.taken
  kind : s.kind = t.kind
  children : s.children.map Node.bare = t.children.map Node.bare
  reports : List.Forall₂ Diagnostic.Alike (s.reports.toList.map Report.diagnostic)
    (t.reports.toList.map Report.diagnostic)
  again : s.again = t.again

namespace SameShape

variable {s t : State}

/-- Both inputs are at the end, or the same token is taken from both. -/
theorem take? (h : SameShape s t) :
    (s.take? = none ∧ t.take? = none) ∨
      ∃ a b s' t', s.take? = some (a, s') ∧ t.take? = some (b, t') ∧ a.bare = b.bare ∧
        SameShape s' t' := by
  have sight := h.sight
  unfold State.take?
  generalize hs : s.rest = ts at sight
  generalize ht : t.rest = us at sight
  cases sight with
  | nil => exact .inl ⟨rfl, rfl⟩
  | @cons _ _ a b _ _ last kind text line glue later =>
    have ends : a.isEnd = b.isEnd := by rw [Token.isEnd, Token.isEnd, kind]
    dsimp only
    rw [ends]
    split
    · exact .inl ⟨rfl, rfl⟩
    · refine .inr ⟨_, _, _, _, rfl, rfl, Token.bare_eq_bare_iff.mpr ⟨kind, text⟩, ?_⟩
      exact ⟨later, congrArg (· + 1) h.taken, h.kind, h.children, h.reports, h.again⟩

theorem push (h : SameShape s t) {m n : Node} (same : m.bare = n.bare) :
    SameShape (s.push m) (t.push n) :=
  ⟨h.sight, h.taken, h.kind, by simp [State.push, h.children, same], h.reports, h.again⟩

theorem shift (h : SameShape s t) : SameShape s.shift t.shift := by
  unfold State.shift
  obtain ⟨hs, ht⟩ | ⟨a, b, s', t', hs, ht, same, after⟩ := h.take?
  · rw [hs, ht]
    exact h
  · rw [hs, ht]
    exact after.push (by simp [same])

theorem shiftMany (h : SameShape s t) (count : Nat) :
    SameShape (State.shiftMany count s) (State.shiftMany count t) := by
  induction count generalizing s t with
  | zero => exact h
  | succ count ih => exact ih h.shift

/-- The children built last are alike, so the token goes into both or into neither. -/
theorem attach (h : SameShape s t) : SameShape s.attach t.attach := by
  unfold State.attach
  obtain ⟨hs, ht⟩ | ⟨a, b, s', t', hs, ht, same, after⟩ := h.take?
  · rw [hs, ht]
    exact h
  · rw [hs, ht]
    dsimp only
    have back : s'.children.back?.map Node.bare = t'.children.back?.map Node.bare := by
      rw [← Array.back?_map, ← Array.back?_map, after.children]
    have aside : SameShape (s'.push (.composite .unexpectedNodes [.token a]))
        (t'.push (.composite .unexpectedNodes [.token b])) := after.push (by simp [same])
    generalize s'.children.back? = x at back ⊢
    generalize t'.children.back? = y at back ⊢
    rcases x with _ | ⟨⟨_⟩ | ⟨kind, inside⟩⟩ <;> rcases y with _ | ⟨⟨_⟩ | ⟨kind', inside'⟩⟩ <;>
      simp only [Option.map_none, Option.map_some, Node.bare_token, Node.bare_composite,
        Option.some.injEq, Node.composite.injEq, reduceCtorEq] at back
    · exact aside
    · exact aside
    · obtain ⟨rfl, inside⟩ := back
      refine ⟨after.sight, after.taken, after.kind, ?_, after.reports, after.again⟩
      simp [after.children, inside, same]

theorem say (h : SameShape s t) {m n : Report} (alike : m.diagnostic.Alike n.diagnostic) :
    SameShape (s.say m) (t.say n) := by
  refine ⟨h.sight, h.taken, h.kind, h.children, ?_, h.again⟩
  simp only [State.say, Array.toList_push, List.map_append]
  exact List.rel_append h.reports (.cons alike .nil)

theorem enter (h : SameShape s t) (kind : NodeKind) : SameShape (s.enter kind) (t.enter kind) :=
  ⟨h.sight, h.taken, rfl, rfl, h.reports, h.again⟩

theorem leave {i j : State} (outer : SameShape s t) (inner : SameShape i j) :
    SameShape (s.leave i) (t.leave j) := by
  have inside : i.children.toList.map Node.bare = j.children.toList.map Node.bare := by
    rw [← Array.toList_map, ← Array.toList_map, inner.children]
  refine ⟨inner.sight, inner.taken, outer.kind, ?_, inner.reports, inner.again⟩
  simp [State.leave, outer.children, inner.kind, inside]

/-- A misspelled keyword is recognised by kind and text of the current token. -/
theorem length_suggestions (h : SameShape s t) : s.suggestions.length = t.suggestions.length := by
  have sight := h.sight
  unfold State.suggestions
  generalize s.rest = ts at sight
  generalize t.rest = us at sight
  cases sight with
  | nil => rfl
  | @cons _ _ a b _ _ last kind text =>
    dsimp only
    rw [kind, text]
    split
    · split <;> rfl
    · rfl

theorem recover (h : SameShape s t) (recovery : Recovery) :
    SameShape (s.recover recovery) (t.recover recovery) := by
  unfold State.recover
  rw [h.sight.length_misplaced]
  split
  · exact h
  · rename_i count _
    apply (h.leave ((h.enter .unexpectedNodes).shiftMany (count + 1))).say
    refine ⟨rfl, ?_, rfl, .inr ⟨_, _, recovery.phrase, rfl, rfl⟩⟩
    dsimp only
    split
    · exact h.length_suggestions
    · rfl

theorem complain (h : SameShape s t) (complaint : Complaint) :
    SameShape (s.complain complaint) (t.complain complaint) := by
  apply h.say
  exact ⟨rfl, by simp, rfl, .inl rfl⟩

theorem close (h : SameShape s t) (bracket : Bracket) (label : String) (i j : Nat) :
    SameShape (s.close bracket label i) (t.close bracket label j) := by
  unfold State.close
  rw [h.sight.currentKind]
  split
  · exact h.shift
  · exact h.say ⟨rfl, rfl, rfl, .inl rfl⟩

/-- States that differ in trivia only do so after every run. -/
theorem correspondence : Correspondence SameShape where
  holds h test := h.sight.holds test
  taken := taken
  again := again
  shift := shift
  attach := attach
  recover recovery h := h.recover recovery
  complain complaint h := h.complain complaint
  close bracket label i j h := h.close bracket label i j
  become _ h := ⟨h.sight, h.taken, rfl, h.children, h.reports, h.again⟩
  ask _ h := ⟨h.sight, h.taken, h.kind, h.children, h.reports, rfl⟩
  enter kind h := h.enter kind
  leave := leave

end SameShape

theorem SameSight.map_bare {a b : Option Token} {ts us : List Token} (h : SameSight a ts b us) :
    ts.map Token.bare = us.map Token.bare := by
  induction h with
  | nil => rfl
  | cons last kind text line glue later ih =>
    rw [List.map_cons, List.map_cons, ih, Token.bare_eq_bare_iff.mpr ⟨kind, text⟩]

/-- Looking up the node of a report changes nothing else of it. -/
theorem Report.alike_resolve {m n : Report} (h : m.diagnostic.Alike n.diagnostic)
    (sites sites' : List Site) : (m.resolve sites).Alike (n.resolve sites') := by
  have resolved (report : Report) (sites : List Site) :
      ∃ node, report.resolve sites = { report.diagnostic with node } := by
    unfold Report.resolve
    split
    · exact ⟨_, rfl⟩
    · split <;> exact ⟨_, rfl⟩
  obtain ⟨node, hm⟩ := resolved m sites
  obtain ⟨node', hn⟩ := resolved n sites'
  rw [hm, hn]
  exact ⟨h.severity, h.fixIts, h.notes, h.message⟩

theorem Report.alike_resolveAll {ms ns : List Report}
    (h : List.Forall₂ Diagnostic.Alike (ms.map Report.diagnostic) (ns.map Report.diagnostic))
    (tree tree' : Tree) :
    List.Forall₂ Diagnostic.Alike (Report.resolveAll tree ms) (Report.resolveAll tree' ns) := by
  have listed (tree : Tree) (reports : List Report) :
      Report.resolveAll tree reports = reports.map fun report => report.resolve tree.sites := by
    cases reports <;> rfl
  rw [listed, listed, List.forall₂_map_left_iff, List.forall₂_map_right_iff]
  rw [List.forall₂_map_left_iff, List.forall₂_map_right_iff] at h
  exact h.imp fun _ _ alike => Report.alike_resolve alike _ _

end Grammar

namespace SameLayout

open Grammar

/-- Behind the first token, the two lists look alike. -/
theorem sight_some {a b : Token} {as bs : List Token} (h : SameLayout (a :: as) (b :: bs)) :
    SameSight (some a) as (some b) bs := by
  induction as generalizing a b bs with
  | nil =>
    obtain ⟨same, empty⟩ := List.cons.inj h.tokens
    obtain rfl : bs = [] := by simpa using empty.symm
    exact .nil (congrArg some (Token.bare_eq_bare_iff.mp same).1)
  | cons a' as ih =>
    cases bs with
    | nil => simpa using congrArg List.length h.tokens
    | cons b' bs =>
      obtain ⟨same, tokens⟩ := List.cons.inj h.tokens
      obtain ⟨gap, gaps⟩ := List.cons.inj h.gaps
      obtain ⟨same', -⟩ := List.cons.inj tokens
      obtain ⟨kind, text⟩ := Token.bare_eq_bare_iff.mp same'
      obtain ⟨line, glue⟩ := Prod.mk.inj gap
      exact .cons (congrArg some (Token.bare_eq_bare_iff.mp same).1) kind text line glue
        (ih ⟨tokens, gaps⟩)

/-- In front of all tokens there is neither a line nor a token to be glued to. -/
theorem sight {as bs : List Token} (h : SameLayout as bs) : SameSight none as none bs := by
  cases as with
  | nil =>
    obtain rfl : bs = [] := by simpa using h.tokens.symm
    exact .nil rfl
  | cons a as =>
    cases bs with
    | nil => simpa using congrArg List.length h.tokens
    | cons b bs =>
      obtain ⟨same, -⟩ := List.cons.inj h.tokens
      obtain ⟨kind, text⟩ := Token.bare_eq_bare_iff.mp same
      exact .cons rfl kind text rfl rfl h.sight_some

theorem parseItems {as bs : List Token} (h : SameLayout as bs) (context : ItemContext)
    (owner : NodeKind) :
    SameShape (parseItems context owner as) (parseItems context owner bs) := by
  have length : as.length = bs.length := by simpa using congrArg List.length h.tokens
  have start : SameShape (State.start .sourceFile as) (State.start .sourceFile bs) :=
    ⟨h.sight, rfl, rfl, rfl, .nil, rfl⟩
  unfold Grammar.parseItems
  rw [length]
  exact SameShape.correspondence.pursue swift _ _ start

theorem trans {as bs cs : List Token} (h : SameLayout as bs) (h' : SameLayout bs cs) :
    SameLayout as cs :=
  ⟨h.tokens.trans h'.tokens, h.gaps.trans h'.gaps⟩

end SameLayout

/-- Texts with the same layout have trees of the same shape. -/
theorem SameLayout.bare_parse {identity identity' text text' : String}
    (h : SameLayout (lex text) (lex text')) :
    (parse identity text).tree.root.bare = (parse identity' text').tree.root.bare := by
  have same := h.parseItems .topLevel .sourceFile
  have children := congrArg Array.toList same.children
  have rest := congrArg (List.map Node.token) same.sight.map_bare
  have through : Node.bare ∘ Node.token = Node.token ∘ Token.bare := funext Node.bare_token
  simp only [Array.toList_map, List.map_map] at children rest
  simp only [parse, Node.bare_composite, List.map_append, List.map_map, children, through, rest]

/-- Texts with the same layout are parsed to trees of the same shape, whose leaves are the tokens of
the two texts in order, with the same complaints of the grammar after those about single tokens. -/
theorem parse_layout_insensitive (identity identity' text text' : String)
    (h : SameLayout (lex text) (lex text')) :
    (parse identity text).tree.root.bare = (parse identity' text').tree.root.bare ∧
      (parse identity text).tree.root.leaves = lex text ∧
      (parse identity' text').tree.root.leaves = lex text' ∧
      ∃ complaints complaints',
        (parse identity text).diagnostics = lexDiagnostics (lex text) ++ complaints ∧
          (parse identity' text').diagnostics = lexDiagnostics (lex text') ++ complaints' ∧
          List.Forall₂ Diagnostic.Alike complaints complaints' := by
  have same := h.parseItems .topLevel .sourceFile
  refine ⟨h.bare_parse, leaves_parse _ _, leaves_parse _ _, _, _, rfl, rfl, ?_⟩
  exact Grammar.Report.alike_resolveAll same.reports _ _

/-- A misspelled keyword among members, laid out with single spaces and with other trivia. -/
theorem parse_layout_insensitive_misspelled :
    SameLayout (lex "struct S \x7b fucn f() \x7d") (lex "struct\tS /**/ \x7b\tfucn  f() /**/\x7d") ∧
      (parse "a" "struct S \x7b fucn f() \x7d").tree.root.bare =
        (parse "b" "struct\tS /**/ \x7b\tfucn  f() /**/\x7d").tree.root.bare := by
  have same : SameLayout (lex "struct S \x7b fucn f() \x7d")
      (lex "struct\tS /**/ \x7b\tfucn  f() /**/\x7d") :=
    ⟨by decide +kernel, by decide +kernel⟩
  exact ⟨same, (parse_layout_insensitive "a" "b" _ _ same).1⟩

end SwiftTree
