import SwiftTree.Parse
import SwiftTree.Proofs.Grammar.Items
import SwiftTree.Proofs.Token.Tiling

/-!
# Parsing is lossless

The grammar conserves tokens, and the list of items at top level goes on to the end of the tokens.
So a parsed tree consists of the items and the token that marks the end, its leaves are the tokens
of the text, and its text is the text that was parsed, whatever is wrong with it.
-/

namespace SwiftTree

namespace EndsOnce

/-- Taking tokens in front of the last leaves tokens that end once. -/
theorem of_append {taken rest : List Token} (h : EndsOnce (taken ++ rest))
    (inner : ∀ token ∈ taken, ¬token.isEnd) : EndsOnce rest := by
  induction taken with
  | nil => exact h
  | cons token taken ih =>
    apply ih _ fun other member => inner other (List.mem_cons_of_mem _ member)
    obtain ⟨before, last, split, marks, others⟩ := h
    cases before with
    | nil =>
      obtain ⟨rfl, -⟩ := List.cons.inj split
      exact absurd marks (inner token List.mem_cons_self)
    | cons first before =>
      obtain ⟨-, split⟩ := List.cons.inj split
      exact ⟨before, last, split, marks, fun other member =>
        others other (List.mem_cons_of_mem _ member)⟩

/-- Only the last token is left where the end has been reached. -/
theorem eq_last {rest : List Token} (h : EndsOnce rest)
    (atEnd : Grammar.currentKind rest = .endOfFile) : ∃ last, rest = [last] ∧ last.isEnd := by
  obtain ⟨before, last, rfl, marks, others⟩ := h
  cases before with
  | nil => exact ⟨last, rfl, marks⟩
  | cons token before =>
    have ends : token.isEnd := by simpa [Grammar.currentKind, Token.isEnd] using atEnd
    exact absurd ends (others token List.mem_cons_self)

end EndsOnce

namespace Grammar

/-- The items at top level are collected in one node, which takes all tokens but the last. -/
theorem parseItems_topLevel {tokens : List Token} (ends : EndsOnce tokens) :
    ∃ items last, (parseItems .topLevel .sourceFile tokens).children.toList = [items] ∧
      (parseItems .topLevel .sourceFile tokens).rest = [last] ∧ last.isEnd ∧
      tokens = items.leaves ++ [last] ∧ ∀ token ∈ items.leaves, ¬token.isEnd := by
  have goals := Advances.stepLaw.pursue swift tokens.length
  obtain ⟨taken, takes⟩ := Advances.stepLaw.pursue swift (tokens.length + 1)
    (.items .topLevel .sourceFile) (State.start .sourceFile tokens)
  have exit := (Rule.consumes_round .topLevel .sourceFile).while_exit goals 0
    ((State.start .sourceFile tokens).enter .codeBlockItemList) (Nat.lt_succ_self tokens.length)
  simp only [ItemContext.goesOn, Test.holds_not, Bool.not_eq_true', Bool.not_eq_false, Test.atEnd,
    Test.holds_kind] at exit
  have left : EndsOnce (parseItems .topLevel .sourceFile tokens).rest :=
    EndsOnce.of_append (takes.rest ▸ ends) takes.inner
  obtain ⟨last, rest, marks⟩ := left.eq_last exit
  obtain ⟨items, children⟩ : ∃ items,
      (parseItems .topLevel .sourceFile tokens).children.toList = [items] := ⟨_, rfl⟩
  have leaves : items.leaves = taken := by
    have all : Node.leavesAll (parseItems .topLevel .sourceFile tokens).children.toList = taken :=
      takes.leaves
    rwa [children, Node.leavesAll_cons, Node.leavesAll_nil, List.append_nil] at all
  have split : tokens = taken ++ (parseItems .topLevel .sourceFile tokens).rest := takes.rest
  exact ⟨items, last, children, rest, marks, by rw [leaves, ← rest, ← split],
    leaves ▸ takes.inner⟩

end Grammar

/-- Only the token that marks the end follows the items of a parsed text. -/
theorem root_parse (identity text : String) :
    ∃ items last, (parse identity text).tree.root = .composite .sourceFile [items, .token last] ∧
      last.isEnd ∧ lex text = items.leaves ++ [last] ∧ ∀ token ∈ items.leaves, ¬token.isEnd := by
  obtain ⟨items, last, children, rest, marks, tokens, inner⟩ :=
    Grammar.parseItems_topLevel (endsOnce_lex text)
  refine ⟨items, last, ?_, marks, tokens, inner⟩
  unfold parse
  dsimp only
  rw [children, rest]
  rfl

/-- What the grammar makes of the tokens of a text comes first below the root. -/
theorem eq_of_root_parse {identity text : String} {first list : Node} {last : Token}
    (root : (parse identity text).tree.root = .composite .sourceFile [first, .token last])
    (children : (Grammar.parseItems .topLevel .sourceFile (lex text)).children.toList = [list]) :
    first = list := by
  have same : (parse identity text).tree.root.children.head? = some first := by
    rw [root]
    rfl
  unfold parse at same
  dsimp only [Node.children] at same
  rw [children] at same
  exact (Option.some.inj same).symm

theorem leaves_parse (identity text : String) :
    (parse identity text).tree.root.leaves = lex text := by
  obtain ⟨items, last, root, -, tokens, -⟩ := root_parse identity text
  rw [root, tokens]
  simp

/-- The leaves of a parsed tree are the tokens of the text in their order, with the token that marks
the end once and last, and the tree gives back the text. -/
theorem parse_lossless (identity text : String) :
    (parse identity text).tree.root.leaves = lex text ∧
      (∃ items last, (parse identity text).tree.root = .composite .sourceFile [items, .token last] ∧
        last.isEnd ∧ ∀ token ∈ items.leaves, ¬token.isEnd) ∧
      (parse identity text).tree.render = text := by
  refine ⟨leaves_parse identity text, ?_, ?_⟩
  · obtain ⟨items, last, root, marks, -, inner⟩ := root_parse identity text
    exact ⟨items, last, root, marks, inner⟩
  · rw [Tree.render, Node.render_eq_leaves, leaves_parse, renderAll_lex]

end SwiftTree
