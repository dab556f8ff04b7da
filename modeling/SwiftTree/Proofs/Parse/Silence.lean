import SwiftTree.Proofs.Grammar.Tidiness
import SwiftTree.Proofs.Parse.Lossless

/-!
# Texts that nothing is said about

If a text has no diagnostics, its tokens are as they should be and the grammar has placed all of
them, with two exceptions. A single backquote is a token of no known kind that is not reported, and
semicolons at the start of a list of items are set aside without a word.
-/

namespace SwiftTree

namespace Grammar.Report

theorem resolveAll_eq_nil_iff {tree : Tree} {reports : List Report} :
    resolveAll tree reports = [] ↔ reports = [] := by
  cases reports with
  | nil => exact iff_of_true rfl rfl
  | cons report rest => exact iff_of_false (List.cons_ne_nil _ _) (List.cons_ne_nil _ _)

end Grammar.Report

/-- Diagnostics come from the tokens and from the grammar. -/
theorem diagnostics_eq_nil_iff (identity text : String) :
    (parse identity text).diagnostics = [] ↔ lexDiagnostics (lex text) = [] ∧
      (Grammar.parseItems .topLevel .sourceFile (lex text)).reports = #[] := by
  rw [← Array.toList_eq_nil_iff, ← Grammar.Report.resolveAll_eq_nil_iff]
  exact List.append_eq_nil_iff

namespace Lexer

/-- Of the tokens of no known kind, only a backquote is passed over. -/
theorem text_of_unknown {offset : Nat} {tokens : List Token}
    (silent : diagnosticsFrom offset tokens = []) :
    ∀ token ∈ tokens, token.kind = .unknown → token.text = "`" := by
  induction tokens generalizing offset with
  | nil => exact List.forall_mem_nil _
  | cons token rest ih =>
    obtain ⟨here, later⟩ := List.append_eq_nil_iff.mp silent
    refine List.forall_mem_cons.mpr ⟨?_, ih later⟩
    intro unknown
    obtain ⟨-, here⟩ := List.append_eq_nil_iff.mp here
    obtain ⟨text, -⟩ := List.append_eq_nil_iff.mp here
    rw [textDiagnostic?, unknown] at text
    dsimp only at text
    split at text
    · rename_i backquote
      exact beq_iff_eq.mp backquote
    · cases text

end Lexer

/-- The lists of items are the nodes of two kinds. -/
theorem itemList_of_holding {kind : NodeKind}
    (h : kind.holding = .codeItems ∨ kind.holding = .members) :
    kind = .codeBlockItemList ∨ kind = .memberBlockItemList := by
  cases kind <;> simp [NodeKind.holding] at h ⊢

/-- Nothing in the tree of a silent text has been set aside, except for semicolons. -/
theorem tidy_of_silent {identity text : String} (silent : (parse identity text).diagnostics = []) :
    (parse identity text).tree.root.Everywhere Node.Tidy := by
  obtain ⟨-, quiet⟩ := (diagnostics_eq_nil_iff identity text).mp silent
  obtain ⟨items, children, -⟩ := Grammar.exists_items .topLevel .sourceFile (lex text)
  have tidy := Grammar.tidy_parseItems quiet
  obtain ⟨_, last, only, rest, -⟩ := Grammar.parseItems_topLevel (endsOnce_lex text)
  have root : (parse identity text).tree.root =
      .composite .sourceFile [.composite .codeBlockItemList items, .token last] := by
    unfold parse
    dsimp only
    rw [children, rest]
    rfl
  rw [children, List.forall_mem_singleton] at tidy
  rw [root, Node.everywhere_composite, List.forall_mem_cons, List.forall_mem_singleton]
  have list : (Node.composite .codeBlockItemList items).kind? ≠ some .unexpectedNodes := nofun
  exact ⟨.concat (.concat (.nil _) list) nofun, tidy, (Node.everywhere_token last).mpr trivial⟩

/-- If nothing is said about a text, then all that has been set aside in its tree are semicolons,
and these stand in front of the first item of a list of items; and all tokens of no known kind are
single backquotes. -/
theorem silent_text_in_place (identity text : String)
    (silent : (parse identity text).diagnostics = []) :
    (∀ trail node, (parse identity text).tree.at? trail = some node →
      node.kind? = some .unexpectedNodes →
        node.HoldsSemicolons ∧ ∃ parent kind items, trail = parent ++ [0] ∧
          (parse identity text).tree.at? parent = some (.composite kind items) ∧
          (kind = .codeBlockItemList ∨ kind = .memberBlockItemList)) ∧
      ∀ token ∈ (parse identity text).tree.root.leaves,
        token.kind = .unknown → token.text = "`" := by
  constructor
  · intro trail node found aside
    obtain rfl | ⟨parent, index, rfl⟩ := List.eq_nil_or_concat' trail
    · obtain ⟨items, last, root, -⟩ := root_parse identity text
      obtain rfl := Option.some.inj found
      rw [root] at aside
      cases aside
    · obtain ⟨above, here, below⟩ := Node.at?_concat_eq_some.mp found
      have tidy := tidy_of_silent silent parent above here
      cases above with
      | token t => cases below
      | composite kind items =>
        obtain ⟨rfl, holding, semicolons⟩ := tidy index node below aside
        exact ⟨semicolons, parent, kind, items, rfl, here, itemList_of_holding holding⟩
  · obtain ⟨tokens, -⟩ := (diagnostics_eq_nil_iff identity text).mp silent
    rw [leaves_parse]
    exact Lexer.text_of_unknown tokens

/-- Semicolons in front of the first member of a structure, and a backquote as an initial value. -/
theorem silent_text_in_place_among_members :
    (parse "a" "struct S \x7b\n  ;;\n  var a = `\n\x7d").diagnostics = [] ∧
      (∃ node, (parse "a" "struct S \x7b\n  ;;\n  var a = `\n\x7d").tree.at? [0, 0, 2, 1, 0] =
        some node ∧ node.kind? = some .unexpectedNodes ∧ node.HoldsSemicolons) ∧
      ∃ token ∈ (parse "a" "struct S \x7b\n  ;;\n  var a = `\n\x7d").tree.root.leaves,
        token.kind = .unknown ∧ token.text = "`" := by
  have silent : (parse "a" "struct S \x7b\n  ;;\n  var a = `\n\x7d").diagnostics = [] := by
    decide +kernel
  obtain ⟨aside, unknown⟩ := silent_text_in_place "a" _ silent
  have here : ((parse "a" "struct S \x7b\n  ;;\n  var a = `\n\x7d").tree.at?
      [0, 0, 2, 1, 0]).bind Node.kind? = some .unexpectedNodes := by decide +kernel
  have among : (parse "a" "struct S \x7b\n  ;;\n  var a = `\n\x7d").tree.root.leaves.any
      fun token => token.kind = .unknown := by decide +kernel
  obtain ⟨node, found, kind⟩ := Option.bind_eq_some_iff.mp here
  obtain ⟨token, member, no_kind⟩ := List.any_eq_true.mp among
  have no_kind := of_decide_eq_true no_kind
  exact ⟨silent, ⟨node, found, kind, (aside _ node found kind).1⟩,
    token, member, no_kind, unknown token member no_kind⟩

/-- Not all that is set aside is reported, and not all tokens of no known kind are. -/
theorem set_aside_in_silence :
    (¬∀ identity text, (parse identity text).diagnostics = [] →
      ∀ trail node, (parse identity text).tree.at? trail = some node →
        node.kind? ≠ some .unexpectedNodes) ∧
    ¬∀ identity text, (parse identity text).diagnostics = [] →
      ∀ token ∈ (parse identity text).tree.root.leaves, token.kind ≠ .unknown := by
  constructor
  · intro clean
    have semicolon : ((parse "a" ";").tree.at? [0, 0]).bind Node.kind? = some .unexpectedNodes := by
      decide +kernel
    obtain ⟨node, found, kind⟩ := Option.bind_eq_some_iff.mp semicolon
    exact clean "a" ";" (by decide +kernel) [0, 0] node found kind
  · intro clean
    exact absurd (clean "a" "`" (by decide +kernel)) (by decide +kernel)

end SwiftTree
