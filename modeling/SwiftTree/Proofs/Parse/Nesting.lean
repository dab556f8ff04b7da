import SwiftTree.Proofs.Grammar.Nesting
import SwiftTree.Proofs.Parse.Silence

/-!
# Brackets in texts that nothing is said about

If a text has no diagnostics, its brackets are nested, unless the generic requirements of some
declaration hold brackets that are not. What is wrong there can only be that brackets are closed
which are not open.
-/

namespace SwiftTree

open Grammar (Nested Excess)

/-- The token that marks the end is no bracket. -/
theorem plain_of_isEnd {token : Token} (marks : token.isEnd) : Grammar.IsPlain token.kind := by
  have kind : token.kind = .endOfFile := by simpa [Token.isEnd] using marks
  rw [kind]
  decide

/-- The tree of a text has nested requirements if the grammar has built no others. -/
theorem requirementsNested_parse (identity text : String) :
    (parse identity text).tree.root.Everywhere Node.RequirementsNested ↔
      (Grammar.parseItems .topLevel .sourceFile (lex text)).RequirementsNested := by
  have leaf (token : Token) : (Node.token token).Everywhere Node.RequirementsNested :=
    (Node.everywhere_token token).mpr nofun
  unfold parse
  rw [Node.everywhere_composite, List.forall_mem_append, List.forall_mem_map]
  exact ⟨fun h => h.2.1, fun h => ⟨nofun, h, fun token _ => leaf token⟩⟩

/-- If nothing is said about a text, its brackets are nested exactly if those in all generic
requirements are; and if they are not, more brackets are closed than opened. -/
theorem silent_brackets_nested_iff (identity text : String)
    (silent : (parse identity text).diagnostics = []) :
    (Nested (lex text) ↔ ∀ trail node, (parse identity text).tree.at? trail = some node →
      node.kind? = some .genericWhereClause → Nested node.leaves) ∧
      (Nested (lex text) ∨ Excess (lex text)) := by
  obtain ⟨-, quiet⟩ := (diagnostics_eq_nil_iff identity text).mp silent
  obtain ⟨-, last, -, rest, marks, -⟩ := Grammar.parseItems_topLevel (endsOnce_lex text)
  have run := Grammar.nests_pursue ((lex text).length + 1) (.items .topLevel .sourceFile)
    (s := Grammar.State.start .sourceFile (lex text)) (Grammar.mem_all_tokenKinds _)
  obtain ⟨tokens, takes, nested⟩ := run.silent (congrArg Array.size quiet)
  have split : lex text = tokens ++ [last] := by
    rw [← rest]
    exact takes.rest
  have plain := plain_of_isEnd marks
  have fresh : (Grammar.State.start .sourceFile (lex text)).RequirementsNested := nofun
  have everywhere := requirementsNested_parse identity text
  rw [split, Nested.append_plain_iff plain.1 plain.2]
  obtain ⟨nested, same⟩ | ⟨excess, blame⟩ := nested
  · exact ⟨iff_of_true nested (everywhere.mpr (same.mpr fresh)), .inl nested⟩
  · have blame := blame.resolve_left Bool.false_ne_true
    have none_closed : Grammar.Bracket.openings [last] ≤ Grammar.Bracket.closings [last] := by
      rw [Grammar.Bracket.openings_singleton, plain.1]
      exact Nat.zero_le _
    refine ⟨iff_of_false (fun nested => nested.not_excess excess) (mt everywhere.mp blame), ?_⟩
    exact .inr (excess.append_left none_closed)

/-- A structure with brackets in its requirements. -/
theorem silent_brackets_nested_iff_structure :
    (parse "a" "struct S where T: P<(T, [T])> \x7b\x7d").diagnostics = [] ∧
      Nested (lex "struct S where T: P<(T, [T])> \x7b\x7d") ∧
      ∃ node, (parse "a" "struct S where T: P<(T, [T])> \x7b\x7d").tree.at? [0, 0, 2] = some node ∧
        node.kind? = some .genericWhereClause ∧ Nested node.leaves := by
  have silent : (parse "a" "struct S where T: P<(T, [T])> \x7b\x7d").diagnostics = [] := by
    decide +kernel
  have nested : Nested (lex "struct S where T: P<(T, [T])> \x7b\x7d") := by decide +kernel
  have here : ((parse "a" "struct S where T: P<(T, [T])> \x7b\x7d").tree.at? [0, 0, 2]).bind
      Node.kind? = some .genericWhereClause := by decide +kernel
  obtain ⟨node, found, kind⟩ := Option.bind_eq_some_iff.mp here
  have requirements := (silent_brackets_nested_iff "a" _ silent).1.mp nested
  exact ⟨silent, nested, node, found, kind, requirements _ node found kind⟩

/-- Brackets that are not nested may go unnoticed. -/
theorem stray_bracket_in_silence :
    ¬∀ identity text, (parse identity text).diagnostics = [] → Nested (lex text) := by
  intro nested
  exact absurd (nested "a" "struct S where ) \x7b\x7d" (by decide +kernel)) (by decide +kernel)

end SwiftTree
