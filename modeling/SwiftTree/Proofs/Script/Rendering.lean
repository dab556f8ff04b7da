import SwiftTree.Proofs.Grammar.Filled
import SwiftTree.Proofs.Parse.Lossless
import SwiftTree.Proofs.Script.Fragment
import SwiftTree.Proofs.Token.Attachment

/-!
# Fragments render as they were written

The nodes of a fragment hold all tokens of its text but the one that marks the end, and the trivia
in front of that one goes to the last of the others. So nothing of the text is lost.
-/

namespace SwiftTree

namespace Token

def appendTrailing (tokens : List Token) (trivia : Trivia) : List Token :=
  tokens.dropLast ++
    (tokens.getLast?.map fun t => { t with trailing := t.trailing ++ trivia }).toList

theorem appendTrailing_concat (before : List Token) (last : Token) (trivia : Trivia) :
    appendTrailing (before ++ [last]) trivia =
      before ++ [{ last with trailing := last.trailing ++ trivia }] := by
  simp [appendTrailing]

theorem renderAll_appendTrailing {tokens : List Token} (h : tokens ≠ []) (trivia : Trivia) :
    renderAll (appendTrailing tokens trivia) = renderAll tokens ++ trivia.render := by
  obtain ⟨before, last, rfl⟩ := (List.eq_nil_or_concat tokens).resolve_left h
  rw [List.concat_eq_append, appendTrailing_concat]
  simp [render, Trivia.render_append, String.append_assoc]

/-- Trivia behind the last of some tokens leaves those in front of it alone. -/
theorem appendTrailing_append (before : List Token) {tokens : List Token} (h : tokens ≠ [])
    (trivia : Trivia) :
    appendTrailing (before ++ tokens) trivia = before ++ appendTrailing tokens trivia := by
  obtain ⟨others, last, rfl⟩ := (List.eq_nil_or_concat tokens).resolve_left h
  rw [List.concat_eq_append, ← List.append_assoc, appendTrailing_concat, appendTrailing_concat,
    List.append_assoc]

end Token

theorem Node.leaves_appendTrailing (node : Node) (trivia : Trivia) :
    (node.appendTrailing trivia).leaves = Token.appendTrailing node.leaves trivia := by
  rw [Node.appendTrailing, leaves_mapLast, Token.appendTrailing]

/-- The items of a block stand in one list, hold a token each, and all together the tokens that are
taken. -/
theorem Grammar.parseItems_tokens (context : ItemContext) (owner : NodeKind) {tokens : List Token}
    (ends : EndsOnce tokens) :
    ∃ items, (parseItems context owner tokens).children.toList =
        [.composite context.listKind items] ∧
      tokens = Node.leavesAll items ++ (parseItems context owner tokens).rest ∧
      EndsOnce (parseItems context owner tokens).rest ∧ ∀ item ∈ items, item.leaves ≠ [] := by
  obtain ⟨items, list, -⟩ := exists_items context owner tokens
  obtain ⟨taken, takes⟩ := Advances.stepLaw.pursue swift (tokens.length + 1)
    (.items context owner) (State.start .sourceFile tokens)
  have leaves : Node.leavesAll items = taken := by
    have all : Node.leavesAll (parseItems context owner tokens).children.toList = taken :=
      takes.leaves
    rwa [list, Node.leavesAll_cons, Node.leavesAll_nil, List.append_nil,
      Node.leaves_composite] at all
  refine ⟨items, list, leaves.symm ▸ takes.rest,
    EndsOnce.of_append (takes.rest ▸ ends) takes.inner, fun item member => ?_⟩
  apply @leaves_ne_nil_of_mem_items context owner tokens
  rwa [list, List.flatMap_singleton]

namespace Fragment

/-- The nodes hold the tokens of a text in which nothing is wrong, with the trivia at its end behind
the last of them. -/
structure Reads (text : String) (nodes : List Node) : Prop where
  silent : lexDiagnostics (lex text) = []
  filled : ∀ node ∈ nodes, node.leaves ≠ []
  some : (lex text).dropLast ≠ []
  leaves : Node.leavesAll nodes =
    Token.appendTrailing (lex text).dropLast (endTrivia (lex text))

/-- Nothing of the text of a fragment is lost. -/
theorem Reads.render {text : String} {nodes : List Node} (h : Reads text nodes) :
    Node.renderAll nodes = text := by
  obtain ⟨inner, leading, tokens, -⟩ := exists_lex_eq text
  have last : endTrivia (lex text) = leading := by simp [endTrivia, tokens]
  have whole := renderAll_lex text
  rw [tokens, Token.renderAll_append] at whole
  rw [Node.renderAll_eq_leavesAll, h.leaves, Token.renderAll_appendTrailing h.some, last, tokens,
    List.dropLast_concat, ← whole]
  simp [Token.render, Trivia.render]

/-- The trivia at the end goes to the last token, since that belongs to the last node. -/
theorem leavesAll_close {nodes result : List Node} {trivia : Trivia}
    (filled : ∀ node ∈ nodes, node.leaves ≠ []) (h : close nodes trivia = .ok result) :
    nodes ≠ [] ∧ (∀ node ∈ result, node.leaves ≠ []) ∧
      Node.leavesAll result = Token.appendTrailing (Node.leavesAll nodes) trivia := by
  unfold close at h
  split at h
  · rename_i last found
    obtain ⟨before, rfl⟩ := List.getLast?_eq_some_iff.mp found
    cases h
    rw [List.forall_mem_append, List.forall_mem_singleton] at filled
    obtain ⟨others, some⟩ := filled
    rw [List.dropLast_concat, List.forall_mem_append, List.forall_mem_singleton,
      Node.leavesAll_append, Node.leavesAll_append, Node.leavesAll_cons, Node.leavesAll_nil,
      Node.leavesAll_cons, Node.leavesAll_nil, List.append_nil, List.append_nil,
      Node.leaves_appendTrailing, Token.appendTrailing_append _ some]
    refine ⟨by simp, ⟨others, ?_⟩, rfl⟩
    obtain ⟨others, final, leaves⟩ := (List.eq_nil_or_concat last.leaves).resolve_left some
    rw [leaves, List.concat_eq_append, Token.appendTrailing_concat]
    simp
  · cases h

theorem reads_tokens {text : String} {nodes : List Node} (h : tokens text = .ok nodes) :
    Reads text nodes := by
  unfold tokens at h
  dsimp only at h
  split at h
  · cases h
  · rename_i silent
    have single : ∀ node ∈ (lex text).dropLast.map Node.token, node.leaves ≠ [] :=
      List.forall_mem_map.mpr fun _ _ => List.cons_ne_nil _ _
    obtain ⟨some, filled, leaves⟩ := leavesAll_close single h
    rw [Node.leavesAll_map_token] at leaves
    exact ⟨silent, filled, mt List.map_eq_nil_iff.mpr some, leaves⟩

theorem reads_token {text : String} {node : Node} (h : token text = .ok node) :
    Reads text [node] := by
  obtain ⟨nodes, all, single⟩ := bind_eq_ok_iff.mp h
  split at single
  · cases single
    exact reads_tokens all
  · cases single

/-- Only the token that marks the end is left over by the items of a fragment. -/
theorem reads_items {context : FragmentContext} {text : String} {nodes : List Node}
    (h : items context text = .ok nodes) : Reads text nodes := by
  obtain ⟨found, list, tokens, rest, every⟩ :=
    Grammar.parseItems_tokens context.items context.owner (endsOnce_lex text)
  unfold items at h
  dsimp only at h
  split at h
  · cases h
  rename_i silent
  split at h
  · cases h
  rename_i short
  obtain ⟨last, final⟩ : ∃ last,
      (Grammar.parseItems context.items context.owner (lex text)).rest = [last] := by
    obtain ⟨before, last, equation, -⟩ := rest
    obtain _ | ⟨first, _ | ⟨second, before⟩⟩ := before
    · exact ⟨last, equation⟩
    · exact absurd equation (short first last [])
    · exact absurd equation (short first second _)
  rw [list, List.flatMap_singleton, Node.children, final] at h
  rw [final] at tokens
  obtain ⟨some, filled, leaves⟩ := leavesAll_close every h
  refine ⟨(List.append_eq_nil_iff.mp silent).1, filled, ?_, ?_⟩
  · obtain ⟨first, others, rfl⟩ := List.exists_cons_of_ne_nil some
    rw [tokens, List.dropLast_concat, Node.leavesAll_cons]
    simp [every first List.mem_cons_self]
  · rw [leaves, tokens, List.dropLast_concat]
    simp [endTrivia]

/-- The statement around an expression adds nothing to its tokens. -/
theorem reads_expression {text : String} {node : Node} (h : expression text = .ok node) :
    Reads text [node] := by
  obtain ⟨nodes, all, single⟩ := bind_eq_ok_iff.mp h
  split at single
  · cases single
    have reads := reads_items all
    have same : Node.leavesAll [.composite .expressionStmt [node]] = Node.leavesAll [node] := by
      simp
    have filled : node.leaves ≠ [] := by
      simpa using reads.filled _ List.mem_cons_self
    exact ⟨reads.silent, List.forall_mem_singleton.mpr filled, reads.some, same ▸ reads.leaves⟩
  · cases single
  · cases single

end Fragment

/-- Fragments render as they were written. Whenever a text is read as tokens, as a single token, as
items in either context or as an expression, the nodes render as the text. They hold the tokens of
the text, and the trivia at its end stands behind the last of them. -/
theorem fragments_render (text : String) :
    (∀ nodes, Fragment.tokens text = .ok nodes →
      Node.renderAll nodes = text ∧ Fragment.Reads text nodes) ∧
    (∀ node, Fragment.token text = .ok node → node.render = text ∧ Fragment.Reads text [node]) ∧
    (∀ context nodes, Fragment.items context text = .ok nodes →
      Node.renderAll nodes = text ∧ Fragment.Reads text nodes) ∧
    (∀ node, Fragment.expression text = .ok node →
      node.render = text ∧ Fragment.Reads text [node]) := by
  have single {node : Node} (reads : Fragment.Reads text [node]) :
      node.render = text ∧ Fragment.Reads text [node] := by
    have whole := reads.render
    rw [Node.renderAll, Node.renderAll, String.append_empty] at whole
    exact ⟨whole, reads⟩
  refine ⟨?_, ?_, ?_, ?_⟩
  · intro nodes h
    have reads := Fragment.reads_tokens h
    exact ⟨reads.render, reads⟩
  · intro node h
    exact single (Fragment.reads_token h)
  · intro context nodes h
    have reads := Fragment.reads_items h
    exact ⟨reads.render, reads⟩
  · intro node h
    exact single (Fragment.reads_expression h)

/-- A word between comments is read in all four ways, and a declaration among members. -/
theorem fragments_render_commented :
    ∃ (word member : String) (tokens items members : List Node) (token expression : Node),
      word = "/* k */ a // l\n" ∧ member = "\n var x \x7b\x7d // m\n" ∧
      Fragment.tokens word = .ok tokens ∧ Node.renderAll tokens = word ∧
      Fragment.token word = .ok token ∧ token.render = word ∧
      Fragment.items .codeBlock word = .ok items ∧ Node.renderAll items = word ∧
      Fragment.expression word = .ok expression ∧ expression.render = word ∧
      Fragment.items .members member = .ok members ∧ Node.renderAll members = member := by
  let word := "/* k */ a // l\n"
  let member := "\n var x \x7b\x7d // m\n"
  have facts : ((Fragment.tokens word).isOk && (Fragment.token word).isOk &&
      (Fragment.items .codeBlock word).isOk && (Fragment.expression word).isOk &&
      (Fragment.items .members member).isOk) = true := by decide +kernel
  simp only [Bool.and_eq_true] at facts
  obtain ⟨⟨⟨⟨some, one⟩, listed⟩, value⟩, inside⟩ := facts
  obtain ⟨tokens, some⟩ := exists_of_isOk some
  obtain ⟨token, one⟩ := exists_of_isOk one
  obtain ⟨items, listed⟩ := exists_of_isOk listed
  obtain ⟨expression, value⟩ := exists_of_isOk value
  obtain ⟨members, inside⟩ := exists_of_isOk inside
  obtain ⟨first, second, third, fourth⟩ := fragments_render word
  obtain ⟨-, -, fifth, -⟩ := fragments_render member
  exact ⟨word, member, tokens, items, members, token, expression, rfl, rfl, some,
    (first tokens some).1, one, (second token one).1, listed, (third .codeBlock items listed).1,
    value, (fourth expression value).1, inside, (fifth .members members inside).1⟩

end SwiftTree
