import SwiftTree.Proofs.Parse.Layout
import SwiftTree.Proofs.Text.Split
import SwiftTree.Script.Fragment

/-!
# Changing the trivia around a node

The first and the last token of a node can be changed without touching the rest. On the leaves this
is a change of the first or the last one; if it is a change of trivia, the shape stays the same.
Without the trivia at both ends, what is left of the text of a node is its content.
-/

namespace SwiftTree

namespace Token

/-- The text of tokens without the trivia at both ends. -/
def content (tokens : List Token) : String :=
  let inner := tokens.modifyHead fun t => { t with leading := [] }
  renderAll (inner.dropLast ++ (inner.getLast?.map fun t => { t with trailing := [] }).toList)

theorem content_singleton (t : Token) : content [t] = t.text := by
  simp [content, render, Trivia.render]

theorem content_concat (first last : Token) (rest : List Token) :
    content (first :: (rest ++ [last])) =
      renderAll ({ first with leading := [] } :: rest) ++ (last.leading.render ++ last.text) := by
  have parts : (({ first with leading := [] } : Token) :: (rest ++ [last])) =
      ({ first with leading := [] } :: rest) ++ [last] := rfl
  rw [content, List.modifyHead_cons, parts, List.dropLast_concat, List.getLast?_concat,
    renderAll_append]
  simp [render, Trivia.render]

/-- Without the trivia at their start, the text of tokens is their content and the trivia at their
end. -/
theorem renderAll_eq_content (first : Token) (rest : List Token) :
    renderAll ({ first with leading := [] } :: rest) = content (first :: rest) ++
      Trivia.render ((first :: rest).getLast?.elim [] Token.trailing) := by
  obtain rfl | ⟨middle, last, rfl⟩ := List.eq_nil_or_concat rest
  · simp [content_singleton, render, Trivia.render]
  · have final : (first :: (middle ++ [last])).getLast? = some last := by
      rw [← List.cons_append, List.getLast?_concat]
    rw [List.concat_eq_append, content_concat, final]
    simp [render, String.append_assoc]

/-- The text of tokens is their content between the trivia at their two ends. -/
theorem renderAll_eq_parts (tokens : List Token) :
    renderAll tokens = Trivia.render (tokens.head?.elim [] Token.leading) ++
      (content tokens ++ Trivia.render (tokens.getLast?.elim [] Token.trailing)) := by
  cases tokens with
  | nil => rfl
  | cons first rest =>
    rw [← renderAll_eq_content]
    simp [render, Trivia.render, String.append_assoc]

theorem exists_content_eq_text_append (first : Token) (rest : List Token) :
    ∃ more, content (first :: rest) = first.text ++ more := by
  obtain rfl | ⟨middle, last, rfl⟩ := List.eq_nil_or_concat rest
  · exact ⟨"", by rw [content_singleton, String.append_empty]⟩
  · rw [List.concat_eq_append, content_concat]
    simp only [renderAll_cons, render, Trivia.render, String.empty_append, String.append_assoc]
    exact ⟨_, rfl⟩

/-- With another token at the end the content goes on. -/
theorem exists_content_concat_eq_append {tokens : List Token} (h : tokens ≠ []) (last : Token) :
    ∃ more, content (tokens ++ [last]) = content tokens ++ more := by
  obtain ⟨first, rest, rfl⟩ := List.exists_cons_of_ne_nil h
  rw [List.cons_append, content_concat, renderAll_eq_content, String.append_assoc]
  exact ⟨_, rfl⟩

/-- With more tokens behind them the content goes on. -/
theorem exists_content_append {tokens : List Token} (h : tokens ≠ []) (added : List Token) :
    ∃ more, content (tokens ++ added) = content tokens ++ more := by
  induction added generalizing tokens with
  | nil => exact ⟨"", by rw [List.append_nil, String.append_empty]⟩
  | cons last added ih =>
    obtain ⟨next, goes⟩ := exists_content_concat_eq_append h last
    obtain ⟨more, on⟩ := ih (List.append_ne_nil_of_left_ne_nil h [last])
    refine ⟨next ++ more, ?_⟩
    rw [List.append_cons, on, goes, String.append_assoc]

theorem content_ne_empty {first : Token} (h : first.text ≠ "") (rest : List Token) :
    content (first :: rest) ≠ "" := by
  obtain ⟨more, starts⟩ := exists_content_eq_text_append first rest
  rw [starts]
  intro empty
  exact h (String.append_eq_empty_iff.mp empty).1

end Token

namespace Node

mutual

theorem firstToken?_eq_head? : (node : Node) → node.firstToken? = node.leaves.head?
  | token _ => rfl
  | composite _ children => firstTokenAll?_eq_head? children

theorem firstTokenAll?_eq_head? :
    (nodes : List Node) → firstTokenAll? nodes = (leavesAll nodes).head?
  | [] => rfl
  | node :: rest => by
    rw [firstTokenAll?, firstToken?_eq_head? node, firstTokenAll?_eq_head? rest, leavesAll_cons,
      List.head?_append]

end

mutual

theorem lastToken?_eq_getLast? : (node : Node) → node.lastToken? = node.leaves.getLast?
  | token _ => rfl
  | composite _ children => lastTokenAll?_eq_getLast? children

theorem lastTokenAll?_eq_getLast? :
    (nodes : List Node) → lastTokenAll? nodes = (leavesAll nodes).getLast?
  | [] => rfl
  | node :: rest => by
    rw [lastTokenAll?, lastToken?_eq_getLast? node, lastTokenAll?_eq_getLast? rest, leavesAll_cons,
      List.getLast?_append]

end

mutual

theorem leaves_mapFirst (f : Token → Token) :
    (node : Node) → (node.mapFirst f).leaves = node.leaves.modifyHead f
  | token _ => rfl
  | composite _ children => leavesAll_mapFirstAll f children

theorem leavesAll_mapFirstAll (f : Token → Token) :
    (nodes : List Node) → leavesAll (mapFirstAll f nodes) = (leavesAll nodes).modifyHead f
  | [] => rfl
  | node :: rest => by
    have first := leaves_mapFirst f node
    have others := leavesAll_mapFirstAll f rest
    rw [mapFirstAll, firstToken?_eq_head? node, leavesAll_cons]
    cases leaves : node.leaves with
    | nil => simp [leaves, others]
    | cons t ts => simp [leaves, first]

end

mutual

theorem leaves_mapLast (f : Token → Token) : (node : Node) →
    (node.mapLast f).leaves = node.leaves.dropLast ++ (node.leaves.getLast?.map f).toList
  | token _ => rfl
  | composite _ children => leavesAll_mapLastAll f children

theorem leavesAll_mapLastAll (f : Token → Token) : (nodes : List Node) →
    leavesAll (mapLastAll f nodes) =
      (leavesAll nodes).dropLast ++ ((leavesAll nodes).getLast?.map f).toList
  | [] => rfl
  | node :: rest => by
    have last := leaves_mapLast f node
    have others := leavesAll_mapLastAll f rest
    rw [mapLastAll, lastTokenAll?_eq_getLast? rest, leavesAll_cons]
    cases leaves : leavesAll rest with
    | nil => simp [leaves, last]
    | cons t ts => simp [leaves, others, List.dropLast_append_of_ne_nil, List.getLast?_cons]

end

mutual

theorem bare_mapFirst {f : Token → Token} (keeps : ∀ t, (f t).bare = t.bare) :
    (node : Node) → (node.mapFirst f).bare = node.bare
  | token t => by rw [mapFirst, bare_token, bare_token, keeps]
  | composite kind children => by
    rw [mapFirst, bare_composite, bare_composite, map_bare_mapFirstAll keeps children]

theorem map_bare_mapFirstAll {f : Token → Token} (keeps : ∀ t, (f t).bare = t.bare) :
    (nodes : List Node) → (mapFirstAll f nodes).map bare = nodes.map bare
  | [] => rfl
  | node :: rest => by
    rw [mapFirstAll]
    split
    · rw [List.map_cons, List.map_cons, bare_mapFirst keeps node]
    · rw [List.map_cons, List.map_cons, map_bare_mapFirstAll keeps rest]

end

mutual

theorem bare_mapLast {f : Token → Token} (keeps : ∀ t, (f t).bare = t.bare) :
    (node : Node) → (node.mapLast f).bare = node.bare
  | token t => by rw [mapLast, bare_token, bare_token, keeps]
  | composite kind children => by
    rw [mapLast, bare_composite, bare_composite, map_bare_mapLastAll keeps children]

theorem map_bare_mapLastAll {f : Token → Token} (keeps : ∀ t, (f t).bare = t.bare) :
    (nodes : List Node) → (mapLastAll f nodes).map bare = nodes.map bare
  | [] => rfl
  | node :: rest => by
    rw [mapLastAll]
    split
    · rw [List.map_cons, List.map_cons, map_bare_mapLastAll keeps rest]
    · rw [List.map_cons, List.map_cons, bare_mapLast keeps node]

end

@[simp] theorem bare_withLeading (node : Node) (trivia : Trivia) :
    (node.withLeading trivia).bare = node.bare := by
  rw [withLeading, bare_mapFirst]
  exact fun _ => rfl

@[simp] theorem bare_appendTrailing (node : Node) (trivia : Trivia) :
    (node.appendTrailing trivia).bare = node.bare := by
  rw [appendTrailing, bare_mapLast]
  exact fun _ => rfl

@[simp] theorem bare_inheritLeading (node : Node) (trivia : Trivia) :
    (node.inheritLeading trivia).bare = node.bare := by
  unfold inheritLeading
  split
  · rfl
  · exact bare_withLeading node trivia

/-- The text of a node is the content of its leaves between the trivia around it. -/
theorem render_eq_content (node : Node) :
    node.render =
      node.leading.render ++ (Token.content node.leaves ++ node.trailing.render) := by
  rw [render_eq_leaves, leading, trailing, firstToken?_eq_head?, lastToken?_eq_getLast?]
  exact Token.renderAll_eq_parts node.leaves

theorem width_eq_content (node : Node) :
    node.width =
      node.leadingWidth + ((Token.content node.leaves).utf8ByteSize + node.trailingWidth) := by
  rw [← utf8ByteSize_render, render_eq_content, String.utf8ByteSize_append,
    String.utf8ByteSize_append, Trivia.utf8ByteSize_render, Trivia.utf8ByteSize_render,
    leadingWidth, trailingWidth]

/-- The trivia in front of a node and the trivia after it have no byte in common. -/
theorem contentStop_eq (node : Node) :
    node.contentStop = node.leadingWidth + (Token.content node.leaves).utf8ByteSize := by
  rw [contentStop, utf8ByteSize_render, width_eq_content]
  omega

/-- So the text of a node can be cut where its content begins and where it ends. -/
theorem between?_contentStop (node : Node) :
    Text.between? node.render node.leadingWidth node.contentStop =
      some (Token.content node.leaves) := by
  rw [Text.between?_eq_some_iff]
  refine ⟨node.leading.render, node.trailing.render, ?_, Trivia.utf8ByteSize_render _, ?_⟩
  · rw [String.append_assoc]
    exact node.render_eq_content
  · rw [Trivia.utf8ByteSize_render, contentStop_eq, leadingWidth]

theorem contentText_eq_content (node : Node) : node.contentText = Token.content node.leaves := by
  rw [contentText, between?_contentStop, Option.getD_some]

/-- The text of a node is its content between the trivia around it. -/
theorem render_eq_contentText (node : Node) :
    node.render = node.leading.render ++ (node.contentText ++ node.trailing.render) := by
  rw [contentText_eq_content]
  exact node.render_eq_content

end Node

end SwiftTree
