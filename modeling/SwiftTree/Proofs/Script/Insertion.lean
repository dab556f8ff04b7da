import SwiftTree.Proofs.Script.Replacement
import SwiftTree.Proofs.Script.WellFormed
import SwiftTree.Proofs.Token.Seam

/-!
# Inserting a text next to a declaration

Items that are made from a text for a place next to a declaration take over trivia from it where the
text has none, and only in front of a declaration that begins the document a line break is added. So
nothing keeps the items away from their neighbours in some places, and there tokens grow together.
Wherever the inserted stretches of tokens stand apart from what surrounds them, the document has its
old tokens afterwards, with those of the text among them.
-/

namespace SwiftTree

open Lexer

namespace Lexer

theorem isUnclosed_of_triviaDiagnostics {offset : Nat} {trivia : Trivia}
    (silent : triviaDiagnostics offset trivia = []) :
    ∀ piece ∈ trivia, Comment.isUnclosed piece = false := by
  induction trivia generalizing offset with
  | nil => exact List.forall_mem_nil _
  | cons piece rest ih =>
    obtain ⟨here, later⟩ := List.append_eq_nil_iff.mp silent
    refine List.forall_mem_cons.mpr ⟨?_, ih later⟩
    unfold pieceDiagnostic? at here
    split at here
    · cases here
    · simpa using ‹¬Comment.isUnclosed piece = true›

/-- No comment is left open in tokens of which nothing is wrong. -/
theorem isUnclosed_of_silent {offset : Nat} {tokens : List Token}
    (silent : diagnosticsFrom offset tokens = []) :
    ∀ piece ∈ Token.triviaAll tokens, Comment.isUnclosed piece = false := by
  induction tokens generalizing offset with
  | nil => exact List.forall_mem_nil _
  | cons token rest ih =>
    obtain ⟨here, later⟩ := List.append_eq_nil_iff.mp silent
    obtain ⟨leading, here⟩ := List.append_eq_nil_iff.mp here
    obtain ⟨-, trailing⟩ := List.append_eq_nil_iff.mp here
    rw [Token.triviaAll, List.flatMap_cons, List.forall_mem_append, List.forall_mem_append]
    exact ⟨⟨isUnclosed_of_triviaDiagnostics leading, isUnclosed_of_triviaDiagnostics trailing⟩,
      ih later⟩

/-- A line break in front of trivia that is read as such. -/
theorem lexemes_render_newline {trivia : Trivia}
    (read : lexemes false 0 trivia.render.toList = trivia.map .piece) :
    lexemes false 0 (Trivia.render (.newline "\n" :: trivia)).toList =
      (.newline "\n" :: trivia : Trivia).map .piece := by
  have feed : triviaExtent? false ('\n' :: trivia.render.toList) = some (.newline, 1) := rfl
  rw [Trivia.render, String.toList_append, List.map_cons, ← read]
  exact lexemes_of_triviaExtent? feed

end Lexer

namespace Token

theorem core_modifyHead (tokens : List Token) (leading : Trivia) :
    core (tokens.modifyHead fun t => { t with leading }) = core tokens := by
  cases tokens with
  | nil => rfl
  | cons token rest => exact core_leading token leading rest

theorem trailingAll_modifyHead (tokens : List Token) (leading : Trivia) :
    trailingAll (tokens.modifyHead fun t => { t with leading }) = trailingAll tokens := by
  obtain _ | ⟨first, _ | ⟨second, rest⟩⟩ := tokens
  · rfl
  · rfl
  · simp [trailingAll]

theorem core_appendTrailing (tokens : List Token) (trivia : Trivia) :
    core (appendTrailing tokens trivia) = core tokens := by
  obtain rfl | ⟨before, last, rfl⟩ := List.eq_nil_or_concat tokens
  · rfl
  rw [List.concat_eq_append, appendTrailing_concat]
  obtain rfl | some := Decidable.em (before = [])
  · rfl
  · rw [core_append some (List.cons_ne_nil _ _), core_append some (List.cons_ne_nil _ _)]
    rfl

theorem lexemesAll_appendTrailing {tokens : List Token} (h : tokens ≠ []) (trivia : Trivia) :
    lexemesAll (appendTrailing tokens trivia) = lexemesAll tokens ++ trivia.map .piece := by
  obtain ⟨before, last, rfl⟩ := (List.eq_nil_or_concat tokens).resolve_left h
  rw [List.concat_eq_append, appendTrailing_concat]
  simp [lexemes]

theorem leadingAll_appendTrailing (tokens : List Token) (trivia : Trivia) :
    leadingAll (appendTrailing tokens trivia) = leadingAll tokens := by
  have getD (tokens : List Token) : leadingAll tokens = (tokens.head?.map leading).getD [] := by
    cases tokens <;> rfl
  rw [getD, getD, head?_leading_appendTrailing]

theorem trailingAll_appendTrailing {tokens : List Token} (h : tokens ≠ []) (trivia : Trivia) :
    trailingAll (appendTrailing tokens trivia) = trailingAll tokens ++ trivia := by
  obtain ⟨before, last, rfl⟩ := (List.eq_nil_or_concat tokens).resolve_left h
  rw [List.concat_eq_append, appendTrailing_concat]
  simp [trailingAll]

theorem mem_triviaAll_of_mem_leadingAll {tokens : List Token} {piece : Piece}
    (h : piece ∈ leadingAll tokens) : piece ∈ triviaAll tokens := by
  cases tokens with
  | nil => cases h
  | cons first rest =>
    rw [triviaAll, List.flatMap_cons]
    exact List.mem_append_left _ (List.mem_append_left _ h)

theorem mem_triviaAll_of_mem_trailingAll {tokens : List Token} {piece : Piece}
    (h : piece ∈ trailingAll tokens) : piece ∈ triviaAll tokens := by
  obtain rfl | ⟨before, last, rfl⟩ := List.eq_nil_or_concat tokens
  · cases h
  · rw [List.concat_eq_append] at h ⊢
    rw [trailingAll, List.getLast?_concat] at h
    rw [triviaAll_append]
    exact List.mem_append_right _ (by simpa [triviaAll] using .inr h)

theorem map_bare_eq_of_core {as bs : List Token} (same : core bs = core as) :
    bs.map bare = as.map bare := by
  rw [← words_core, same, words_core]

theorem ne_nil_of_core {as bs : List Token} (same : core bs = core as) (h : as ≠ []) : bs ≠ [] := by
  rintro rfl
  exact h (List.map_eq_nil_iff.mp (map_bare_eq_of_core same).symm)

/-- Whether tokens are a stretch does not depend on the trivia around them. -/
theorem Stretch.congr {as bs : List Token} (h : Stretch as) (same : core bs = core as) :
    Stretch bs where
  filled := ne_nil_of_core same h.filled
  inner token member := by
    have inside : token.bare ∈ bs.map bare := List.mem_map_of_mem member
    rw [map_bare_eq_of_core same] at inside
    obtain ⟨other, among, equal⟩ := List.mem_map.mp inside
    have kind : other.kind = token.kind := (bare_eq_bare_iff.mp equal).1
    rw [isEnd, ← kind]
    exact h.inner other among
  legible := by
    unfold Legible
    rw [same]
    exact h.legible

end Token

namespace Fragment.Reads

variable {text : String} {nodes : List Node}

/-- With the trivia at the end behind the last of them, the tokens of a fragment are all that its
text consists of. -/
theorem isReading (h : Reads text nodes) :
    Token.IsReading (Node.leavesAll nodes ++ [⟨.endOfFile, "", [], []⟩]) text := by
  obtain ⟨inner, leading, tokens, -⟩ := exists_lex_eq text
  have last : endTrivia (lex text) = leading := by simp [endTrivia, tokens]
  have whole := Token.isReading_lex text
  have some := h.some
  rw [tokens, List.dropLast_concat] at some
  rw [Token.IsReading, tokens] at whole
  rw [Token.IsReading, ← whole, h.leaves, last, tokens, List.dropLast_concat,
    Token.lexemesAll_append, Token.lexemesAll_appendTrailing some]
  simp [Token.lexemes]

theorem core_leavesAll (h : Reads text nodes) :
    Token.core (Node.leavesAll nodes) = Token.core (lex text).dropLast := by
  rw [h.leaves, Token.core_appendTrailing]

theorem leavesAll_ne_nil (h : Reads text nodes) : Node.leavesAll nodes ≠ [] :=
  Token.ne_nil_of_core h.core_leavesAll h.some

/-- Every part of a fragment is a stretch, and the first one is read at the start of a text. -/
theorem stretch (h : Reads text nodes) {before part after : List Token}
    (split : Node.leavesAll nodes = before ++ (part ++ after)) (filled : part ≠ []) :
    Token.Stretch part ∧ (before = [] → Token.Legible true (Token.leadingAll part) part) := by
  have reading := h.isReading
  rw [split, List.append_assoc, List.append_assoc] at reading
  obtain ⟨legible, start⟩ := reading.legible filled (by simp)
  refine ⟨⟨filled, fun token member => ?_, legible⟩, start⟩
  obtain ⟨inner, leading, tokens, others⟩ := exists_lex_eq text
  have inside : token.bare ∈ (lex text).dropLast.map Token.bare := by
    rw [← Token.map_bare_eq_of_core h.core_leavesAll, split]
    exact List.mem_map_of_mem (by simp [member])
  obtain ⟨other, among, equal⟩ := List.mem_map.mp inside
  rw [tokens, List.dropLast_concat] at among
  rw [Token.isEnd, ← (Token.bare_eq_bare_iff.mp equal).1]
  exact (others other among).1

/-- The trivia at the end of a fragment fades at the end of a document. -/
theorem fades (h : Reads text nodes) {trivia : Trivia}
    (read : lexemes false 0 trivia.render.toList = trivia.map .piece)
    (newline : ∀ piece ∈ trivia.head?, piece.isNewline) :
    Fades (Token.trailingAll (Node.leavesAll nodes) ++ trivia) [] := by
  have filled := h.leavesAll_ne_nil
  refine fades_at_end ?_ (fun piece member => ?_) read newline
  · refine @Token.IsReading.lexemes_end _ _
      ((Token.leadingAll (Node.leavesAll nodes)).map .piece ++ Token.core (Node.leavesAll nodes))
      _ h.isReading ?_ ?_
    · rw [Token.lexemesAll_append, Token.lexemesAll_eq_core filled]
      simp [Token.lexemes]
    · obtain ⟨token, rest, leaves⟩ := List.exists_cons_of_ne_nil filled
      obtain ⟨more, core⟩ := Token.exists_core_eq_cons token rest
      simp [leaves, core]
  · apply isUnclosed_of_silent h.silent
    rw [← h.triviaAll]
    exact Token.mem_triviaAll_of_mem_trailingAll member

end Fragment.Reads

namespace Node

theorem leadingAll_leaves (node : Node) : Token.leadingAll node.leaves = node.leading := by
  rw [leading, firstToken?_eq_head?, Token.leadingAll]

theorem leavesAll_eq_flatten (nodes : List Node) :
    leavesAll nodes = (nodes.map leaves).flatten := by
  induction nodes with
  | nil => rfl
  | cons node rest ih => rw [leavesAll_cons, ih, List.map_cons, List.flatten_cons]

theorem core_leaves_inheritLeading (node : Node) (trivia : Trivia) :
    Token.core (node.inheritLeading trivia).leaves = Token.core node.leaves := by
  unfold inheritLeading
  split
  · rfl
  · rw [withLeading, leaves_mapFirst, Token.core_modifyHead]

theorem trailingAll_leaves_inheritLeading (node : Node) (trivia : Trivia) :
    Token.trailingAll (node.inheritLeading trivia).leaves = Token.trailingAll node.leaves := by
  unfold inheritLeading
  split
  · rfl
  · rw [withLeading, leaves_mapFirst, Token.trailingAll_modifyHead]

theorem leaves_inheritLeading_ne_nil {node : Node} (some : node.leaves ≠ []) (trivia : Trivia) :
    (node.inheritLeading trivia).leaves ≠ [] :=
  Token.ne_nil_of_core (node.core_leaves_inheritLeading trivia) some

/-- A node has its own leaves, or it begins with the trivia that it takes over. -/
theorem leaves_inheritLeading {node : Node} (some : node.leaves ≠ []) (trivia : Trivia) :
    (node.inheritLeading trivia).leaves = node.leaves ∨
      Token.leadingAll (node.inheritLeading trivia).leaves = trivia := by
  unfold inheritLeading
  split
  · exact .inl rfl
  · obtain ⟨first, rest, leaves⟩ := List.exists_cons_of_ne_nil some
    rw [withLeading, leaves_mapFirst, leaves]
    exact .inr rfl

theorem leaves_inheritLeading_nil {node : Node} (filled : ∀ piece ∈ node.leading, piece.text ≠ "") :
    (node.inheritLeading []).leaves = node.leaves := by
  unfold inheritLeading
  split
  · rfl
  · rename_i narrow
    have none : node.leading = [] :=
      (Trivia.width_eq_zero_iff filled).mp (Nat.eq_zero_of_not_pos narrow)
    rw [← leadingAll_leaves] at none
    rw [withLeading, leaves_mapFirst]
    cases leaves : node.leaves with
    | nil => rfl
    | cons first rest =>
      rw [leaves] at none
      have bare : first.leading = [] := none
      rw [List.modifyHead_cons, ← bare]

end Node

/-- A line break is added behind the last item, or nothing. -/
theorem Tree.leavesAll_endLine {nodes : List Node} (filled : ∀ node ∈ nodes, node.leaves ≠ []) :
    Node.leavesAll (endLine nodes) = Node.leavesAll nodes ∨
      Node.leavesAll (endLine nodes) =
        Token.appendTrailing (Node.leavesAll nodes) [.newline "\n"] := by
  unfold endLine
  split
  · rename_i last found
    split
    · obtain ⟨before, rfl⟩ := List.getLast?_eq_some_iff.mp found
      right
      rw [List.dropLast_concat, Node.leavesAll_append, Node.leavesAll_append, Node.leavesAll_cons,
        Node.leavesAll_cons, Node.leavesAll_nil, List.append_nil, List.append_nil,
        Node.leaves_appendTrailing, Token.appendTrailing_append _ (filled last (by simp))]
    · exact .inl rfl
  · exact .inl rfl

/-- The inserted tokens as stretches that keep the trivia inside them: all tokens, or those of each
item, where items may have taken over trivia. -/
def Tree.stretches (leading : Trivia) (nodes : List Node) : List (List Token) :=
  if leading = [] then [Node.leavesAll nodes] else nodes.map Node.leaves

theorem Tree.flatten_stretches (leading : Trivia) (nodes : List Node) :
    (stretches leading nodes).flatten = Node.leavesAll nodes := by
  unfold stretches
  split
  · simp
  · rw [Node.leavesAll_eq_flatten]

/-- What is inserted for a text next to a node with some trivia in front of it. -/
structure Inserts (text : String) (leading : Trivia) (parts : List (List Token)) : Prop where
  some : parts ≠ []
  stretches : ∀ part ∈ parts, Token.Stretch part
  /-- At the start the text is read as on its own, if it does not take over the trivia. -/
  start : ∀ part ∈ parts.head?, Token.Legible true (Token.leadingAll part) part ∨
    leading ≠ [] ∧ Token.leadingAll part = leading
  /-- The trivia at the end goes over into any other that ends a text. -/
  ends : ∀ part ∈ parts.getLast?, ∀ trivia : Trivia,
    lexemes false 0 trivia.render.toList = trivia.map .piece →
    (∀ piece ∈ trivia.head?, piece.isNewline) → Fades (Token.trailingAll part ++ trivia) []
  words : parts.flatten.map Token.bare = (lex text).dropLast.map Token.bare

namespace Fragment.Reads

variable {text : String} {items : List Node}

/-- Where there is no trivia to take over, items stay as they are. -/
theorem leavesAll_inheritLeading_nil (h : Reads text items) :
    Node.leavesAll (items.map fun item => item.inheritLeading []) = Node.leavesAll items := by
  rw [Node.leavesAll_eq_flatten, Node.leavesAll_eq_flatten, List.map_map]
  congr 1
  refine List.map_congr_left fun item member => ?_
  refine Node.leaves_inheritLeading_nil fun piece inside => ?_
  apply (attached_lex text).filled
  rw [← h.triviaAll]
  obtain ⟨before, after, rfl⟩ := List.append_of_mem member
  rw [← Node.leadingAll_leaves] at inside
  rw [Node.leavesAll_append, Node.leavesAll_cons, Token.triviaAll_append, Token.triviaAll_append]
  exact List.mem_append_right _
    (List.mem_append_left _ (Token.mem_triviaAll_of_mem_leadingAll inside))

theorem inserts_whole (h : Reads text items) {tokens : List Token}
    (same : tokens = Node.leavesAll items ∨
      tokens = Token.appendTrailing (Node.leavesAll items) [.newline "\n"]) :
    Inserts text [] [tokens] := by
  obtain ⟨stretch, start⟩ := @stretch text items h [] (Node.leavesAll items) [] (by simp)
    h.leavesAll_ne_nil
  have core : Token.core tokens = Token.core (Node.leavesAll items) := by
    obtain rfl | rfl := same
    · rfl
    · exact Token.core_appendTrailing _ _
  have leading : Token.leadingAll tokens = Token.leadingAll (Node.leavesAll items) := by
    obtain rfl | rfl := same
    · rfl
    · exact Token.leadingAll_appendTrailing _ _
  refine ⟨List.cons_ne_nil _ _, List.forall_mem_singleton.mpr (stretch.congr core), ?_, ?_, ?_⟩
  · rintro part ⟨⟩
    refine .inl ?_
    unfold Token.Legible
    rw [core, leading]
    exact start rfl
  · intro part last trivia read newline
    obtain rfl : tokens = part := Option.some.inj last
    obtain rfl | rfl := same
    · exact h.fades read newline
    · have fades := h.fades (lexemes_render_newline read) (by simp [Piece.newline, Piece.isNewline])
      rw [Token.trailingAll_appendTrailing h.leavesAll_ne_nil, List.append_assoc]
      exact fades
  · rw [List.flatten_singleton, Token.map_bare_eq_of_core core,
      Token.map_bare_eq_of_core h.core_leavesAll]

theorem inserts_each (h : Reads text items) {leading : Trivia} (filled : leading ≠ []) :
    Inserts text leading
      ((items.map fun item => item.inheritLeading leading).map Node.leaves) := by
  have stretch {item : Node} {before after : List Node} (split : items = before ++ item :: after) :=
    @stretch text items h (Node.leavesAll before) item.leaves (Node.leavesAll after)
      (by simp [split]) (h.filled item (by simp [split]))
  rw [List.map_map]
  refine ⟨?_, ?_, ?_, ?_, ?_⟩
  · intro none
    have empty : items = [] := by simpa using none
    exact h.leavesAll_ne_nil (by simp [empty])
  · refine List.forall_mem_map.mpr fun item member => ?_
    obtain ⟨before, after, split⟩ := List.append_of_mem member
    exact (stretch split).1.congr (item.core_leaves_inheritLeading leading)
  · intro part first
    rw [List.head?_map, Option.mem_def, Option.map_eq_some_iff] at first
    obtain ⟨item, head, rfl⟩ := first
    obtain ⟨after, split⟩ := List.head?_eq_some_iff.mp head
    have start := (@stretch item [] after split).2 rfl
    obtain own | taken := Node.leaves_inheritLeading (h.filled item (by simp [split])) leading
    · rw [Function.comp_apply, own]
      exact .inl start
    · exact .inr ⟨filled, taken⟩
  · intro part last trivia read newline
    rw [List.getLast?_map, Option.mem_def, Option.map_eq_some_iff] at last
    obtain ⟨item, final, rfl⟩ := last
    obtain ⟨before, split⟩ := List.getLast?_eq_some_iff.mp final
    have some := h.filled item (by simp [split])
    have whole : Token.trailingAll (Node.leavesAll items) = Token.trailingAll item.leaves := by
      rw [split, Node.leavesAll_append, Node.leavesAll_cons, Node.leavesAll_nil, List.append_nil,
        Token.trailingAll, List.getLast?_append_of_ne_nil _ some, Token.trailingAll]
    rw [Function.comp_apply, Node.trailingAll_leaves_inheritLeading, ← whole]
    exact h.fades read newline
  · rw [← Token.map_bare_eq_of_core h.core_leavesAll, Node.leavesAll_eq_flatten, List.map_flatten,
      List.map_flatten, List.map_map, List.map_map]
    congr 1
    exact List.map_congr_left fun item _ =>
      Token.map_bare_eq_of_core (item.core_leaves_inheritLeading leading)

end Fragment.Reads

namespace Tree

/-- The nodes that are made for a place next to an item. -/
theorem inserts_insertionFor {tree : Tree} {address : Address} {site : Site} {text : String}
    {position : InsertPosition} {nodes : List Node} {context : FragmentContext}
    (found : tree.resolve address = .ok site)
    (among : itemContext? (tree.parentKind? site.trail) = some context)
    (made : tree.insertionFor address text position = .ok nodes) :
    Inserts text site.node.leading (stretches site.node.leading nodes) := by
  obtain ⟨anchor, resolved, made⟩ := bind_eq_ok_iff.mp made
  obtain rfl : site = anchor := by
    rw [mapError_eq_ok_iff, found] at resolved
    exact Except.ok.inj resolved
  rw [among] at made
  obtain ⟨items, parsed, made⟩ := bind_eq_ok_iff.mp made
  have reads := Fragment.reads_items (mapError_eq_ok_iff.mp parsed)
  cases made
  by_cases none : site.node.leading = []
  · rw [none, stretches, if_pos rfl]
    apply reads.inserts_whole
    rw [← reads.leavesAll_inheritLeading_nil]
    split
    · exact leavesAll_endLine (List.forall_mem_map.mpr fun item member =>
        Node.leaves_inheritLeading_ne_nil (reads.filled item member) [])
    · exact .inl rfl
  · rw [stretches, if_neg none, if_neg (by simp [none])]
    exact reads.inserts_each none

/-- The tokens in front of a place next to a node, and those behind it. -/
def sides (tree : Tree) (site : Site) : InsertPosition → List Token × List Token
  | .before => (tree.root.leavesBefore site.trail,
      site.node.leaves ++ tree.root.leavesAfter site.trail)
  | .after => (tree.root.leavesBefore site.trail ++ site.node.leaves,
      tree.root.leavesAfter site.trail)

theorem leaves_insert {tree result : Tree} {address : Address} {site : Site} {nodes : List Node}
    {position : InsertPosition} (found : tree.resolve address = .ok site)
    (inserted : tree.insert nodes address position = .ok result) :
    tree.root.leaves = (tree.sides site position).1 ++ (tree.sides site position).2 ∧
      result.root.leaves = (tree.sides site position).1 ++
        (Node.leavesAll nodes ++ (tree.sides site position).2) := by
  obtain ⟨-, below, -, rfl⟩ := (insert_eq_ok_iff found).mp inserted
  obtain ⟨context, trail, root, -⟩ := exists_context_of_resolve found below
  have filled : (tree.root.modifySiblings (fun index => insertNodes nodes (position.slot index))
      site.trail) = context.fill (position.join nodes site.node) := by
    rw [root, ← trail]
    exact context.modifySiblings_fill (insertNodes_slot nodes position site.node)
  have before : tree.root.leavesBefore site.trail = context.before := by
    rw [root, ← trail, context.leavesBefore_fill]
  have after : tree.root.leavesAfter site.trail = context.after := by
    rw [root, ← trail, context.leavesAfter_fill]
  rw [withRoot, filled, context.leaves_fill]
  constructor
  · rw [root, context.leaves_fill]
    cases position <;> simp [sides, before, after]
  · cases position <;> simp [sides, before, after, InsertPosition.join]

/-- A declaration stands among the items of a document, since the root and its two children are
none. -/
theorem trail_eq_of_isDeclaration {items : List Node} {last : Token} {trail : Trail} {node : Node}
    (here : (Node.composite .sourceFile
      [.composite .codeBlockItemList items, .token last]).at? trail = some node)
    (declares : node.isDeclaration) :
    ∃ index rest, trail = 0 :: index :: rest := by
  obtain _ | ⟨_ | _ | index, _ | ⟨next, rest⟩⟩ := trail
  case cons.zero.cons => exact ⟨next, rest, rfl⟩
  all_goals cases here
  all_goals cases declares

/-- Around a declaration of a document: the document has tokens, and its end stands behind. -/
theorem around_declaration {identity document : String} {path : Path} {site : Site}
    (found : (parse identity document).tree.resolve ⟨.declaration, path⟩ = .ok site) :
    (lex document).dropLast ≠ [] ∧
      (parse identity document).tree.root.leavesAfter site.trail ≠ [] := by
  have declares := isDeclaration_of_resolve found
  have here : (parse identity document).tree.root.at? site.trail = some site.node :=
    (mem_sites_iff.mp (mem_sites_of_resolve found)).1
  obtain ⟨list, last, root, -, tokens, -⟩ := root_parse identity document
  obtain ⟨items, children, -, -, filled⟩ :=
    Grammar.parseItems_tokens .topLevel .sourceFile (endsOnce_lex document)
  obtain rfl := eq_of_root_parse root children
  rw [root] at here ⊢
  obtain ⟨index, trail, equation⟩ := trail_eq_of_isDeclaration here declares
  rw [equation] at here ⊢
  refine ⟨?_, by simp [Node.leavesAfter]⟩
  have inside : (Node.composite .codeBlockItemList items).at? (index :: trail) =
      some site.node := here
  obtain ⟨left, item, right, rfl, -, -⟩ := Node.at?_cons_eq_some.mp inside
  have some := filled item (by simp)
  simp [tokens, some]

/-- The tokens on both sides of a place next to a declaration are those of the document, and the end
stands behind. -/
theorem sides_parse {identity document : String} {path : Path} {site : Site}
    {position : InsertPosition} {nodes : List Node} {result : Tree}
    (found : (parse identity document).tree.resolve ⟨.declaration, path⟩ = .ok site)
    (inserted : (parse identity document).tree.insert nodes ⟨.declaration, path⟩ position =
      .ok result) :
    ∃ behind leading,
      ((parse identity document).tree.sides site position).2 =
        behind ++ [⟨.endOfFile, "", leading, []⟩] ∧
      lex document = ((parse identity document).tree.sides site position).1 ++
        (behind ++ [⟨.endOfFile, "", leading, []⟩]) ∧
      ∀ token ∈ ((parse identity document).tree.sides site position).1 ++ behind,
        ¬token.isEnd := by
  obtain ⟨whole, -⟩ := leaves_insert found inserted
  obtain ⟨-, after⟩ := around_declaration found
  obtain ⟨inner, leading, tokens, others⟩ := exists_lex_eq document
  have some : ((parse identity document).tree.sides site position).2 ≠ [] := by
    cases position with
    | before => exact List.append_ne_nil_of_right_ne_nil _ after
    | after => exact after
  obtain ⟨behind, last, split⟩ := (List.eq_nil_or_concat _).resolve_left some
  rw [List.concat_eq_append] at split
  rw [leaves_parse, split, tokens, ← List.append_assoc] at whole
  obtain ⟨rfl, final⟩ := List.append_inj' whole rfl
  rw [List.singleton_inj] at final
  refine ⟨behind, leading, by rw [split, final], by rw [tokens, List.append_assoc], ?_⟩
  exact fun token member => (others token member).1

end Tree

namespace Inserts

variable {text document : String} {leading final : Trivia} {parts : List (List Token)}
  {left behind : List Token}

/-- At the end of a document the trivia of the text goes over into that of the document. -/
theorem closes (h : Inserts text leading parts)
    (tokens : lex document = left ++ (behind ++ [⟨.endOfFile, "", final, []⟩]))
    (inner : ∀ token ∈ left ++ behind, ¬token.isEnd) (some : left ++ behind ≠ []) :
    Token.Closes parts (behind ++ [⟨.endOfFile, "", final, []⟩]) := by
  intro atEnd last member
  obtain rfl : behind = [] := by
    cases behind with
    | nil => rfl
    | cons token behind => exact absurd (atEnd token rfl) (inner token (by simp))
  rw [List.append_nil] at some
  refine h.ends last member final ?_ ?_
  · have reading := Token.isReading_lex document
    rw [tokens] at reading
    refine @Token.IsReading.lexemes_end _ _ (Token.lexemesAll left) _ reading ?_ ?_
    · simp [Token.lexemes]
    · obtain ⟨token, rest, rfl⟩ := List.exists_cons_of_ne_nil some
      simp [Token.lexemes]
  · intro piece head
    refine @isNewline_of_head?_leading document ⟨.endOfFile, "", final, []⟩ ?_ piece head
    obtain ⟨token, rest, rfl⟩ := List.exists_cons_of_ne_nil some
    simp [tokens]

/-- The first part of the new document is read at its start. If it begins with trivia of the anchor,
the anchor follows the inserted tokens with the same trivia, which is sound there. -/
theorem start_of_spaced (h : Inserts text leading parts) {right : List Token}
    (spaced : Token.Spaced parts right)
    (anchor : leading ≠ [] → Token.leadingAll right = leading ∧
      ∃ token ∈ right.head?, ¬token.isEnd) :
    ∀ part ∈ parts.head?, Token.Legible true (Token.leadingAll part) part ∨
      Token.leadingAll part ≠ [] ∧ (Token.leadingAll part).Sound := by
  intro part first
  refine (h.start part first).imp id fun taken => ?_
  obtain ⟨filled, same⟩ := taken
  obtain ⟨begins, token, head, inner⟩ := anchor filled
  obtain ⟨last, final⟩ := Option.ne_none_iff_exists'.mp (mt List.getLast?_eq_none_iff.mp h.some)
  have stretch := h.stretches last (List.mem_of_getLast? final)
  rw [same]
  obtain none | atEnd | ⟨-, sound⟩ | abuts := (spaced.apart_of_getLast? last final).skipped
  · exact absurd none stretch.filled
  · exact absurd (atEnd token head) inner
  · rw [Token.between, begins] at sound
    exact ⟨filled, sound.of_append⟩
  · have empty := abuts.empty
    rw [Token.between, begins] at empty
    exact absurd (List.append_eq_nil_iff.mp empty).2 filled

/-- The tokens of a document with those of a text among them, where all stretches stand apart. -/
theorem map_bare_lex (h : Inserts text leading parts) {right : List Token}
    (tokens : lex document = left ++ (behind ++ [⟨.endOfFile, "", final, []⟩]))
    (inner : ∀ token ∈ left ++ behind, ¬token.isEnd) (some : left ++ behind ≠ [])
    (split : right = behind ++ [⟨.endOfFile, "", final, []⟩])
    (spaced : Token.Spaced (left :: parts) right)
    (anchor : left = [] → leading ≠ [] → Token.leadingAll right = leading ∧
      ∃ token ∈ right.head?, ¬token.isEnd) :
    (lex (Token.renderAll (left ++ (parts.flatten ++ right)))).map Token.bare =
      (left ++ (lex text).dropLast ++ right).map Token.bare := by
  have reading := Token.isReading_lex document
  have closes := h.closes tokens inner some
  rw [tokens] at reading
  rw [← split] at reading closes
  have more : right ≠ [] := by simp [split]
  have faithful := reading.faithful more
  have words : (left ++ (lex text).dropLast ++ right).map Token.bare =
      (left ++ (parts.flatten ++ right)).map Token.bare := by
    simp [h.words]
  rw [words]
  by_cases none : left = []
  · subst none
    obtain ⟨part, others, rfl⟩ := List.exists_cons_of_ne_nil h.some
    exact Token.map_bare_lex_flatten faithful more h.stretches spaced.2 closes
      (h.start_of_spaced spaced.2 (anchor rfl) part rfl)
  · obtain ⟨legible, start⟩ := @Token.IsReading.legible _ [] _ _ reading none more
    have stretch : Token.Stretch left :=
      ⟨none, fun token member => inner token (List.mem_append_left _ member), legible⟩
    have whole := Token.map_bare_lex_flatten faithful more
      (List.forall_mem_cons.mpr ⟨stretch, h.stretches⟩) spaced (closes.cons h.some)
      (.inl (start rfl))
    rwa [List.flatten_cons, List.append_assoc] at whole

end Inserts

/-- A text is inserted next to a declaration. If nothing grows together at the seams, the document
has its old tokens afterwards, with those of the text directly in front of the declaration or
directly behind it. -/
theorem insertion_splices_apart {identity document text : String} {path : Path}
    {position : InsertPosition} {site : Site} {nodes : List Node} {result : Tree}
    (found : (parse identity document).tree.resolve ⟨.declaration, path⟩ = .ok site)
    (made : (parse identity document).tree.insertionFor ⟨.declaration, path⟩ text position =
      .ok nodes)
    (inserted : (parse identity document).tree.insert nodes ⟨.declaration, path⟩ position =
      .ok result)
    (apart : Token.Spaced (((parse identity document).tree.sides site position).1 ::
        Tree.stretches site.node.leading nodes)
      ((parse identity document).tree.sides site position).2) :
    lex document = ((parse identity document).tree.sides site position).1 ++
        ((parse identity document).tree.sides site position).2 ∧
      (lex result.render).map Token.bare =
        (((parse identity document).tree.sides site position).1 ++ (lex text).dropLast ++
          ((parse identity document).tree.sides site position).2).map Token.bare := by
  obtain ⟨old, new⟩ := Tree.leaves_insert found inserted
  obtain ⟨behind, final, split, tokens, inner⟩ := Tree.sides_parse found inserted
  obtain ⟨context, among⟩ :
      ∃ context, itemContext? ((parse identity document).tree.parentKind? site.trail) =
        some context := by
    obtain parent | parent := (arranged_parse identity document).parentKind?_of_isDeclaration
      (Tree.mem_sites_of_resolve found) (Tree.isDeclaration_of_resolve found)
    · exact ⟨.codeBlock, by rw [parent]; rfl⟩
    · exact ⟨.members, by rw [parent]; rfl⟩
  have inserts := Tree.inserts_insertionFor found among made
  have some : ((parse identity document).tree.sides site position).1 ++ behind ≠ [] := by
    obtain ⟨some, -⟩ := Tree.around_declaration found
    rwa [tokens, ← List.append_assoc, List.dropLast_concat] at some
  refine ⟨by rw [← old, leaves_parse], ?_⟩
  rw [Tree.render, Node.render_eq_leaves, new, ← Tree.flatten_stretches site.node.leading]
  refine inserts.map_bare_lex tokens inner some split apart fun none filled => ?_
  -- nothing stands in front of the place, so it is that in front of the anchor
  obtain ⟨-, after⟩ := Tree.around_declaration found
  rw [← Node.leadingAll_leaves] at filled ⊢
  cases leaves : site.node.leaves with
  | nil => simp [leaves, Token.leadingAll] at filled
  | cons first rest =>
    cases position with
    | after => simp [Tree.sides, leaves] at none
    | before =>
      refine ⟨by simp [Tree.sides, leaves, Token.leadingAll], first,
        by simp [Tree.sides, leaves], ?_⟩
      apply inner first
      rw [Tree.sides, leaves] at split
      obtain _ | ⟨next, behind⟩ := behind
      · simp [after] at split
      · simp [(List.cons.inj split).1]

/-- A member is written in front of another one, with a comment behind it. -/
theorem insertion_splices_apart_member :
    ∃ (tree : Tree) (address : Address) (site : Site) (nodes : List Node) (result : Tree),
      tree = (parse "a" "struct S \x7b\n  var x\n  var y\n\x7d").tree ∧
      address = ⟨.declaration, [1, 2], by decide, by decide⟩ ∧
      tree.resolve address = .ok site ∧
      tree.insertionFor address "var z // last" .before = .ok nodes ∧
      tree.insert nodes address .before = .ok result ∧
      result.render = "struct S \x7b\n  var x\n  var z // last\n  var y\n\x7d" ∧
      (lex result.render).map Token.bare =
        ((tree.sides site .before).1 ++ (lex "var z // last").dropLast ++
          (tree.sides site .before).2).map Token.bare := by
  let tree := (parse "a" "struct S \x7b\n  var x\n  var y\n\x7d").tree
  let address : Address := ⟨.declaration, [1, 2], by decide, by decide⟩
  have facts : (tree.resolve address).toOption.bind (fun site =>
      (tree.insertionFor address "var z // last" .before).toOption.bind fun nodes =>
        (tree.insert nodes address .before).toOption.map fun result =>
          (result.render, decide (Token.Spaced ((tree.sides site .before).1 ::
            Tree.stretches site.node.leading nodes) (tree.sides site .before).2))) =
      some ("struct S \x7b\n  var x\n  var z // last\n  var y\n\x7d", true) := by decide +kernel
  obtain ⟨site, found, facts⟩ := Option.bind_eq_some_iff.mp facts
  obtain ⟨nodes, made, facts⟩ := Option.bind_eq_some_iff.mp facts
  obtain ⟨result, inserted, facts⟩ := Option.map_eq_some_iff.mp facts
  obtain ⟨text, apart⟩ := Prod.mk.inj facts
  have found := eq_ok_of_toOption found
  have made := eq_ok_of_toOption made
  have inserted := eq_ok_of_toOption inserted
  obtain ⟨-, tokens⟩ := insertion_splices_apart found made inserted (of_decide_eq_true apart)
  exact ⟨tree, address, site, nodes, result, rfl, rfl, found, made, inserted, text, tokens⟩

/-- Where the text has no trivia and there is none to take over, the inserted tokens can grow
together with those of the document. -/
theorem inserted_items_fuse :
    ¬∀ (identity document text : String) (path : Path) (position : InsertPosition) (site : Site)
        (nodes : List Node) (result : Tree),
      (parse identity document).tree.resolve ⟨.declaration, path⟩ = .ok site →
      (parse identity document).tree.insertionFor ⟨.declaration, path⟩ text position = .ok nodes →
      (parse identity document).tree.insert nodes ⟨.declaration, path⟩ position = .ok result →
      (lex result.render).map Token.bare =
        (((parse identity document).tree.sides site position).1 ++ (lex text).dropLast ++
          ((parse identity document).tree.sides site position).2).map Token.bare := by
  intro splices
  let tree := (parse "a" "let a = b").tree
  let path : Path := ⟨[1], by decide, by decide⟩
  have facts : (tree.resolve ⟨.declaration, path⟩).toOption.bind (fun site =>
      (tree.insertionFor ⟨.declaration, path⟩ "let c = d" .after).toOption.bind fun nodes =>
        (tree.insert nodes ⟨.declaration, path⟩ .after).toOption.map fun result =>
          decide ((lex result.render).map Token.bare =
            ((tree.sides site .after).1 ++ (lex "let c = d").dropLast ++
              (tree.sides site .after).2).map Token.bare)) = some false := by decide +kernel
  obtain ⟨site, found, facts⟩ := Option.bind_eq_some_iff.mp facts
  obtain ⟨nodes, made, facts⟩ := Option.bind_eq_some_iff.mp facts
  obtain ⟨result, inserted, differ⟩ := Option.map_eq_some_iff.mp facts
  exact of_decide_eq_false differ (splices "a" "let a = b" "let c = d" path .after site nodes result
    (eq_ok_of_toOption found) (eq_ok_of_toOption made) (eq_ok_of_toOption inserted))

end SwiftTree
