import SwiftTree.Proofs.Mutation.Splice
import SwiftTree.Proofs.Script.Rendering
import SwiftTree.Proofs.Text.Split

/-!
# Replacing a node by a text

A node that is made from a text takes over trivia only where the text has none: a token all trivia
of the old one, an item the trivia in front of the old one. So what is replaced is one stretch of
the document, which reaches from the old node into its trivia as far as the text brings trivia of
its own, and in the place of the stretch the text stands as it was written.
-/

namespace SwiftTree

namespace Trivia

/-- Trivia without empty pieces takes no room only if there is none. -/
theorem width_eq_zero_iff {trivia : Trivia} (filled : ∀ piece ∈ trivia, piece.text ≠ "") :
    trivia.width = 0 ↔ trivia = [] := by
  cases trivia with
  | nil => exact ⟨fun _ => rfl, fun _ => rfl⟩
  | cons piece rest =>
    have some : piece.text.utf8ByteSize ≠ 0 := by
      simpa using filled piece List.mem_cons_self
    rw [width]
    exact ⟨fun none => by omega, fun none => absurd none (List.cons_ne_nil _ _)⟩

end Trivia

namespace Token

theorem triviaAll_append (as bs : List Token) :
    triviaAll (as ++ bs) = triviaAll as ++ triviaAll bs :=
  List.flatMap_append

theorem triviaAll_appendTrailing {tokens : List Token} (h : tokens ≠ []) (trivia : Trivia) :
    triviaAll (appendTrailing tokens trivia) = triviaAll tokens ++ trivia := by
  obtain ⟨before, last, rfl⟩ := (List.eq_nil_or_concat tokens).resolve_left h
  rw [List.concat_eq_append, appendTrailing_concat, triviaAll_append, triviaAll_append]
  simp [triviaAll]

theorem head?_leading_appendTrailing (tokens : List Token) (trivia : Trivia) :
    (appendTrailing tokens trivia).head?.map leading = tokens.head?.map leading := by
  obtain rfl | ⟨before, last, rfl⟩ := List.eq_nil_or_concat tokens
  · rfl
  · rw [List.concat_eq_append, appendTrailing_concat]
    cases before <;> rfl

end Token

namespace Node

/-- The text of a node goes on behind the trivia in front of it. -/
theorem exists_render_eq_leading (node : Node) :
    ∃ rest, node.render = node.leading.render ++ rest :=
  ⟨_, node.render_eq_contentText⟩

theorem render_withLeading {node : Node} (some : node.leaves ≠ []) (none : node.leading = [])
    (trivia : Trivia) : (node.withLeading trivia).render = trivia.render ++ node.render := by
  obtain ⟨first, rest, leaves⟩ := List.exists_cons_of_ne_nil some
  have empty : first.leading = [] := by
    simpa [leading, firstToken?_eq_head?, leaves] using none
  rw [render_eq_leaves, render_eq_leaves, withLeading, leaves_mapFirst, leaves]
  simp [Token.render, Trivia.render, empty, String.append_assoc]

end Node

namespace Fragment

namespace Reads

variable {text : String} {nodes : List Node}

/-- The nodes of a fragment have the trivia of its text. -/
theorem triviaAll (h : Reads text nodes) :
    Token.triviaAll (Node.leavesAll nodes) = Token.triviaAll (lex text) := by
  obtain ⟨inner, leading, tokens, -⟩ := exists_lex_eq text
  have last : endTrivia (lex text) = leading := by simp [endTrivia, tokens]
  rw [h.leaves, Token.triviaAll_appendTrailing h.some, last, tokens, List.dropLast_concat,
    Token.triviaAll_append]
  simp [Token.triviaAll]

/-- They begin with the trivia that the text begins with. -/
theorem head?_leading (h : Reads text nodes) :
    (Node.leavesAll nodes).head?.map Token.leading = (lex text).head?.map Token.leading := by
  rw [h.leaves, Token.head?_leading_appendTrailing]
  obtain ⟨first, rest, split⟩ := List.exists_cons_of_ne_nil h.some
  obtain ⟨inner, last, tokens, -⟩ := endsOnce_lex text
  rw [tokens, List.dropLast_concat] at split
  rw [tokens, List.dropLast_concat, split]
  rfl

end Reads

/-- The only token of a fragment is a token. -/
theorem exists_eq_token {text : String} {node : Node} (h : token text = .ok node) :
    ∃ new, node = .token new := by
  obtain ⟨nodes, all, single⟩ := bind_eq_ok_iff.mp h
  split at single
  · cases single
    unfold tokens at all
    dsimp only at all
    split at all
    · cases all
    · have same := map_bare_close all
      cases node with
      | token new => exact ⟨new, rfl⟩
      | composite kind children =>
        have member : (Node.composite kind children).bare ∈
            ((lex text).dropLast.map Node.token).map Node.bare := by
          rw [← same]
          exact List.mem_cons_self
        obtain ⟨found, inside, bare⟩ := List.mem_map.mp member
        obtain ⟨t, -, rfl⟩ := List.mem_map.mp inside
        rw [Node.bare_token, Node.bare_composite] at bare
        cases bare
  · cases single

end Fragment

namespace Site

/-- The byte offset at which the node and the trivia behind it end. -/
def stop (site : Site) : Nat :=
  site.offset + site.node.width

/-- The byte offset at which the text of the node ends, without the trivia behind it. -/
def contentStop (site : Site) : Nat :=
  site.stop - site.node.trailingWidth

/-- The span that a text takes when it replaces the node. A text without trivia leaves the trivia of
a token, and a text without trivia at its start the trivia in front of an item. -/
def replacedSpan (site : Site) (text : String) : Nat × Nat :=
  match site.node with
  | .token _ =>
    if Token.triviaAll (lex text) = [] then (site.contentOffset, site.contentStop)
    else (site.offset, site.stop)
  | .composite _ _ =>
    (if (lex text).head?.map Token.leading = some [] then site.contentOffset else site.offset,
      site.stop)

end Site

namespace Node

/-- The trivia of a node, in front of it and behind it, that is left when a text replaces the
node. -/
def kept (text : String) : Node → Trivia × Trivia
  | .token old => if Token.triviaAll (lex text) = [] then (old.leading, old.trailing) else ([], [])
  | .composite kind children =>
    (if (lex text).head?.map Token.leading = some [] then (composite kind children).leading else [],
      [])

/-- What is left of the text of a node stands at its two ends. -/
theorem exists_render_eq_kept (text : String) (node : Node) :
    ∃ middle, node.render = (node.kept text).1.render ++ middle ++ (node.kept text).2.render := by
  cases node with
  | token old =>
    rw [kept]
    split
    · exact ⟨old.text, by simp [render, Token.render, String.append_assoc]⟩
    · exact ⟨old.render, by simp [render, Trivia.render]⟩
  | composite kind children =>
    rw [kept]
    split
    · obtain ⟨rest, text⟩ := exists_render_eq_leading (composite kind children)
      exact ⟨rest, by simp [text, Trivia.render]⟩
    · exact ⟨(composite kind children).render, by simp [Trivia.render]⟩

end Node

theorem Site.replacedSpan_eq (site : Site) (text : String) :
    site.replacedSpan text = (site.offset + (site.node.kept text).1.width,
      site.stop - (site.node.kept text).2.width) := by
  unfold replacedSpan contentStop contentOffset Node.leadingWidth Node.trailingWidth
  cases site.node with
  | token old =>
    dsimp only [Node.kept]
    split <;> rfl
  | composite kind children =>
    dsimp only [Node.kept]
    split <;> rfl

/-- A token that is made from a text takes over trivia only if the text has none. -/
theorem Token.render_inheritTrivia {text : String} {new : Token}
    (h : Fragment.Reads text [.token new]) (old : Token) :
    (Node.token (new.inheritTrivia old)).render =
      ((Node.token old).kept text).1.render ++ text ++ ((Node.token old).kept text).2.render := by
  have whole : new.render = text := by simpa [Node.renderAll, Node.render] using h.render
  have trivia : new.leading ++ new.trailing = triviaAll (lex text) := by
    simpa [triviaAll] using h.triviaAll
  have filled : ∀ piece ∈ new.leading ++ new.trailing, piece.text ≠ "" := by
    rw [trivia]
    exact (attached_lex text).filled
  rw [List.forall_mem_append] at filled
  have bare : new.width = new.text.utf8ByteSize ↔ triviaAll (lex text) = [] := by
    rw [← trivia, List.append_eq_nil_iff, ← Trivia.width_eq_zero_iff filled.1,
      ← Trivia.width_eq_zero_iff filled.2, width]
    omega
  simp only [inheritTrivia, bare, Node.kept]
  split
  · rename_i none
    rw [← trivia, List.append_eq_nil_iff] at none
    have content : new.text = text := by
      rw [← whole, render, none.1, none.2]
      simp [Trivia.render]
    simp [Node.render, render, content, String.append_assoc]
  · simpa [Node.render, Trivia.render] using whole

/-- An item that is made from a text takes over the trivia in front of a node only if the text does
not begin with trivia. -/
theorem Node.render_inheritLeading {text : String} {item : Node} (h : Fragment.Reads text [item])
    (kind : NodeKind) (children : List Node) :
    (item.inheritLeading (composite kind children).leading).render =
      ((composite kind children).kept text).1.render ++ text ++
        ((composite kind children).kept text).2.render := by
  have whole : item.render = text := by simpa [renderAll] using h.render
  have some : item.leaves ≠ [] := h.filled item List.mem_cons_self
  obtain ⟨first, rest, leaves⟩ := List.exists_cons_of_ne_nil some
  have begins : item.leading = first.leading := by
    simp [leading, firstToken?_eq_head?, leaves]
  have same : (lex text).head?.map Token.leading = .some item.leading := by
    rw [← h.head?_leading, begins, leavesAll_cons, leaves]
    rfl
  have filled : ∀ piece ∈ item.leading, piece.text ≠ "" := by
    intro piece member
    apply (attached_lex text).filled
    rw [← h.triviaAll, leavesAll_cons, leaves, Token.triviaAll]
    simp [← begins, member]
  have bare : 0 < item.leadingWidth ↔ item.leading ≠ [] := by
    rw [Nat.pos_iff_ne_zero, ne_eq, leadingWidth, Trivia.width_eq_zero_iff filled]
  simp only [inheritLeading, bare, kept, same, Option.some.injEq]
  by_cases none : item.leading = []
  · simp [none, render_withLeading some none, whole, Trivia.render]
  · simp [none, whole, Trivia.render]

namespace Tree

/-- What is made from a text to replace a node is the text between what is left of the node. -/
theorem render_replacementFor {tree : Tree} {address : Address} {site : Site} {text : String}
    {node : Node} (found : tree.resolve address = .ok site)
    (h : tree.replacementFor address text = .ok node) :
    node.render = (site.node.kept text).1.render ++ text ++ (site.node.kept text).2.render ∧
      (site.node.isToken → node.isToken) := by
  obtain ⟨target, resolved, h⟩ := bind_eq_ok_iff.mp h
  obtain rfl : site = target := by
    rw [mapError_eq_ok_iff, found] at resolved
    exact Except.ok.inj resolved
  split at h
  · rename_i old target
    obtain ⟨fragment, parsed, h⟩ := bind_eq_ok_iff.mp h
    rw [mapError_eq_ok_iff] at parsed
    obtain ⟨new, rfl⟩ := Fragment.exists_eq_token parsed
    cases h
    rw [target]
    exact ⟨Token.render_inheritTrivia (Fragment.reads_token parsed) old, fun _ => rfl⟩
  · rename_i other
    split at h
    · cases h
    · obtain ⟨item, parsed, h⟩ := bind_eq_ok_iff.mp h
      obtain ⟨items, all, single⟩ := bind_eq_ok_iff.mp (mapError_eq_ok_iff.mp parsed)
      split at single
      · cases single
        cases h
        cases target : site.node with
        | token old => exact absurd target (other old)
        | composite kind children =>
          exact ⟨Node.render_inheritLeading (Fragment.reads_items all) kind children, nofun⟩
      · cases single

/-- The tokens of a document stand below its root. -/
theorem isToken_of_resolve {identity text : String} {path : Path} {site : Site}
    (found : (parse identity text).tree.resolve ⟨.token, path⟩ = .ok site) :
    site.node.isToken ∧ site.trail ≠ [] := by
  have token : site.node.isToken := by
    obtain ⟨t, node⟩ := exists_token_of_resolve found
    rw [node]
    rfl
  refine ⟨token, fun root => ?_⟩
  have holds : (parse identity text).tree.root.Holds site.trail site.offset site.node :=
    mem_sites_iff.mp (mem_sites_of_resolve found)
  obtain ⟨items, last, top, -⟩ := root_parse identity text
  rw [root, Node.holds_nil_iff, top] at holds
  rw [← holds.1] at token
  cases token

end Tree

/-- Replacing a node by a text touches only the span that the text takes: in front of it and behind
it the document stays as it is, and in its place stands the text. A token can always be replaced by
what is made from a text for it. -/
theorem replacement_exact {identity document text : String} {address : Address} {site : Site}
    {node : Node} (found : (parse identity document).tree.resolve address = .ok site)
    (made : (parse identity document).tree.replacementFor address text = .ok node) :
    (∀ policy result, (parse identity document).tree.replace policy address node = .ok result →
      ∃ before middle after,
        Text.cut? document (site.replacedSpan text).1 (site.replacedSpan text).2 =
          some (before, middle, after) ∧
        result.render = before ++ text ++ after) ∧
      (address.scheme = .token → ∀ policy, ∃ result,
        (parse identity document).tree.replace policy address node = .ok result) := by
  obtain ⟨rendered, token⟩ := Tree.render_replacementFor found made
  constructor
  · intro policy result replaced
    obtain ⟨below, -, rfl⟩ := (Tree.replace_eq_ok_iff found).mp replaced
    obtain ⟨context, trail, root, size⟩ := Tree.exists_context_of_resolve found below
    obtain ⟨middle, old⟩ := site.node.exists_render_eq_kept text
    have whole : document = (parse identity document).tree.render := by
      rw [Tree.render, Node.render_eq_leaves, leaves_parse, renderAll_lex]
    rw [Tree.render, root, context.render_fill, Node.renderAll, Node.renderAll,
      String.append_empty, old] at whole
    refine ⟨Token.renderAll context.before ++ (site.node.kept text).1.render, middle,
      (site.node.kept text).2.render ++ Token.renderAll context.after, ?_, ?_⟩
    · have wide : site.node.width = (site.node.kept text).1.width +
          middle.utf8ByteSize + (site.node.kept text).2.width := by
        rw [← Node.utf8ByteSize_render, old]
        simp
      rw [Text.cut?_eq_some_iff, Site.replacedSpan_eq, Site.stop, String.utf8ByteSize_append, size,
        Trivia.utf8ByteSize_render]
      refine ⟨?_, rfl, ?_⟩
      · rw [whole]
        simp only [String.append_assoc]
      · dsimp only
        omega
    · rw [Tree.withRoot, Tree.render, root, ← trail, context.replaceAt_fill, context.render_fill,
        Node.renderAll, Node.renderAll, rendered]
      simp only [String.append_assoc, String.append_empty]
  · intro scheme policy
    obtain ⟨_, path⟩ := address
    cases scheme
    obtain ⟨target, below⟩ := Tree.isToken_of_resolve found
    exact ⟨_, (Tree.replace_eq_ok_iff found).mpr
      ⟨below, policy.check_token _ target (token target), rfl⟩⟩

/-- A name is replaced, and the blank behind it stays. -/
theorem replacement_exact_name :
    ∃ (tree : Tree) (address : Address) (site : Site) (node : Node) (result : Tree),
      tree = (parse "a" "let a = b").tree ∧ address = ⟨.token, [2], by decide, by decide⟩ ∧
      tree.resolve address = .ok site ∧ site.replacedSpan "x" = (4, 5) ∧
      tree.replacementFor address "x" = .ok node ∧
      tree.replace {} address node = .ok result ∧ result.render = "let x = b" := by
  let tree := (parse "a" "let a = b").tree
  let address : Address := ⟨.token, [2], by decide, by decide⟩
  have place : (tree.resolve address).map (fun site => site.replacedSpan "x") = .ok (4, 5) := by
    decide +kernel
  have built : (tree.replacementFor address "x").isOk := by decide +kernel
  cases found : tree.resolve address with
  | error error => simp [found, Except.map] at place
  | ok site =>
    cases made : tree.replacementFor address "x" with
    | error error => simp [made, Except.isOk, Except.toBool] at built
    | ok node =>
      obtain ⟨splices, accepted⟩ := replacement_exact found made
      obtain ⟨result, replaced⟩ := accepted rfl {}
      obtain ⟨before, middle, after, cut, text⟩ := splices {} result replaced
      have span : site.replacedSpan "x" = (4, 5) := by simpa [found, Except.map] using place
      have parts : Text.cut? "let a = b" 4 5 = some ("let ", "a", " = b") := by decide +kernel
      rw [span, parts] at cut
      cases cut
      exact ⟨tree, address, site, node, result, rfl, rfl, found, span, made, replaced, text⟩

end SwiftTree
