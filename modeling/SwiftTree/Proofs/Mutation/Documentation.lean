import SwiftTree.Proofs.Mutation.Splice
import SwiftTree.Proofs.Token.Relead
import SwiftTree.Proofs.Trivia.Documentation

/-!
# Documentation does not touch code

Whatever text a token is documented with, the tokens of the document stay the same when it is
written and read again: the comments can neither end early and let their text become code, nor run
on and hide code. If the token begins a line, the document is also parsed to a tree of the same
shape. A token inside of a line is moved to a line of its own, which the grammar may see.
-/

namespace SwiftTree

open Documentation (pieces setDocumentation)

namespace Token

variable {text : String} {before after : List Token} {token : Token}
  {documentation : Option String} {newline : String} {startsLine : Bool}

/-- Behind another token, trivia that is not empty begins with a line break, before and after its
documentation is set. -/
theorem exists_setDocumentation_eq (tokens : lex text = before ++ token :: after)
    (later : before ≠ []) (some : token.leading ≠ []) :
    ∃ feed old new, feed.isNewline ∧ token.leading = feed :: old ∧
      setDocumentation token.leading documentation newline startsLine = feed :: new := by
  obtain ⟨first, before, rfl⟩ := List.exists_cons_of_ne_nil later
  obtain ⟨feed, old, leading⟩ := List.exists_cons_of_ne_nil some
  have member : token ∈ (lex text).tail := by simp [tokens]
  have breaks : feed.isNewline := isNewline_of_head?_leading member (by simp [leading])
  rw [leading, Documentation.setDocumentation_cons_newline breaks]
  exact ⟨feed, old, _, breaks, rfl, rfl⟩

/-- Behind another token, a token is read again when it is documented. -/
theorem sameLayout_documented_of_ne_nil (tokens : lex text = before ++ token :: after)
    (inner : ¬token.isEnd) (line : (Piece.newline newline).Sound) (later : before ≠ [])
    (starts : startsLine = token.leading.breaksLine) :
    let leading := setDocumentation token.leading documentation newline startsLine
    SameLayout (lex (renderAll (before ++ { token with leading } :: after)))
      (before ++ { token with leading } :: after) := by
  intro leading
  have sound : leading.Sound :=
    Documentation.sound_setDocumentation (sound_leading tokens inner later) line
  have again (feeds : leading.Feeds) :
      SameLayout (lex (renderAll (before ++ { token with leading } :: after)))
        (before ++ { token with leading } :: after) :=
    @sameLayout_relead _ _ _ _ [] _ leading tokens inner rfl (isNewline_of_getLast?_before tokens)
      sound (.inl feeds)
  by_cases none : token.leading = []
  case neg =>
    obtain ⟨feed, -, new, breaks, -, set⟩ := exists_setDocumentation_eq tokens later none
    exact again ⟨feed, new, set, breaks⟩
  -- the token stands inside of a line: a line break comes first, unless nothing changes
  have set := @Documentation.setDocumentation_nil documentation newline
  have inside : startsLine = false := by
    rw [starts, none]
    rfl
  rw [← none, ← inside] at set
  split at set
  · have same : ({ token with leading } : Token) = token := by
      rw [show leading = token.leading from set]
    rw [same, ← tokens, renderAll_lex]
    exact ⟨rfl, rfl⟩
  · exact again ⟨_, _, set, rfl⟩

/-- So is the first token, if the text does not begin with a hash sign afterwards. -/
theorem sameLayout_documented_of_nil (tokens : lex text = token :: after)
    (inner : ¬token.isEnd) (line : (Piece.newline newline).Sound)
    (code : (documentation.map pieces).getD [] ≠ [] ∨ token.text ≠ "#") :
    let leading := setDocumentation token.leading documentation newline startsLine
    SameLayout (lex (renderAll ({ token with leading } :: after)))
      ({ token with leading } :: after) := by
  intro leading
  obtain ⟨later, found, -⟩ := @exists_lexemes_eq _ [] _ _ tokens inner
  obtain sound | ⟨comment, feed, rest, parts, plain, breaks, sound⟩ :=
    Lexer.sound_or_of_lexemes found
  · have starts : leading ≠ [] ∨ token.text ≠ "#" :=
      code.imp Documentation.setDocumentation_ne_nil id
    exact @sameLayout_relead _ [] _ _ [] _ leading tokens inner rfl nofun
      (Documentation.sound_setDocumentation sound line) (.inr ⟨rfl, rfl, starts⟩)
  · -- the first line is a comment, which stays where it is
    have set : leading =
        [comment] ++ setDocumentation (feed :: rest) documentation newline startsLine := by
      rw [show leading = setDocumentation token.leading documentation newline startsLine from rfl,
        parts, Documentation.setDocumentation_cons_comment plain breaks]
      rfl
    rw [set]
    refine @sameLayout_relead _ [] _ _ [comment] (feed :: rest) _ tokens inner parts
      (isNewline_of_getLast?_comment plain) (Documentation.sound_setDocumentation sound line)
      (.inl ?_)
    exact ⟨feed, _, Documentation.setDocumentation_cons_newline breaks rest, breaks⟩

/-- Where a line begins, the documentation does not change what is seen of the gaps. -/
theorem sameLayout_setDocumentation (tokens : lex text = before ++ token :: after)
    (starts : before = [] ∨ token.leading.breaksLine) :
    SameLayout (before ++ { token with
        leading := setDocumentation token.leading documentation newline startsLine } :: after)
      (before ++ token :: after) := by
  refine ⟨by simp [bare], gaps_relead ?_⟩
  by_cases later : before = []
  · exact .inl later
  · have some : token.leading ≠ [] := by
      intro none
      simp [later, none, Trivia.breaksLine] at starts
    obtain ⟨feed, old, new, breaks, leading, set⟩ := exists_setDocumentation_eq tokens later some
    rw [set, leading]
    simp [Trivia.breaksLine, Piece.breaksLine, breaks]

/-- Tokens in front of another token of a text are written as nothing only if there are none. -/
theorem renderAll_eq_empty_iff (tokens : lex text = before ++ token :: after) :
    renderAll before = "" ↔ before = [] := by
  refine ⟨fun empty => ?_, fun none => by rw [none]; rfl⟩
  cases before with
  | nil => rfl
  | cons first before =>
    have inner : ¬first.isEnd := by
      obtain ⟨others, last, all, -, none⟩ := endsOnce_lex text
      rw [tokens] at all
      cases others with
      | nil => simp at all
      | cons other others => exact (List.cons.inj all).1 ▸ none other List.mem_cons_self
    have member : first ∈ lex text := by simp [tokens]
    simp [renderAll_cons, render, text_ne_empty_of_mem_lex member inner] at empty

end Token

namespace Tree

theorem sound_newline (tree : Tree) : (Piece.newline tree.newline).Sound := by
  unfold newline
  dsimp only
  split
  · exact ⟨by decide, by simp [Piece.newline, Text.isLineBreak]⟩
  · exact ⟨by decide, by simp [Piece.newline, Text.isLineBreak]⟩

/-- A token that an address leads to stands among the tokens of the tree, and so does the token that
replaces it. Only the first token stands at the start of the text. -/
theorem leaves_of_resolve {identity text : String} {path : Path} {site : Site} {token : Token}
    (found : (parse identity text).tree.resolve ⟨.token, path⟩ = .ok site)
    (node : site.node = .token token) :
    let before := (parse identity text).tree.root.leavesBefore site.trail
    let after := (parse identity text).tree.root.leavesAfter site.trail
    ¬token.isEnd ∧ lex text = before ++ token :: after ∧ (site.offset = 0 ↔ before = []) ∧
      ∀ new, ((parse identity text).tree.withRoot ((parse identity text).tree.root.replaceAt
        site.trail (.token new))).render = Token.renderAll (before ++ new :: after) := by
  have holds : (parse identity text).tree.root.Holds site.trail site.offset site.node :=
    mem_sites_iff.mp (mem_sites_of_resolve found)
  have numbered := isNumberedToken_of_resolve found
  rw [node] at holds numbered
  have inner : ¬token.isEnd := by simpa [Node.isNumberedToken] using numbered
  have below : site.trail ≠ [] := by
    intro none
    rw [none, Node.holds_nil_iff] at holds
    cases holds.1
  obtain ⟨index, t, trail⟩ := List.exists_cons_of_ne_nil below
  rw [trail] at holds
  obtain ⟨context, path, root, size⟩ := holds.exists_context
  have first : (parse identity text).tree.root.leavesBefore site.trail = context.before := by
    rw [root, trail, ← path, context.leavesBefore_fill]
  have last : (parse identity text).tree.root.leavesAfter site.trail = context.after := by
    rw [root, trail, ← path, context.leavesAfter_fill]
  have tokens : lex text = context.before ++ token :: context.after := by
    rw [← leaves_parse identity text, root, context.leaves_fill]
    simp [Node.leavesAll, Node.leaves]
  rw [first, last]
  refine ⟨inner, tokens, ?_, fun new => ?_⟩
  · rw [← size, String.utf8ByteSize_eq_zero_iff]
    exact Token.renderAll_eq_empty_iff tokens
  · have filled := context.replaceAt_fill (.token token) (.token new)
    rw [path, ← trail, ← root] at filled
    rw [withRoot, (Context.Yields.of_root filled).render, Token.renderAll_append,
      Token.renderAll_cons, Node.renderAll, Node.renderAll, Node.render, String.append_empty,
      String.append_assoc]

theorem exists_leaves_eq {identity text : String} {path : Path} {site : Site}
    (found : (parse identity text).tree.resolve ⟨.token, path⟩ = .ok site) :
    ∃ before token after, site.node = .token token ∧ ¬token.isEnd ∧
      lex text = before ++ token :: after ∧ (site.offset = 0 ↔ before = []) ∧
      ∀ new, ((parse identity text).tree.withRoot ((parse identity text).tree.root.replaceAt
        site.trail (.token new))).render = Token.renderAll (before ++ new :: after) := by
  obtain ⟨token, node⟩ := exists_token_of_resolve found
  exact ⟨_, token, _, node, leaves_of_resolve found node⟩

end Tree

/-- Documentation does not touch code. Let an address lead to a token of a text, and let the token
be documented with any text that is not blank, or with a blank one or none if the first token is not
a hash sign. The comments for the text are then part of the trivia in front of the token, and only
this trivia changes. The tree, written and read again, has the same tokens, and if the token begins
a line, also the same shape. -/
theorem documentation_keeps_code {identity text : String} {path : Path} {site : Site}
    {documentation : Option String}
    (found : (parse identity text).tree.resolve ⟨.token, path⟩ = .ok site)
    (code : (∃ words, documentation = some words ∧ Text.trim words ≠ "") ∨
      (lex text).head?.map Token.text ≠ some "#") :
    ∃ token leading result,
      site.node = .token token ∧
      (parse identity text).tree.documentToken ⟨.token, path⟩ documentation = .ok result ∧
      result.root = (parse identity text).tree.root.replaceAt site.trail
        (.token { token with leading }) ∧
      (∀ words, documentation = some words → (pieces words).Sublist leading) ∧
      (lex result.render).map Token.bare = (lex text).map Token.bare ∧
      (site.offset = 0 ∨ token.leading.breaksLine →
        (parse identity result.render).tree.root.bare = (parse identity text).tree.root.bare) := by
  obtain ⟨before, token, after, node, inner, tokens, first, written⟩ := Tree.exists_leaves_eq found
  let tree := (parse identity text).tree
  let leading := setDocumentation token.leading documentation tree.newline
    (Tree.startsLine site.offset token)
  let result := tree.withRoot (tree.root.replaceAt site.trail (.token { token with leading }))
  have documented : tree.documentToken ⟨.token, path⟩ documentation = .ok result :=
    (Tree.documentToken_eq_ok_iff found).mpr ⟨token, node, rfl⟩
  have again : SameLayout (lex (Token.renderAll (before ++ { token with leading } :: after)))
      (before ++ { token with leading } :: after) := by
    by_cases later : before = []
    · subst later
      refine Token.sameLayout_documented_of_nil tokens inner tree.sound_newline ?_
      rw [tokens] at code
      obtain ⟨words, given, filled⟩ | other := code
      · left
        rw [given, Option.map_some, Option.getD_some]
        exact Documentation.pieces_ne_nil filled
      · exact .inr (by simpa using other)
    · refine Token.sameLayout_documented_of_ne_nil tokens inner tree.sound_newline later ?_
      simp [Tree.startsLine, first, later]
  rw [← written] at again
  refine ⟨token, leading, result, node, documented, rfl, ?_, ?_, ?_⟩
  · rintro words rfl
    exact Documentation.pieces_sublist_setDocumentation words
  · rw [tokens]
    refine again.tokens.trans ?_
    simp [Token.bare]
  · rw [first]
    intro starts
    have unseen : SameLayout (before ++ { token with leading } :: after) (lex text) := by
      rw [tokens]
      exact Token.sameLayout_setDocumentation tokens starts
    exact (again.trans unseen).bare_parse

/-- A block comment that ends early would let the rest of the documentation become code, so each of
its lines is made a comment instead. -/
theorem documentation_keeps_code_early_end :
    ∃ (tree : Tree) (address : Address) (site : Site) (result : Tree),
      tree = (parse "a" "let a\n  let b").tree ∧
      address = ⟨.token, [3], by decide, by decide⟩ ∧
      tree.resolve address = .ok site ∧ site.offset = 5 ∧ Text.trim "/** c */ let d" ≠ "" ∧
      tree.documentToken address (some "/** c */ let d") = .ok result ∧
      result.render = "let a\n  /// /** c */ let d\n  let b" ∧
      (lex result.render).map Token.bare = (lex "let a\n  let b").map Token.bare ∧
      (parse "a" result.render).tree.root.bare = tree.root.bare := by
  let tree := (parse "a" "let a\n  let b").tree
  let address : Address := ⟨.token, [3], by decide, by decide⟩
  have facts : (tree.resolve address).map (fun site => (site.offset, site.node)) =
      .ok (5, .token ⟨.keyword, "let", [.newline "\n", .whitespace "  "], [.whitespace " "]⟩) := by
    decide +kernel
  have text : (tree.documentToken address (some "/** c */ let d")).map Tree.render =
      .ok "let a\n  /// /** c */ let d\n  let b" := by decide +kernel
  have filled : Text.trim "/** c */ let d" ≠ "" := by decide +kernel
  cases found : tree.resolve address with
  | error error => simp [found, Except.map] at facts
  | ok site =>
    obtain ⟨offset, node⟩ := Prod.mk.inj (Except.ok.inj (found ▸ facts))
    obtain ⟨token, leading, result, same, documented, -, -, tokens, shape⟩ :=
      documentation_keeps_code found (.inl ⟨_, rfl, filled⟩)
    obtain rfl := Node.token.inj (same.symm.trans node)
    rw [documented] at text
    exact ⟨tree, address, site, result, rfl, rfl, found, offset, filled, documented,
      Except.ok.inj text, tokens, shape (.inr rfl)⟩

end SwiftTree
