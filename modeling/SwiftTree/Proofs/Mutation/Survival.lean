import SwiftTree.Proofs.Mutation.Documentation
import SwiftTree.Proofs.Mutation.Overwriting
import SwiftTree.Proofs.Token.Rereading

/-!
# Documentation that is saved

A tree in which documentation was set can be written and read again. Its tokens are the same, but
whether the documentation can be taken away again depends on how it is read: a comment that was
written as documentation is read by its opening, and four slashes, three stars and an empty block
make an ordinary comment. Such comments stay, all others go.
-/

namespace SwiftTree

open Documentation (comments pieces setDocumentation)

namespace Documentation

/-- How comments open that are no documentation, although they begin as it does. -/
def lookalikes : List String :=
  ["////", "/***", "/**/"]

/-- The comments for a text begin as documentation does. -/
theorem opens_of_mem_pieces {words : String} {piece : Piece} (h : piece ∈ pieces words) :
    ['/', '/', '/'] <+: piece.text.toList ∨ ['/', '*', '*'] <+: piece.text.toList := by
  have lines {words : String} (member : piece ∈ lineComments words) :
      ['/', '/', '/'] <+: piece.text.toList := by
    obtain ⟨line, -, rfl⟩ := List.mem_map.mp member
    exact (lineComment_spec line.content).1
  have stars : "/**".toList = ['/', '*', '*'] := rfl
  simp only [pieces, stars, List.isPrefixOf_iff_prefix] at h
  split at h
  · cases h
  split at h
  case isFalse => exact .inl (lines h)
  rename_i opens
  split at h
  · obtain rfl := List.mem_singleton.mp h
    exact .inr opens
  · obtain rfl := List.mem_singleton.mp h
    rw [String.toList_append]
    exact .inr (opens.trans (List.prefix_append _ _))
  · exact .inl (lines h)

/-- A comment that begins as documentation does is read as documentation unless it goes on
otherwise. -/
theorem isDocumentation_reread_iff {piece : Piece}
    (h : ['/', '/', '/'] <+: piece.text.toList ∨ ['/', '*', '*'] <+: piece.text.toList) :
    piece.reread.isDocumentation ↔
      ∀ opening ∈ lookalikes, ¬opening.toList <+: piece.text.toList := by
  have slashes : "////".toList = ['/', '/', '/', '/'] := rfl
  have stars : "/***".toList = ['/', '*', '*', '*'] := rfl
  have empty : "/**/".toList = ['/', '*', '*', '/'] := rfl
  simp only [lookalikes, List.forall_mem_cons, slashes, stars, empty, Piece.reread,
    Piece.isDocumentation]
  obtain ⟨more, chars⟩ | ⟨more, chars⟩ := h
  · rw [← chars]
    cases more with
    | nil => simp [TriviaKind.ofComment, TriviaKind.isDocumentation]
    | cons c more =>
      by_cases fourth : c = '/'
      · simp [fourth, TriviaKind.ofComment, TriviaKind.isDocumentation]
      · simp [fourth, Ne.symm fourth, TriviaKind.ofComment, TriviaKind.isDocumentation]
  · rw [← chars]
    cases more with
    | nil => simp [TriviaKind.ofComment, TriviaKind.isDocumentation]
    | cons c more =>
      by_cases star : c = '*'
      · simp [star, TriviaKind.ofComment, TriviaKind.isDocumentation]
      · by_cases slash : c = '/'
        · simp [slash, TriviaKind.ofComment, TriviaKind.isDocumentation]
        · simp [star, slash, Ne.symm star, Ne.symm slash, TriviaKind.ofComment,
            TriviaKind.isDocumentation]

/-- An ordinary comment on the first line stays in front. -/
theorem cleared_cons_comment {comment piece : Piece} (plain : comment.kind = .lineComment)
    (h : piece.isNewline) (rest : Trivia) :
    Trivia.cleared (comment :: piece :: rest) = comment :: Trivia.cleared (piece :: rest) := by
  have set := @setDocumentation_cons_comment none "" true comment piece plain h rest
  rwa [setDocumentation_none, setDocumentation_none] at set

end Documentation

theorem Lexer.classified_of_lexemes {cs : List Char} {trivia : Trivia} {kind : TokenKind}
    {text : String} {later : List Lexeme}
    (h : lexemes false 0 cs = trivia.map .piece ++ .token kind text :: later) :
    ∀ piece ∈ trivia, piece.Classified := by
  intro piece member
  refine @classified_of_mem_lexemes 0 cs piece ?_
  rw [h]
  exact List.mem_append_left _ (List.mem_map_of_mem member)

namespace Token

open Lexer

variable {text : String} {before after : List Token} {token : Token}
  {documentation : Option String} {newline : String}

/-- Tokens are read again after documentation was set in the last part of the trivia in front of one
of them, if this part can be read anywhere. -/
theorem exists_lex_documented {kept old : Trivia} {cs : List Char} {later : List Lexeme}
    (tokens : lex text = before ++ token :: after) (inner : ¬token.isEnd)
    (line : newline = "\r\n" ∨ newline = "\n") (filled : comments documentation ≠ [])
    (leading : token.leading = kept ++ old)
    (found : Lexer.lexemes false 0 cs = old.map .piece ++ .token token.kind token.text :: later)
    (ends : ∀ last ∈ (lexemesAll before ++ kept.map Lexeme.piece).getLast?, last.isNewline = false)
    (starts : old.Feeds ∨ before = [] ∧ kept = []) :
    ∃ read, lex (renderAll (before ++ { token with
          leading := kept ++ setDocumentation old documentation newline true } :: after)) =
        before ++ { token with leading := kept ++ read } :: after ∧
      (old.Feeds → read.Feeds) ∧
      (read.cleared.render = old.cleared.render ↔
        ∀ comment ∈ comments documentation, comment.reread.isDocumentation) := by
  let new := setDocumentation old documentation newline true
  have feed : (Piece.newline newline).Sound := by
    obtain rfl | rfl := line <;> decide
  have sound : new.Sound := Documentation.sound_setDocumentation (sound_of_lexemes found) feed
  have feeds : old.Feeds → new.Feeds := by
    rintro ⟨feed, more, rfl, breaks⟩
    exact ⟨feed, _, Documentation.setDocumentation_cons_newline breaks more, breaks⟩
  obtain ⟨read, reads, survives⟩ := Documentation.exists_readFrom_setDocumentation
    (sound_of_lexemes found) (classified_of_lexemes found) line filled
    (avoids_textFrom tokens inner)
  refine ⟨read, lex_relead tokens inner leading ends sound ?_ reads, fun first => ?_, survives⟩
  · refine starts.imp feeds fun none => ⟨none.1, none.2, .inl ?_⟩
    exact Documentation.setDocumentation_ne_nil filled
  · exact feeds_of_readFrom tokens inner sound (feeds first) reads

/-- A token that begins a line is read again after its documentation was set, together with all
other tokens. Its documentation can then be taken away as before exactly if all comments are read as
documentation. -/
theorem exists_reread_documented (tokens : lex text = before ++ token :: after)
    (inner : ¬token.isEnd) (line : newline = "\r\n" ∨ newline = "\n")
    (filled : comments documentation ≠ []) (starts : before = [] ∨ token.leading.breaksLine) :
    ∃ read, lex (renderAll (before ++ { token with
          leading := setDocumentation token.leading documentation newline true } :: after)) =
        before ++ { token with leading := read } :: after ∧
      SameLayout (before ++ { token with leading := read } :: after)
        (before ++ token :: after) ∧
      (read.cleared.render = token.leading.cleared.render ↔
        ∀ comment ∈ comments documentation, comment.reread.isDocumentation) := by
  by_cases first : before = []
  · subst first
    have layout (read : Trivia) : SameLayout ([] ++ { token with leading := read } :: after)
        ([] ++ token :: after) := ⟨by simp [bare], gaps_relead (.inl rfl)⟩
    obtain ⟨later, found, -⟩ := @exists_lexemes_eq _ [] _ _ tokens inner
    obtain same | ⟨comment, feed, rest, parts, plain, breaks, behind, others⟩ :=
      lexemes_or_of_start found
    · obtain ⟨read, again, -, survives⟩ := @exists_lex_documented _ [] _ _ _ _ [] _ _ _ tokens inner
        line filled rfl same (isNewline_of_getLast?_before tokens) (.inr ⟨rfl, rfl⟩)
      exact ⟨read, again, layout read, survives⟩
    · -- the first line is a comment, which stays where it is
      obtain ⟨read, again, next, survives⟩ := @exists_lex_documented _ [] _ _ _ _ [comment] _ _ _
        tokens inner line filled parts others (isNewline_of_getLast?_comment plain)
        (.inl ⟨feed, rest, rfl, breaks⟩)
      obtain ⟨feed', more, rfl, breaks'⟩ := next ⟨feed, rest, rfl, breaks⟩
      refine ⟨comment :: feed' :: more, ?_, layout _, ?_⟩
      · rw [parts, Documentation.setDocumentation_cons_comment plain breaks]
        exact again
      · rw [parts, Documentation.cleared_cons_comment plain breaks,
          Documentation.cleared_cons_comment plain breaks', ← survives, Trivia.render,
          Trivia.render, String.append_right_inj]
  · have some : token.leading ≠ [] := by
      intro none
      simp [first, none, Trivia.breaksLine] at starts
    obtain ⟨cs, others, found⟩ := exists_lexemes_leading tokens inner first
    obtain ⟨feed, old, -, breaks, leading, -⟩ :=
      @exists_setDocumentation_eq _ _ _ _ none "" true tokens first some
    obtain ⟨read, again, next, survives⟩ := @exists_lex_documented _ _ _ _ _ _ [] _ _ _ tokens inner
      line filled rfl found (isNewline_of_getLast?_before tokens)
      (.inl ⟨feed, old, leading, breaks⟩)
    obtain ⟨feed', more, rfl, breaks'⟩ := next ⟨feed, old, leading, breaks⟩
    refine ⟨feed' :: more, again, ⟨by simp [bare], gaps_relead (.inr ?_)⟩, survives⟩
    rw [leading]
    simp [Trivia.breaksLine, Piece.breaksLine, breaks, breaks']

/-- Tokens that differ in the trivia in front of one of them are written alike only if this trivia
is. -/
theorem renderAll_relead_inj {first second : Trivia} :
    renderAll (before ++ { token with leading := first } :: after) =
        renderAll (before ++ { token with leading := second } :: after) ↔
      first.render = second.render := by
  simp only [renderAll_append, renderAll_cons, render, String.append_assoc, String.append_right_inj]
  rw [String.append_left_inj]

end Token

namespace Tree

variable {identity text : String} {path : Path} {site : Site} {token : Token}

/-- The tree in which documentation was taken away is written without it. -/
theorem render_redocument_none
    (found : (parse identity text).tree.resolve ⟨.token, path⟩ = .ok site)
    (node : site.node = .token token) :
    ((parse identity text).tree.redocument none site token).render =
      Token.renderAll ((parse identity text).tree.root.leavesBefore site.trail ++
        { token with leading := token.leading.cleared } ::
          (parse identity text).tree.root.leavesAfter site.trail) := by
  obtain ⟨-, -, -, written⟩ := leaves_of_resolve found node
  rw [← @Documentation.setDocumentation_none token.leading (parse identity text).tree.newline
    (startsLine site.offset token)]
  exact written _

/-- In a text with the same layout, the address of a token leads to the token at the same place. -/
theorem exists_resolve_of_sameLayout {text' : String} {token' : Token}
    (found : (parse identity text).tree.resolve ⟨.token, path⟩ = .ok site)
    (layout : SameLayout (lex text') (lex text))
    (lexed : lex text' = (parse identity text).tree.root.leavesBefore site.trail ++
      token' :: (parse identity text).tree.root.leavesAfter site.trail) :
    ∃ site', (parse identity text').tree.resolve ⟨.token, path⟩ = .ok site' ∧
      site'.node = .token token' ∧
      (parse identity text').tree.root.leavesBefore site'.trail =
        (parse identity text).tree.root.leavesBefore site.trail ∧
      (parse identity text').tree.root.leavesAfter site'.trail =
        (parse identity text).tree.root.leavesAfter site.trail := by
  have shape : (parse identity text').tree.root.bare = (parse identity text).tree.root.bare :=
    layout.bare_parse
  obtain ⟨site', resolved, trail⟩ :=
    exists_resolve_of_bare shape.symm (resolve_eq_ok_iff.mp found)
  have found' := resolve_eq_ok_iff.mpr resolved
  have size : ((parse identity text').tree.root.leavesBefore site'.trail).length =
      ((parse identity text).tree.root.leavesBefore site.trail).length := by
    rw [← @List.length_map _ _ _ Token.bare, ← Node.leavesBefore_bare, shape, trail,
      Node.leavesBefore_bare, List.length_map]
  obtain ⟨other, node⟩ := exists_token_of_resolve found'
  obtain ⟨-, split, -⟩ := leaves_of_resolve found' node
  obtain ⟨first, rest⟩ := List.append_inj (split.symm.trans lexed) size
  obtain ⟨rfl, last⟩ := List.cons.inj rest
  exact ⟨site', found', node, first, last⟩

end Tree

/-- Documentation that is saved can be taken away again, unless it is read as something else. Let an
address lead to a token of a text that begins a line, let the token be documented with a text that
is not blank, and let the tree be written and read again. The address then leads to the token, and
taking its documentation away gives what taking it away at once gives, exactly if none of the
comments written for the text opens like an ordinary comment. -/
theorem documentation_survives_iff {identity text : String} {path : Path} {site : Site}
    {token : Token} {words : String}
    (found : (parse identity text).tree.resolve ⟨.token, path⟩ = .ok site)
    (node : site.node = .token token) (starts : site.offset = 0 ∨ token.leading.breaksLine)
    (filled : Text.trim words ≠ "") :
    ∃ documented cleared again,
      (parse identity text).tree.documentToken ⟨.token, path⟩ (some words) = .ok documented ∧
      (parse identity text).tree.documentToken ⟨.token, path⟩ none = .ok cleared ∧
      (parse identity documented.render).tree.documentToken ⟨.token, path⟩ none = .ok again ∧
      (again.render = cleared.render ↔
        ∀ comment ∈ pieces words, ∀ opening ∈ Documentation.lookalikes,
          ¬opening.toList <+: comment.text.toList) := by
  let tree := (parse identity text).tree
  obtain ⟨inner, tokens, first, written⟩ := Tree.leaves_of_resolve found node
  have begins : Tree.startsLine site.offset token = true := by simpa [Tree.startsLine] using starts
  have some : comments (some words) ≠ [] := by
    rw [Documentation.comments_some]
    exact Documentation.pieces_ne_nil filled
  rw [first] at starts
  obtain ⟨read, lexed, layout, survives⟩ :=
    Token.exists_reread_documented tokens inner tree.newline_eq_or some starts
  let documented := tree.redocument (.some words) site token
  have render : documented.render = Token.renderAll _ := written _
  rw [Tree.documented, begins] at render
  rw [← render] at lexed
  have same : SameLayout (lex documented.render) (lex text) := by
    rw [lexed, tokens]
    exact layout
  obtain ⟨site', found', node', before, after⟩ :=
    Tree.exists_resolve_of_sameLayout found same lexed
  refine ⟨documented, _, _, Tree.documentToken_of_resolve found node _,
    Tree.documentToken_of_resolve found node none,
    Tree.documentToken_of_resolve found' node' none, ?_⟩
  rw [Tree.render_redocument_none found' node', Tree.render_redocument_none found node, before,
    after, Token.renderAll_relead_inj, survives, Documentation.comments_some]
  refine forall₂_congr fun comment member => ?_
  exact Documentation.isDocumentation_reread_iff (Documentation.opens_of_mem_pieces member)

/-- In front of the token stands a comment that only the start of the text makes one, and one line
of the documentation is a comment already. -/
theorem documentation_survives_iff_first_line :
    ∃ (tree : Tree) (address : Address) (site : Site) (token : Token)
      (documented cleared again : Tree),
      tree = (parse "a" "#!s\n /// o\n let b").tree ∧
      address = ⟨.token, [1], by decide, by decide⟩ ∧ tree.resolve address = .ok site ∧
      site.node = .token token ∧ site.offset = 0 ∧ Text.trim "p\n/// q" ≠ "" ∧
      tree.documentToken address (some "p\n/// q") = .ok documented ∧
      documented.render = "#!s\n /// p\n /// q\n let b" ∧
      tree.documentToken address none = .ok cleared ∧ cleared.render = "#!s\n let b" ∧
      (parse "a" documented.render).tree.documentToken address none = .ok again ∧
      again.render = cleared.render := by
  let tree := (parse "a" "#!s\n /// o\n let b").tree
  let path : Path := ⟨[1], by decide, by decide⟩
  have facts : (tree.resolve ⟨.token, path⟩).map (fun site => (site.offset, site.node)) =
      .ok (0, .token ⟨.keyword, "let", [⟨.lineComment, "#!s"⟩, .newline "\n", .whitespace " ",
        ⟨.docLineComment, "/// o"⟩, .newline "\n", .whitespace " "], [.whitespace " "]⟩) := by
    decide +kernel
  have set : (tree.documentToken ⟨.token, path⟩ (some "p\n/// q")).map Tree.render =
      .ok "#!s\n /// p\n /// q\n let b" := by decide +kernel
  have clear : (tree.documentToken ⟨.token, path⟩ none).map Tree.render = .ok "#!s\n let b" := by
    decide +kernel
  have filled : Text.trim "p\n/// q" ≠ "" := by decide +kernel
  have written : pieces "p\n/// q" = [⟨.docLineComment, "/// p"⟩, ⟨.docLineComment, "/// q"⟩] := by
    decide +kernel
  obtain ⟨site, found, same⟩ := exists_of_map_eq_ok facts
  obtain ⟨offset, node⟩ := Prod.mk.inj same
  obtain ⟨documented, cleared, again, first, second, third, survives⟩ :=
    documentation_survives_iff found node (.inl offset) filled
  rw [first] at set
  rw [second] at clear
  refine ⟨tree, ⟨.token, path⟩, site, _, documented, cleared, again, rfl, rfl, found, node, offset,
    filled, first, Except.ok.inj set, second, Except.ok.inj clear, third, survives.mpr ?_⟩
  rw [written]
  decide

/-- A line with four slashes is kept as documentation when it is set, but read as an ordinary
comment afterwards. -/
theorem saved_documentation_kept :
    ∃ (tree : Tree) (address : Address) (site : Site) (documented cleared again : Tree),
      tree = (parse "a" "let a = 1").tree ∧
      address = ⟨.token, [1], by decide, by decide⟩ ∧ tree.resolve address = .ok site ∧
      site.offset = 0 ∧ Text.trim "//// d" ≠ "" ∧
      tree.documentToken address (some "//// d") = .ok documented ∧
      tree.documentToken address none = .ok cleared ∧
      (parse "a" documented.render).tree.documentToken address none = .ok again ∧
      cleared.render = "let a = 1" ∧ again.render = "//// d\nlet a = 1" := by
  let tree := (parse "a" "let a = 1").tree
  let address : Address := ⟨.token, [1], by decide, by decide⟩
  have start : (tree.resolve address).map Site.offset = .ok 0 := by decide +kernel
  have set : (tree.documentToken address (some "//// d")).map Tree.render =
      .ok "//// d\nlet a = 1" := by decide +kernel
  have clear : (tree.documentToken address none).map Tree.render = .ok "let a = 1" := by
    decide +kernel
  have kept : ((parse "a" "//// d\nlet a = 1").tree.documentToken address none).map Tree.render =
      .ok "//// d\nlet a = 1" := by decide +kernel
  have filled : Text.trim "//// d" ≠ "" := by decide +kernel
  obtain ⟨site, found, offset⟩ := exists_of_map_eq_ok start
  obtain ⟨documented, first, written⟩ := exists_of_map_eq_ok set
  obtain ⟨cleared, second, plain⟩ := exists_of_map_eq_ok clear
  obtain ⟨again, third, left⟩ := exists_of_map_eq_ok kept
  rw [← written] at third
  exact ⟨tree, address, site, documented, cleared, again, rfl, rfl, found, offset, filled, first,
    second, third, plain, left⟩

end SwiftTree
