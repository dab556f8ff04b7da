import SwiftTree.Proofs.Addressing.Shape
import SwiftTree.Proofs.Mutation.Splice
import SwiftTree.Proofs.Trivia.Lines

/-!
# What documenting leaves alone

Setting documentation changes the trivia in front of one token. There the documentation is the one
asked for, and comments that are no documentation stay, in the same order. All the rest of the tree
is the same: every other token, the rest of this token, and the kind and the number of children of
every composite. So paths lead to the same places as before.
-/

namespace SwiftTree

open Documentation (comments pieces setDocumentation)

namespace Documentation

theorem pieces_of_trim_eq_empty {words : String} (h : Text.trim words = "") :
    pieces words = [] := by
  unfold pieces
  dsimp only
  rw [h]
  rfl

end Documentation

namespace Tree

variable {tree result : Tree} {address : Address} {site : Site} {text : Option String}
  {token : Token}

/-- The tree in which the documentation of the token at a site is set. -/
def redocument (tree : Tree) (text : Option String) (site : Site) (token : Token) : Tree :=
  tree.withRoot (tree.root.replaceAt site.trail (.token (tree.documented text site.offset token)))

theorem documentToken_of_resolve (found : tree.resolve address = .ok site)
    (node : site.node = .token token) (text : Option String) :
    tree.documentToken address text = .ok (tree.redocument text site token) :=
  (documentToken_eq_ok_iff found).mpr ⟨token, node, rfl⟩

theorem exists_of_documentToken (h : tree.documentToken address text = .ok result) :
    ∃ site token, tree.resolve address = .ok site ∧ site.node = .token token ∧
      result = tree.redocument text site token := by
  cases found : tree.resolve address with
  | error error =>
    rw [documentToken, found] at h
    cases h
  | ok site =>
    obtain ⟨token, node, rfl⟩ := (documentToken_eq_ok_iff found).mp h
    exact ⟨site, token, rfl, node, rfl⟩

theorem holds_of_resolve (found : tree.resolve address = .ok site) :
    tree.root.Holds site.trail site.offset site.node :=
  mem_sites_iff.mp (mem_sites_of_resolve found)

/-- The path that is computed for a token leads back to it. -/
theorem trail_eq_of_compute? {path : Path} {trail : Trail}
    (computed : tree.compute? trail .token = some path)
    (found : tree.resolve ⟨.token, path⟩ = .ok site) : site.trail = trail := by
  obtain ⟨other, listed, same⟩ := compute?_eq_some_iff.mp computed
  have resolved := resolve?_eq_some_iff.mpr (mem_enumerate_iff.mp listed)
  have equal := resolved.symm.trans (resolve_eq_ok_iff.mp found)
  rw [← Option.some.inj equal, same]

/-- Documentation of a node is set at its first token. -/
theorem exists_of_document (h : tree.document address text = .ok result) :
    ∃ target first site token, tree.resolve address = .ok target ∧
      target.node.firstTokenTrail? = some first ∧ site.trail = target.trail ++ first ∧
      tree.root.Holds site.trail site.offset site.node ∧ site.node = .token token ∧
      result = tree.redocument text site token := by
  unfold document at h
  split at h
  · obtain ⟨site, token, found, node, rfl⟩ := exists_of_documentToken h
    refine ⟨site, [], site, token, found, ?_, ?_, holds_of_resolve found, node, rfl⟩
    · rw [node]
      rfl
    · rw [List.append_nil]
  · cases found : tree.resolve address with
    | error error =>
      rw [found] at h
      cases h
    | ok target =>
      simp only [found, ok_bind] at h
      split at h
      · rename_i path first
        obtain ⟨trail, starts, computed⟩ := Option.bind_eq_some_iff.mp first
        obtain ⟨site, token, resolved, node, rfl⟩ := exists_of_documentToken h
        exact ⟨target, trail, site, token, rfl, starts, trail_eq_of_compute? computed resolved,
          holds_of_resolve resolved, node, rfl⟩
      · cases h

/-- A tree is another one with the documentation of the token at the end of a trail set. -/
structure Redocumented (tree result : Tree) (text : Option String) (trail : Trail) : Prop where
  identity : result.identity = tree.identity
  /-- In front of the token, the documentation is the one asked for and other comments stay. -/
  token : ∃ token leading, tree.at? trail = some (.token token) ∧
    result.at? trail = some (.token { token with leading }) ∧
    leading.filter Piece.isDocumentation = comments text ∧
    leading.filter Piece.isPlainComment = token.leading.filter Piece.isPlainComment
  others : ∀ t other, t ≠ trail → tree.at? t = some (.token other) →
    result.at? t = some (.token other)
  composites : ∀ t kind children, tree.at? t = some (.composite kind children) →
    ∃ children', result.at? t = some (.composite kind children') ∧
      children'.length = children.length
  places : ∀ scheme, result.places scheme = tree.places scheme

theorem bare_redocument (found : tree.at? site.trail = some (.token token)) :
    (tree.redocument text site token).root.bare = tree.root.bare :=
  Node.bare_replaceAt found rfl

theorem redocumented_redocument (holds : tree.root.Holds site.trail site.offset (.token token)) :
    tree.Redocumented (tree.redocument text site token) text site.trail where
  identity := rfl
  token := ⟨token, _, holds.1, (holds.replaceAt _).1,
    Documentation.filter_isDocumentation_setDocumentation,
    Documentation.filter_isPlainComment_setDocumentation⟩
  others t other apart elsewhere := Node.at?_replaceAt_of_token holds.1 elsewhere apart
  composites t kind children found := by
    have shape : (tree.redocument text site token).root.bare.at? t = tree.root.bare.at? t := by
      rw [bare_redocument holds.1]
    have here : tree.root.at? t = some (.composite kind children) := found
    rw [Node.at?_bare, Node.at?_bare, here, Option.map_some, Node.bare_composite] at shape
    obtain ⟨node, found', same⟩ := Option.map_eq_some_iff.mp shape
    cases node with
    | token other => cases (Node.bare_token other).symm.trans same
    | composite kind' children' =>
      obtain ⟨rfl, equal⟩ := Node.composite.inj ((Node.bare_composite _ _).symm.trans same)
      exact ⟨children', found', by simpa using congrArg List.length equal⟩
  places := places_congr (bare_redocument holds.1)

end Tree

/-- Setting documentation leaves exactly the documentation asked for and loses nothing else. In the
trivia in front of a token, whatever it is, the documentation is afterwards the comments for the
text, of which a blank text has none, and the other comments are the same. In a tree, all else stays
as it is, and each path leads to the same place. The token is the one at the address, or the first
token of the declaration there. -/
theorem documentation_exact :
    (∀ leading text newline startsLine,
      (setDocumentation leading text newline startsLine).filter Piece.isDocumentation =
          comments text ∧
        (setDocumentation leading text newline startsLine).filter Piece.isPlainComment =
          leading.filter Piece.isPlainComment) ∧
    (comments none = [] ∧ ∀ words, comments (some words) = pieces words ∧
      (Text.trim words = "" → pieces words = [])) ∧
    (∀ (tree : Tree) path text site, tree.resolve ⟨.token, path⟩ = .ok site →
      ∃ result, tree.documentToken ⟨.token, path⟩ text = .ok result ∧
        tree.Redocumented result text site.trail) ∧
    ∀ (tree : Tree) address text result, tree.document address text = .ok result →
      ∃ site first, tree.resolve address = .ok site ∧ site.node.firstTokenTrail? = some first ∧
        tree.Redocumented result text (site.trail ++ first) := by
  refine ⟨fun leading text newline startsLine => ?_, ?_, ?_, ?_⟩
  · exact ⟨Documentation.filter_isDocumentation_setDocumentation,
      Documentation.filter_isPlainComment_setDocumentation⟩
  · refine ⟨rfl, fun words => ⟨Documentation.comments_some words, ?_⟩⟩
    exact Documentation.pieces_of_trim_eq_empty
  · intro tree path text site found
    obtain ⟨token, node⟩ := Tree.exists_token_of_resolve found
    have holds := Tree.holds_of_resolve found
    rw [node] at holds
    exact ⟨_, Tree.documentToken_of_resolve found node text, Tree.redocumented_redocument holds⟩
  · intro tree address text result h
    obtain ⟨target, first, site, token, found, starts, trail, holds, node, rfl⟩ :=
      Tree.exists_of_document h
    rw [node] at holds
    refine ⟨target, first, found, starts, ?_⟩
    rw [← trail]
    exact Tree.redocumented_redocument holds

/-- A declaration with comments of all kinds in front of it, two of them on its own line. -/
theorem documentation_exact_mixed :
    ∃ (tree : Tree) (number declaration : Address) (site target : Site) (result result' : Tree)
      (first : Trail),
      tree = (parse "a" "// k\n/// o\n/** p */ /* q */ let b").tree ∧
      number = ⟨.token, [1], by decide, by decide⟩ ∧ tree.resolve number = .ok site ∧
      tree.documentToken number none = .ok result ∧ tree.Redocumented result none site.trail ∧
      declaration = ⟨.declaration, [1], by decide, by decide⟩ ∧
      tree.document declaration (some "n") = .ok result' ∧
      result'.render = "// k\n/// n\n/* q */ let b" ∧ tree.resolve declaration = .ok target ∧
      tree.Redocumented result' (some "n") (target.trail ++ first) ∧
      Text.trim " \n" = "" ∧ pieces " \n" = [] := by
  let tree := (parse "a" "// k\n/// o\n/** p */ /* q */ let b").tree
  let number : Address := ⟨.token, [1], by decide, by decide⟩
  let declaration : Address := ⟨.declaration, [1], by decide, by decide⟩
  obtain ⟨-, ⟨-, blank⟩, tokens, nodes⟩ := documentation_exact
  have start : (tree.resolve number).map Site.offset = .ok 0 := by decide +kernel
  have text : (tree.document declaration (some "n")).map Tree.render =
      .ok "// k\n/// n\n/* q */ let b" := by decide +kernel
  have empty : Text.trim " \n" = "" := by decide +kernel
  obtain ⟨site, found, -⟩ := exists_of_map_eq_ok start
  obtain ⟨result', documented, written⟩ := exists_of_map_eq_ok text
  obtain ⟨result, cleared, same⟩ := tokens tree _ none site found
  obtain ⟨target, first, found', -, same'⟩ := nodes tree declaration (some "n") result' documented
  exact ⟨tree, number, declaration, site, target, result, result', first, rfl, rfl, found, cleared,
    same, rfl, documented, written, found', same', empty, (blank " \n").2 empty⟩

end SwiftTree
