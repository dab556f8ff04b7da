import SwiftTree.Proofs.Mutation.Frame

/-!
# Documentation is overwritten

Documentation that is set at a token and then set again is the same as if it had been set the second
time only, and taking it away twice is taking it away once. The second time the address leads to the
same place, the token begins a line by then, and new lines are still ended in the same way: if any
line ended with a carriage return and a line feed, the lines that were written do.
-/

namespace SwiftTree

open Documentation (comments inserted block setDocumentation)

namespace Documentation

variable {leading : Trivia} {text : Option String} {newline : String} {startsLine : Bool}

theorem mem_block_iff {documented : Trivia} {indentation : String} {piece : Piece} :
    piece ∈ block indentation newline documented ↔
      ∃ comment ∈ documented, piece ∈ body indentation comment ∨ piece = .newline newline := by
  simp [block, body, or_assoc]

/-- The line breaks in trivia with documentation are those that were kept and those written. -/
theorem newline_mem_setDocumentation_iff (filled : comments text ≠ []) {line : String} :
    Piece.newline line ∈ setDocumentation leading text newline startsLine ↔
      Piece.newline line ∈ leading.keptLines ∨ line = newline := by
  have own : Piece.newline line ∉ leading.keptOwn := by
    intro member
    cases leading.unbroken_keptOwn _ member
  have lines {indentation : String} :
      Piece.newline line ∈ block indentation newline (comments text) ↔ line = newline := by
    rw [mem_block_iff]
    constructor
    · rintro ⟨comment, among, inside | last⟩
      · obtain blank | same := mem_body inside
        · cases blank
        · -- a line break is no documentation
          have documented := isDocumentation_of_mem_comments among
          rw [← same] at documented
          cases documented
      · exact congrArg Piece.text last
    · rintro rfl
      obtain ⟨comment, others, parts⟩ := List.exists_cons_of_ne_nil filled
      exact ⟨comment, by simp [parts], .inr rfl⟩
  have between : Piece.newline line ∈ inserted text newline startsLine leading.keptOwn ↔
      line = newline := by
    unfold inserted
    rw [if_neg (by simpa using filled), List.mem_append, lines]
    cases startsLine with
    | true => simp
    | false => simp [Piece.newline]
  rw [setDocumentation_eq, List.mem_append, List.mem_append, between]
  simp only [own, or_false]

end Documentation

namespace Tree

variable {tree : Tree} {address : Address} {site : Site} {text : Option String} {token : Token}

/-- New lines end with a carriage return and a line feed exactly if another line does. -/
theorem newline_eq_iff :
    tree.newline = "\r\n" ↔
      ∃ other ∈ tree.root.leaves, Piece.newline "\r\n" ∈ other.leading := by
  have ends (piece : Piece) :
      (piece.isNewline && piece.text == "\r\n") = true ↔ piece = .newline "\r\n" := by
    obtain ⟨kind, text⟩ := piece
    simp [Piece.isNewline, Piece.newline]
  have some : tree.root.leaves.any (fun other => other.leading.any
      fun piece => piece.isNewline && piece.text == "\r\n") = true ↔
        ∃ other ∈ tree.root.leaves, Piece.newline "\r\n" ∈ other.leading := by
    simp only [List.any_eq_true, ends, exists_eq_right]
  rw [← some]
  unfold newline
  dsimp only
  split
  · rename_i returns
    exact ⟨fun _ => returns, fun _ => rfl⟩
  · rename_i feeds
    exact ⟨fun equal => absurd equal (by decide), fun returns => absurd returns feeds⟩

theorem newline_eq_or (tree : Tree) : tree.newline = "\r\n" ∨ tree.newline = "\n" := by
  unfold newline
  dsimp only
  split
  · exact .inl rfl
  · exact .inr rfl

/-- Trees in which lines end with a carriage return and a line feed or not alike have the same line
breaks. -/
theorem newline_congr {other : Tree} (same : tree.newline = "\r\n" ↔ other.newline = "\r\n") :
    tree.newline = other.newline := by
  obtain returns | feeds := tree.newline_eq_or
  · rw [returns, same.mp returns]
  · obtain returns' | feeds' := other.newline_eq_or
    · rw [returns', same.mpr returns']
    · rw [feeds, feeds']

/-- Written documentation does not change how lines end. -/
theorem newline_redocument (found : tree.at? site.trail = some (.token token))
    (filled : comments text ≠ []) : (tree.redocument text site token).newline = tree.newline := by
  apply newline_congr
  have here : tree.root.at? site.trail = some (.token token) := found
  have written : (tree.redocument text site token).root.leaves =
      tree.root.leavesBefore site.trail ++ [tree.documented text site.offset token] ++
        tree.root.leavesAfter site.trail := Node.leaves_replaceAt here _
  have old := Node.leaves_eq_of_at? here
  rw [Node.leaves_token] at old
  constructor
  · intro returns
    obtain ⟨other, among, member⟩ := newline_eq_iff.mp returns
    rw [written] at among
    by_cases own : other = tree.documented text site.offset token
    · rw [own] at member
      obtain kept | equal := (Documentation.newline_mem_setDocumentation_iff filled).mp member
      · refine newline_eq_iff.mpr ⟨token, by simp [old], Trivia.mem_of_mem_keptLines kept⟩
      · exact equal.symm
    · refine newline_eq_iff.mpr ⟨other, ?_, member⟩
      rw [old]
      simp only [List.mem_append, List.mem_singleton, own, or_false] at among ⊢
      exact among.imp .inl id
  · intro returns
    refine newline_eq_iff.mpr ⟨tree.documented text site.offset token, by simp [written], ?_⟩
    exact (Documentation.newline_mem_setDocumentation_iff filled).mpr (.inr returns.symm)

/-- The address of a token leads to it also after its documentation was set. -/
theorem resolve_redocument (found : tree.resolve address = .ok site)
    (node : site.node = .token token) (text : Option String) :
    (tree.redocument text site token).resolve address =
      .ok ⟨.token (tree.documented text site.offset token), site.trail, site.offset⟩ := by
  have holds := holds_of_resolve found
  rw [node] at holds
  have shape : tree.root.bare = (tree.redocument text site token).root.bare :=
    (bare_redocument holds.1).symm
  obtain ⟨other, resolved, trail⟩ := exists_resolve_of_bare shape (resolve_eq_ok_iff.mp found)
  rw [resolve_eq_ok_iff, resolved]
  have inTree := mem_sites_of_resolve (resolve_eq_ok_iff.mpr resolved)
  have here : ⟨.token (tree.documented text site.offset token), site.trail, site.offset⟩ ∈
      (tree.redocument text site token).sites := mem_sites_iff.mpr (holds.replaceAt _)
  rw [eq_of_trail_eq inTree here trail]

/-- Setting documentation at a token twice exchanges the token twice. -/
theorem documentToken_bind (found : tree.resolve address = .ok site)
    (node : site.node = .token token) (first second : Option String) :
    (do
      let next ← tree.documentToken address first
      next.documentToken address second) =
      .ok (tree.withRoot (tree.root.replaceAt site.trail (.token
        ((tree.redocument first site token).documented second site.offset
          (tree.documented first site.offset token))))) := by
  rw [documentToken_of_resolve found node]
  refine (documentToken_of_resolve (resolve_redocument found node first) rfl second).trans ?_
  simp only [redocument, withRoot, Node.replaceAt_replaceAt]

/-- A token begins a line when its documentation has been written. -/
theorem startsLine_documented (filled : comments text ≠ []) (offset : Nat) :
    startsLine offset (tree.documented text offset token) := by
  have member : Piece.newline tree.newline ∈ (tree.documented text offset token).leading :=
    (Documentation.newline_mem_setDocumentation_iff filled).mpr (.inr rfl)
  have breaks : (tree.documented text offset token).leading.breaksLine :=
    List.any_eq_true.mpr ⟨_, member, rfl⟩
  rw [startsLine, breaks, Bool.or_true]

theorem documented_documented {first second : Option String}
    (found : tree.at? site.trail = some (.token token)) (filled : comments first ≠ [])
    (again : comments second ≠ []) :
    (tree.redocument first site token).documented second site.offset
        (tree.documented first site.offset token) =
      tree.documented second site.offset token := by
  have lead : setDocumentation (tree.documented first site.offset token).leading second
      tree.newline true = setDocumentation token.leading second tree.newline
        (startsLine site.offset token) :=
    Documentation.setDocumentation_setDocumentation filled again
  rw [documented, newline_redocument found filled, startsLine_documented filled, lead]
  rfl

/-- What is taken away is taken away from what was there before, if no line break was added. -/
theorem documented_of_comments_eq_nil {first second : Option String} (none : comments second = [])
    (starts : comments first = [] ∨ startsLine site.offset token) :
    (tree.redocument first site token).documented second site.offset
        (tree.documented first site.offset token) =
      tree.documented second site.offset token := by
  have lead : setDocumentation (tree.documented first site.offset token).leading second
      (tree.redocument first site token).newline
        (startsLine site.offset (tree.documented first site.offset token)) =
      setDocumentation token.leading second tree.newline (startsLine site.offset token) :=
    Documentation.setDocumentation_of_comments_eq_nil none starts
  rw [documented, lead]
  rfl

end Tree

/-- Documentation is overwritten. At the address of a token, whatever the tree is, documentation
that is set after other documentation is as if it had been set alone, and taking documentation away
a second time changes nothing. If the token begins a line, taking away documentation that was set is
the same as taking away what was there before; otherwise the line break stays that was put in front
of it. -/
theorem documentation_overwrites (tree : Tree) (path : Path) {first second : String}
    {blank : Option String} (filled : Text.trim first ≠ "") (again : Text.trim second ≠ "")
    (nothing : ∀ words ∈ blank, Text.trim words = "") :
    let address : Address := ⟨.token, path⟩
    (do let next ← tree.documentToken address (some first)
        next.documentToken address (some second)) = tree.documentToken address (some second) ∧
    (do let next ← tree.documentToken address blank
        next.documentToken address blank) = tree.documentToken address blank ∧
    ∀ site token, tree.resolve address = .ok site → site.node = .token token →
      site.offset = 0 ∨ token.leading.breaksLine →
        (do let next ← tree.documentToken address (some first)
            next.documentToken address blank) = tree.documentToken address blank := by
  intro address
  have set (words : String) (some : Text.trim words ≠ "") : comments (.some words) ≠ [] := by
    rw [Documentation.comments_some]
    exact Documentation.pieces_ne_nil some
  have none : comments blank = [] := by
    cases blank with
    | none => rfl
    | some words =>
      rw [Documentation.comments_some]
      exact Documentation.pieces_of_trim_eq_empty (nothing words rfl)
  cases found : tree.resolve address with
  | error error =>
    have fails (text : Option String) : tree.documentToken address text = .error error := by
      rw [Tree.documentToken, found]
      rfl
    rw [fails, fails, fails]
    exact ⟨rfl, rfl, fun site token same => by cases same⟩
  | ok site =>
    obtain ⟨token, node⟩ := Tree.exists_token_of_resolve found
    have holds := Tree.holds_of_resolve found
    rw [node] at holds
    have once (text : Option String) := Tree.documentToken_of_resolve found node text
    have twice := Tree.documentToken_bind found node
    refine ⟨?_, ?_, ?_⟩
    · rw [twice, once, Tree.documented_documented holds.1 (set first filled) (set second again)]
      rfl
    · rw [twice, once, Tree.documented_of_comments_eq_nil none (.inl none)]
      rfl
    · rintro site' token' same node' starts
      obtain rfl := Except.ok.inj same
      obtain rfl := Node.token.inj (node.symm.trans node')
      have begins : Tree.startsLine site.offset token := by simpa [Tree.startsLine] using starts
      rw [twice, once, Tree.documented_of_comments_eq_nil none (.inr begins)]
      rfl

/-- The line that is overwritten is the only one that ends with a carriage return and a line feed.
-/
theorem documentation_overwrites_only_line :
    ∃ (tree : Tree) (address : Address) (site : Site) (token : Token),
      tree = (parse "a" "/// o\r\nlet b").tree ∧
      address = ⟨.token, [1], by decide, by decide⟩ ∧ tree.resolve address = .ok site ∧
      site.node = .token token ∧ site.offset = 0 ∧ Text.trim "p" ≠ "" ∧ Text.trim "q" ≠ "" ∧
      (∀ words ∈ some " ", Text.trim words = "") ∧
      (do let next ← tree.documentToken address (some "p")
          next.documentToken address (some "q")) = tree.documentToken address (some "q") ∧
      (tree.documentToken address (some "q")).map Tree.render = .ok "/// q\r\nlet b" ∧
      (do let next ← tree.documentToken address (some "p")
          next.documentToken address (some " ")) = tree.documentToken address (some " ") ∧
      (tree.documentToken address (some " ")).map Tree.render = .ok "let b" := by
  let tree := (parse "a" "/// o\r\nlet b").tree
  let path : Path := ⟨[1], by decide, by decide⟩
  have facts : (tree.resolve ⟨.token, path⟩).map (fun site => (site.offset, site.node)) =
      .ok (0, .token ⟨.keyword, "let", [⟨.docLineComment, "/// o"⟩, .newline "\r\n"],
        [.whitespace " "]⟩) := by decide +kernel
  have written : (tree.documentToken ⟨.token, path⟩ (some "q")).map Tree.render =
      .ok "/// q\r\nlet b" := by decide +kernel
  have cleared : (tree.documentToken ⟨.token, path⟩ (some " ")).map Tree.render = .ok "let b" := by
    decide +kernel
  have filled : Text.trim "p" ≠ "" ∧ Text.trim "q" ≠ "" := by decide +kernel
  have nothing : ∀ words ∈ some " ", Text.trim words = "" := by
    rintro words ⟨⟩
    decide +kernel
  obtain ⟨set, -, clear⟩ := documentation_overwrites tree path filled.1 filled.2 nothing
  obtain ⟨site, found, same⟩ := exists_of_map_eq_ok facts
  obtain ⟨offset, node⟩ := Prod.mk.inj same
  exact ⟨tree, ⟨.token, path⟩, site, _, rfl, rfl, found, node, offset, filled.1, filled.2, nothing,
    set, written, clear site _ found node (.inl offset), cleared⟩

end SwiftTree
