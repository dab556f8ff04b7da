import Mathlib.Data.List.Nodup
import SwiftTree.Proofs.Addressing.Declaration
import SwiftTree.Proofs.Addressing.Token

/-!
# Addresses and nodes correspond one to one

The three views of a numbering agree on every tree and in both schemes. What a scheme has to provide
is said once for its list of numbered nodes: which nodes it holds, in which order its numbers stand,
what an address resolves to and what is counted to the left of a trail. All the rest is derived from
these facts in the same way for both schemes.
-/

namespace SwiftTree

namespace Scheme

/-- Whether the node at the end of a trail has a number: every token has but the one that marks the
end, and every declaration has but the root. -/
def numbers : Scheme → Trail → Node → Bool
  | token, _, .token t => !t.isEnd
  | declaration, _ :: _, .composite kind _ => kind.isDeclaration
  | _, _, _ => false

theorem numbers_token (trail : Trail) (node : Node) :
    token.numbers trail node = node.isNumberedToken := by
  cases node <;> rfl

theorem numbers_declaration_cons (index : Nat) (trail : Trail) (node : Node) :
    declaration.numbers (index :: trail) node = node.isDeclaration := by
  cases node <;> rfl

theorem numbers_declaration_nil (node : Node) : declaration.numbers [] node = false := by
  cases node <;> rfl

end Scheme

namespace Tree

/-- The numbered nodes stand in the order of all sites. -/
theorem map_snd_numbered (tree : Tree) (scheme : Scheme) :
    (tree.numbered scheme).map Prod.snd =
      tree.sites.filter fun site => scheme.numbers site.trail site.node := by
  cases scheme with
  | token =>
    simp only [Scheme.numbers_token, numbered, List.map_map]
    exact List.zipIdx_map_fst 1 _
  | declaration =>
    rw [numbered, Node.map_snd_numberedDeclarationsAll, sites, Node.sites, Node.sitesFrom_eq_cons,
      List.filter_cons_of_neg (by simp [Scheme.numbers_declaration_nil])]
    refine List.filter_congr ?_
    intro site member
    obtain ⟨index, _, t, _, _, _, htrail, _⟩ := (Node.mem_sitesFromAll _).mp member
    rw [htrail, List.nil_append, Scheme.numbers_declaration_cons]

theorem pairwise_numbered (tree : Tree) (scheme : Scheme) :
    (tree.numbered scheme).Pairwise fun a b => a.1 < b.1 := by
  cases scheme with
  | token =>
    rw [numbered, List.pairwise_map]
    have increasing :
        (List.range' 1 (Node.numberedTokens [] 0 tree.root).length).Pairwise (· < ·) :=
      List.pairwise_lt_range'
    rw [← List.zipIdx_map_snd, List.pairwise_map] at increasing
    exact increasing.imp fun h => List.cons_lt_cons_iff.mpr (.inl h)
  | declaration => exact Node.pairwise_numberedDeclarationsAll tree.root.children [] 0 [] 0 0

/-- The numbers of a node are those of a path. -/
theorem exists_path {tree : Tree} {scheme : Scheme} {numbers : List Nat} {site : Site}
    (member : (numbers, site) ∈ tree.numbered scheme) : ∃ path : Path, numbers = path.segments := by
  cases scheme with
  | token =>
    obtain ⟨position, rfl, _⟩ := mem_numbered_token.mp member
    exact ⟨⟨[position + 1], by simp, by simp⟩, rfl⟩
  | declaration =>
    obtain ⟨_, rfl, position, rest, _, rfl, positive, _⟩ :=
      (Node.mem_numberedDeclarationsAll _).mp member
    exact ⟨⟨_, by simp, by simpa using positive⟩, rfl⟩

theorem resolve?_eq_some_iff {tree : Tree} {scheme : Scheme} {path : Path} {site : Site} :
    tree.resolve? ⟨scheme, path⟩ = some site ↔ (path.segments, site) ∈ tree.numbered scheme := by
  obtain ⟨segments, nonempty, positive⟩ := path
  cases scheme with
  | token =>
    rw [mem_numbered_token]
    match segments with
    | [] => exact absurd rfl nonempty
    | [0] => simp at positive
    | [position + 1] => simp [resolve?, Node.nthToken?_eq_getElem?]
    | _ :: _ :: _ => simp [resolve?]
  | declaration =>
    have listed : Node.LeadsTo tree.rootSite.members 0 segments site ↔ _ :=
      Node.LeadsTo.members_iff
    rw [numbered, Node.mem_numberedDeclarationsAll]
    constructor
    · intro descended
      exact ⟨segments, rfl, listed.mpr ⟨nonempty, positive, descended⟩⟩
    · rintro ⟨_, rfl, leads⟩
      exact (listed.mp leads).2.2

/-- What is counted to the left of a trail are the numbers of the node at its end. -/
theorem mem_of_numbersOf? {tree : Tree} {scheme : Scheme} {trail : Trail} {numbers : List Nat}
    (h : tree.numbersOf? trail scheme = some numbers) :
    ∃ site, (numbers, site) ∈ tree.numbered scheme ∧ site.trail = trail := by
  cases scheme with
  | token =>
    obtain ⟨before, counted, rfl⟩ := Option.map_eq_some_iff.mp h
    obtain ⟨site, found, htrail⟩ := Node.getElem?_of_tokensBefore? [] 0 counted
    exact ⟨site, mem_numbered_token.mpr ⟨before, rfl, found⟩, htrail⟩
  | declaration => exact Node.mem_of_declarationPath? [] [] 0 h

theorem exists_numbersOf? {tree : Tree} {scheme : Scheme} {trail : Trail} {node : Node}
    (found : tree.at? trail = some node) (numbered : scheme.numbers trail node) :
    ∃ numbers, tree.numbersOf? trail scheme = some numbers := by
  cases scheme with
  | token =>
    rw [Scheme.numbers_token] at numbered
    obtain ⟨before, counted⟩ := Node.exists_tokensBefore? found numbered
    exact ⟨[before + 1], by rw [numbersOf?, counted]; rfl⟩
  | declaration =>
    cases trail with
    | nil => rw [Scheme.numbers_declaration_nil] at numbered; cases numbered
    | cons index trail =>
      rw [Scheme.numbers_declaration_cons] at numbered
      exact Node.exists_declarationPath? 0 found numbered

/-- The nodes that are listed are those sites of the tree that the scheme numbers. -/
theorem exists_mem_numbered_iff {tree : Tree} {scheme : Scheme} {site : Site} :
    (∃ numbers, (numbers, site) ∈ tree.numbered scheme) ↔
      site ∈ tree.sites ∧ scheme.numbers site.trail site.node := by
  have listed : (∃ numbers, (numbers, site) ∈ tree.numbered scheme) ↔
      site ∈ (tree.numbered scheme).map Prod.snd := by simp
  rw [listed, map_snd_numbered, List.mem_filter]

theorem pairwise_trail_numbered (tree : Tree) (scheme : Scheme) :
    (tree.numbered scheme).Pairwise fun a b => a.2.trail < b.2.trail := by
  have ordered := tree.pairwise_sites.filter fun site => scheme.numbers site.trail site.node
  rwa [← map_snd_numbered, List.pairwise_map] at ordered

/-- No two entries of the list have the same trail. -/
theorem numbered_unique {tree : Tree} {scheme : Scheme} {a b : List Nat × Site}
    (ha : a ∈ tree.numbered scheme) (hb : b ∈ tree.numbered scheme)
    (same : a.2.trail = b.2.trail) : a = b := by
  have distinct : ((tree.numbered scheme).map fun entry => entry.2.trail).Nodup := by
    refine List.Pairwise.map _ (fun a b less equal => ?_) (tree.pairwise_trail_numbered scheme)
    exact List.lt_irrefl _ (equal ▸ less)
  exact List.inj_on_of_nodup_map distinct ha hb same

theorem numbersOf?_eq_some_iff {tree : Tree} {scheme : Scheme} {trail : Trail}
    {numbers : List Nat} :
    tree.numbersOf? trail scheme = some numbers ↔
      ∃ site, (numbers, site) ∈ tree.numbered scheme ∧ site.trail = trail := by
  constructor
  · exact mem_of_numbersOf?
  · rintro ⟨site, member, rfl⟩
    obtain ⟨inTree, counted⟩ := exists_mem_numbered_iff.mp ⟨numbers, member⟩
    obtain ⟨others, h⟩ := exists_numbersOf? (mem_sites_iff.mp inTree).1 counted
    obtain ⟨site', member', same⟩ := mem_of_numbersOf? h
    cases numbered_unique member member' same.symm
    exact h

theorem mem_enumerate_iff {tree : Tree} {scheme : Scheme} {path : Path} {site : Site} :
    (path, site) ∈ tree.enumerate scheme ↔ (path.segments, site) ∈ tree.numbered scheme := by
  simp only [enumerate, List.mem_filterMap, Option.map_eq_some_iff, Prod.mk.injEq,
    Path.ofList?_eq_some_iff]
  constructor
  · rintro ⟨⟨_, _⟩, member, _, rfl, rfl, rfl⟩
    exact member
  · intro member
    exact ⟨_, member, path, rfl, rfl, rfl⟩

theorem compute?_eq_some_iff {tree : Tree} {scheme : Scheme} {trail : Trail} {path : Path} :
    tree.compute? trail scheme = some path ↔
      ∃ site, (path, site) ∈ tree.enumerate scheme ∧ site.trail = trail := by
  simp only [compute?, Option.bind_eq_some_iff, Path.ofList?_eq_some_iff, exists_eq_right,
    numbersOf?_eq_some_iff, mem_enumerate_iff]

/-- The sites with a path are those sites of the tree that the scheme numbers. -/
theorem exists_mem_enumerate_iff {tree : Tree} {scheme : Scheme} {site : Site} :
    (∃ path, (path, site) ∈ tree.enumerate scheme) ↔
      site ∈ tree.sites ∧ scheme.numbers site.trail site.node := by
  rw [← exists_mem_numbered_iff]
  constructor
  · rintro ⟨path, member⟩
    exact ⟨path.segments, mem_enumerate_iff.mp member⟩
  · rintro ⟨numbers, member⟩
    obtain ⟨path, rfl⟩ := exists_path member
    exact ⟨path, mem_enumerate_iff.mpr member⟩

theorem mem_enumerate_iff_compute? {tree : Tree} {scheme : Scheme} {path : Path} {site : Site} :
    (path, site) ∈ tree.enumerate scheme ↔
      tree.compute? site.trail scheme = some path ∧ site ∈ tree.sites := by
  rw [compute?_eq_some_iff]
  constructor
  · intro member
    exact ⟨⟨site, member, rfl⟩, (exists_mem_enumerate_iff.mp ⟨path, member⟩).1⟩
  · rintro ⟨⟨other, member, same⟩, inTree⟩
    have otherInTree := (exists_mem_enumerate_iff.mp ⟨path, member⟩).1
    rwa [← eq_of_trail_eq otherInTree inTree same]

theorem compute?_isSome_iff {tree : Tree} {scheme : Scheme} {trail : Trail} :
    (tree.compute? trail scheme).isSome ↔
      ∃ node, tree.at? trail = some node ∧ scheme.numbers trail node := by
  rw [Option.isSome_iff_exists]
  constructor
  · rintro ⟨path, h⟩
    obtain ⟨site, member, rfl⟩ := compute?_eq_some_iff.mp h
    obtain ⟨inTree, numbered⟩ := exists_mem_enumerate_iff.mp ⟨path, member⟩
    exact ⟨site.node, (mem_sites_iff.mp inTree).1, numbered⟩
  · rintro ⟨node, found, numbered⟩
    obtain ⟨offset, holds⟩ := Node.exists_holds found
    have inTree : ⟨node, trail, offset⟩ ∈ tree.sites := mem_sites_iff.mpr holds
    obtain ⟨path, member⟩ := exists_mem_enumerate_iff.mpr ⟨inTree, numbered⟩
    exact ⟨path, compute?_eq_some_iff.mpr ⟨_, member, rfl⟩⟩

/-- Every entry of the list has a path, so that none is lost. -/
theorem map_enumerate (tree : Tree) (scheme : Scheme) :
    (tree.enumerate scheme).map (fun entry => (entry.1.segments, entry.2)) =
      tree.numbered scheme := by
  rw [enumerate, List.map_filterMap]
  conv_rhs => rw [← List.filterMap_some (l := tree.numbered scheme)]
  refine List.filterMap_congr ?_
  rintro ⟨numbers, site⟩ member
  obtain ⟨path, rfl⟩ := exists_path member
  simp [Path.ofList?_eq_some_iff.mpr rfl]

end Tree

/-- Addressing is a bijection, on every tree and in both schemes. A path is listed with a site if
and only if the path resolves to the site, and if and only if the path is computed from the trail of
the site and the node and the offset of the site are those at its trail. The sites listed are those
of the tokens other than the one that marks the end, or of the declarations other than the root.
Each node comes before those inside it and those to its right, and the paths increase. The trail of
any other node has no path. -/
theorem addressing_bijective (tree : Tree) (scheme : Scheme) :
    (∀ path site, (path, site) ∈ tree.enumerate scheme ↔
      tree.resolve? ⟨scheme, path⟩ = some site) ∧
    (∀ path site, (path, site) ∈ tree.enumerate scheme ↔
      tree.compute? site.trail scheme = some path ∧ tree.at? site.trail = some site.node ∧
        tree.offsetAt? site.trail = some site.offset) ∧
    (∀ site, (∃ path, (path, site) ∈ tree.enumerate scheme) ↔
      tree.at? site.trail = some site.node ∧ tree.offsetAt? site.trail = some site.offset ∧
        scheme.numbers site.trail site.node) ∧
    ((tree.enumerate scheme).Pairwise fun a b => a.2.trail < b.2.trail) ∧
    ((tree.enumerate scheme).Pairwise fun a b => a.1.segments < b.1.segments) ∧
    (∀ trail, tree.compute? trail scheme = none ↔
      ¬∃ node, tree.at? trail = some node ∧ scheme.numbers trail node) := by
  have trails := tree.pairwise_trail_numbered scheme
  have segments := tree.pairwise_numbered scheme
  rw [← tree.map_enumerate, List.pairwise_map] at trails segments
  refine ⟨fun path site => ?_, fun path site => ?_, fun site => ?_, trails, segments,
    fun trail => ?_⟩
  · rw [Tree.mem_enumerate_iff, Tree.resolve?_eq_some_iff]
  · rw [Tree.mem_enumerate_iff_compute?, Tree.mem_sites_iff]
  · rw [Tree.exists_mem_enumerate_iff, Tree.mem_sites_iff, and_assoc]
  · rw [← Tree.compute?_isSome_iff, Option.not_isSome_iff_eq_none]

end SwiftTree
