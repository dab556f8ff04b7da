import SwiftTree.Proofs.Addressing.Bijection
import SwiftTree.Proofs.Node.Exchange

/-!
# Addresses depend on the shape only

Numbering a tree looks at the kinds of its nodes and at the order they stand in, never at trivia. So
in trees of the same shape the same paths are given to the nodes at the same places, in both
schemes, and an address leads to the same place in all of them.
-/

namespace SwiftTree

namespace Node

theorem isNumberedToken_bare (node : Node) : node.bare.isNumberedToken = node.isNumberedToken := by
  cases node with
  | token t => rw [bare_token]; rfl
  | composite kind children => rw [bare_composite]; rfl

mutual

theorem declarationCount_bare : (node : Node) → node.bare.declarationCount = node.declarationCount
  | token t => by rw [bare_token]; rfl
  | composite kind children => by
    rw [bare_composite, declarationCount, declarationCount, declarationCountAll_map_bare children]

theorem declarationCountAll_map_bare :
    (nodes : List Node) → declarationCountAll (nodes.map bare) = declarationCountAll nodes
  | [] => rfl
  | node :: rest => by
    rw [List.map_cons, declarationCountAll, declarationCountAll, declarationCount_bare node,
      declarationCountAll_map_bare rest]

end

mutual

/-- The same nodes are found at the same trails; offsets may differ. -/
theorem map_sitesFrom_bare : (node : Node) → (trail : Trail) → (offset offset' : Nat) →
    (node.bare.sitesFrom trail offset').map (fun site => (site.node, site.trail)) =
      (node.sitesFrom trail offset).map fun site => (site.node.bare, site.trail)
  | token t, trail, offset, offset' => by simp [sitesFrom]
  | composite kind children, trail, offset, offset' => by
    rw [bare_composite, sitesFrom, sitesFrom, List.map_cons, List.map_cons,
      map_sitesFromAll_bare children trail 0 offset offset', bare_composite]

theorem map_sitesFromAll_bare : (nodes : List Node) → (trail : Trail) →
    (first offset offset' : Nat) →
    (sitesFromAll trail first offset' (nodes.map bare)).map (fun site => (site.node, site.trail)) =
      (sitesFromAll trail first offset nodes).map fun site => (site.node.bare, site.trail)
  | [], trail, first, offset, offset' => rfl
  | node :: rest, trail, first, offset, offset' => by
    rw [List.map_cons, sitesFromAll, sitesFromAll, List.map_append, List.map_append,
      map_sitesFrom_bare node _ offset offset',
      map_sitesFromAll_bare rest _ _ (offset + node.width)]

end

mutual

theorem map_numberedDeclarations_bare : (node : Node) → (parent : List Nat) → (counted : Nat) →
    (trail : Trail) → (offset offset' : Nat) →
    (numberedDeclarations parent counted trail offset' node.bare).map
        (fun entry => (entry.1, entry.2.trail)) =
      (numberedDeclarations parent counted trail offset node).map
        fun entry => (entry.1, entry.2.trail)
  | token t, parent, counted, trail, offset, offset' => by rw [bare_token]; rfl
  | composite kind children, parent, counted, trail, offset, offset' => by
    rw [bare_composite, numberedDeclarations, numberedDeclarations]
    split
    · dsimp only
      rw [List.map_cons, List.map_cons,
        map_numberedDeclarationsAll_bare children _ _ _ _ offset offset']
    · exact map_numberedDeclarationsAll_bare children _ _ _ _ offset offset'

theorem map_numberedDeclarationsAll_bare : (nodes : List Node) → (parent : List Nat) →
    (counted : Nat) → (trail : Trail) → (index offset offset' : Nat) →
    (numberedDeclarationsAll parent counted trail index offset' (nodes.map bare)).map
        (fun entry => (entry.1, entry.2.trail)) =
      (numberedDeclarationsAll parent counted trail index offset nodes).map
        fun entry => (entry.1, entry.2.trail)
  | [], parent, counted, trail, index, offset, offset' => rfl
  | node :: rest, parent, counted, trail, index, offset, offset' => by
    rw [List.map_cons, numberedDeclarationsAll, numberedDeclarationsAll, List.map_append,
      List.map_append, map_numberedDeclarations_bare node _ _ _ offset offset',
      declarationCount_bare, map_numberedDeclarationsAll_bare rest _ _ _ _ (offset + node.width)]

end

end Node

namespace Tree

variable {a b : Tree}

def bare (tree : Tree) : Tree :=
  tree.withRoot tree.root.bare

/-- Numbered tokens stand at the same trails. -/
theorem map_trail_numberedTokens_bare (tree : Tree) :
    (tree.bare.sites.filter fun site => site.node.isNumberedToken).map Site.trail =
      (tree.sites.filter fun site => site.node.isNumberedToken).map Site.trail := by
  have pairs (sites : List Site) (f : Node → Node)
      (keeps : ∀ node, (f node).isNumberedToken = node.isNumberedToken) :
      (sites.filter fun site => site.node.isNumberedToken).map Site.trail =
        ((sites.map fun site => (f site.node, site.trail)).filter
          fun entry => entry.1.isNumberedToken).map Prod.snd := by
    rw [List.filter_map, List.map_map]
    refine congrArg _ (List.filter_congr fun site _ => ?_)
    exact (keeps site.node).symm
  rw [pairs _ id fun _ => rfl, pairs _ Node.bare Node.isNumberedToken_bare]
  exact congrArg _ (congrArg _ (Node.map_sitesFrom_bare tree.root [] 0 0))

theorem map_numbered_bare (tree : Tree) (scheme : Scheme) :
    (tree.bare.numbered scheme).map (fun entry => (entry.1, entry.2.trail)) =
      (tree.numbered scheme).map fun entry => (entry.1, entry.2.trail) := by
  cases scheme with
  | declaration =>
    rw [numbered, numbered, bare, withRoot, Node.children_bare]
    exact Node.map_numberedDeclarationsAll_bare _ _ _ _ _ 0 0
  | token =>
    have counted (sites : List Site) :
        ((sites.zipIdx 1).map fun entry => ([entry.2], entry.1)).map
            (fun entry => (entry.1, entry.2.trail)) =
          ((sites.map Site.trail).zipIdx 1).map fun entry => ([entry.2], entry.1) := by
      rw [List.zipIdx_map, List.map_map, List.map_map]
      rfl
    refine (counted _).trans ?_
    rw [map_trail_numberedTokens_bare]
    exact (counted _).symm

/-- All paths in the order of the text, each with the trail of its node. -/
def places (tree : Tree) (scheme : Scheme) : List (Path × Trail) :=
  (tree.enumerate scheme).map fun entry => (entry.1, entry.2.trail)

theorem places_eq (tree : Tree) (scheme : Scheme) :
    tree.places scheme =
      ((tree.numbered scheme).map fun entry => (entry.1, entry.2.trail)).filterMap
        fun entry => (Path.ofList? entry.1).map (·, entry.2) := by
  rw [places, enumerate, List.map_filterMap, List.filterMap_map]
  refine List.filterMap_congr fun entry _ => ?_
  rw [Option.map_map]
  rfl

/-- Trees of the same shape have the same paths for the same places. -/
theorem places_congr (same : a.root.bare = b.root.bare) (scheme : Scheme) :
    a.places scheme = b.places scheme := by
  have numbers : (a.bare.numbered scheme).map (fun entry => (entry.1, entry.2.trail)) =
      (b.bare.numbered scheme).map fun entry => (entry.1, entry.2.trail) := by
    cases scheme with
    | declaration => rw [numbered, numbered, bare, bare, withRoot, withRoot, same]
    | token => rw [numbered, numbered, sites, sites, bare, bare, withRoot, withRoot, same]
  rw [places_eq, places_eq, ← map_numbered_bare, numbers, map_numbered_bare]

/-- So an address leads to the same place in both. -/
theorem exists_resolve_of_bare (same : a.root.bare = b.root.bare) {address : Address} {site : Site}
    (found : a.resolve? address = some site) :
    ∃ site', b.resolve? address = some site' ∧ site'.trail = site.trail := by
  obtain ⟨scheme, path⟩ := address
  have listed : (path, site) ∈ a.enumerate scheme :=
    mem_enumerate_iff.mpr (resolve?_eq_some_iff.mp found)
  have place : (path, site.trail) ∈ b.places scheme := by
    rw [← places_congr same]
    exact List.mem_map.mpr ⟨(path, site), listed, rfl⟩
  obtain ⟨⟨path', site'⟩, listed', equal⟩ := List.mem_map.mp place
  obtain ⟨rfl, trail⟩ := Prod.mk.inj equal
  exact ⟨site', resolve?_eq_some_iff.mpr (mem_enumerate_iff.mp listed'), trail⟩

end Tree

end SwiftTree
