import SwiftTree.Addressing
import SwiftTree.Proofs.Node.Sites

/-!
# Token addresses

Tokens are numbered in one sequence, that of the numbered tokens among all sites. Finding a token by
its number selects from this sequence, and counting the tokens to the left of a trail gives the
position in it.
-/

namespace SwiftTree

namespace Node

def numberedTokens (trail : Trail) (offset : Nat) (node : Node) : List Site :=
  (node.sitesFrom trail offset).filter fun site => site.node.isNumberedToken

def numberedTokensAll (trail : Trail) (first offset : Nat) (nodes : List Node) : List Site :=
  (sitesFromAll trail first offset nodes).filter fun site => site.node.isNumberedToken

@[simp] theorem numberedTokens_token (t : Token) (trail : Trail) (offset : Nat) :
    numberedTokens trail offset (token t) = if t.isEnd then [] else [⟨token t, trail, offset⟩] := by
  cases h : t.isEnd <;> simp [numberedTokens, sitesFrom, isNumberedToken, h]

@[simp] theorem numberedTokens_composite (kind : NodeKind) (children : List Node) (trail : Trail)
    (offset : Nat) :
    numberedTokens trail offset (composite kind children) =
      numberedTokensAll trail 0 offset children := by
  simp [numberedTokens, numberedTokensAll, sitesFrom, isNumberedToken]

@[simp] theorem numberedTokensAll_cons (node : Node) (rest : List Node) (trail : Trail)
    (first offset : Nat) :
    numberedTokensAll trail first offset (node :: rest) =
      numberedTokens (trail ++ [first]) offset node ++
        numberedTokensAll trail (first + 1) (offset + node.width) rest := by
  simp [numberedTokensAll, numberedTokens, sitesFromAll]

theorem numberedTokensAll_append (left right : List Node) (trail : Trail) (first offset : Nat) :
    numberedTokensAll trail first offset (left ++ right) =
      numberedTokensAll trail first offset left ++
        numberedTokensAll trail (first + left.length) (offset + widthAll left) right := by
  simp [numberedTokensAll, sitesFromAll_append]

mutual

@[simp] theorem length_numberedTokens : (node : Node) → (trail : Trail) → (offset : Nat) →
    (numberedTokens trail offset node).length = tokenCount node
  | token t, trail, offset => by
    cases h : t.isEnd <;> simp [tokenCount, h]
  | composite kind children, trail, offset => by
    rw [numberedTokens_composite, tokenCount, length_numberedTokensAll]

@[simp] theorem length_numberedTokensAll : (nodes : List Node) → (trail : Trail) →
    (first offset : Nat) →
    (numberedTokensAll trail first offset nodes).length = tokenCountAll nodes
  | [], trail, first, offset => rfl
  | node :: rest, trail, first, offset => by
    rw [numberedTokensAll_cons, List.length_append, length_numberedTokens node,
      length_numberedTokensAll rest, tokenCountAll]

end

mutual

/-- Skipping over nodes by their counts selects from the sequence of all numbered tokens. -/
theorem nthToken?_eq_getElem? : (node : Node) → (trail : Trail) → (offset skipped : Nat) →
    nthToken? trail offset skipped node = (numberedTokens trail offset node)[skipped]?
  | token t, trail, offset, skipped => by
    cases h : t.isEnd <;> cases skipped <;> simp [nthToken?, h]
  | composite kind children, trail, offset, skipped => by
    rw [nthToken?, numberedTokens_composite, nthTokenAll?_eq_getElem? children]

theorem nthTokenAll?_eq_getElem? : (nodes : List Node) → (trail : Trail) →
    (first offset skipped : Nat) →
    nthTokenAll? trail first offset skipped nodes =
      (numberedTokensAll trail first offset nodes)[skipped]?
  | [], trail, first, offset, skipped => rfl
  | node :: rest, trail, first, offset, skipped => by
    rw [nthTokenAll?, numberedTokensAll_cons, nthToken?_eq_getElem? node,
      nthTokenAll?_eq_getElem? rest]
    split
    case isTrue inside =>
      rw [List.getElem?_append_left (by rwa [length_numberedTokens])]
    case isFalse outside =>
      rw [List.getElem?_append_right (by rw [length_numberedTokens]; omega),
        length_numberedTokens]

end

theorem tokensBefore?_cons_eq_some {node : Node} {index before : Nat} {t : Trail} :
    node.tokensBefore? (index :: t) = some before ↔
      ∃ left child right inside, node.children = left ++ child :: right ∧ left.length = index ∧
        child.tokensBefore? t = some inside ∧ tokenCountAll left + inside = before := by
  rw [tokensBefore?]
  constructor
  · intro h
    obtain ⟨child, found, h⟩ := Option.bind_eq_some_iff.mp h
    obtain ⟨inside, here, sum⟩ := Option.bind_eq_some_iff.mp h
    obtain ⟨left, right, split, rfl⟩ := exists_split found
    rw [split, List.take_left] at sum
    exact ⟨left, child, right, inside, split, rfl, here, Option.some.inj sum⟩
  · rintro ⟨left, child, right, inside, split, rfl, h, rfl⟩
    simp [split, h]

/-- The count to the left of a trail is the position of the token at its end. -/
theorem getElem?_of_tokensBefore? {node : Node} {t : Trail} {before : Nat} (trail : Trail)
    (offset : Nat) (h : node.tokensBefore? t = some before) :
    ∃ site, (numberedTokens trail offset node)[before]? = some site ∧ site.trail = trail ++ t := by
  induction t generalizing node trail offset before with
  | nil =>
    cases node with
    | token t => cases isEnd : t.isEnd <;> simp_all [tokensBefore?, isNumberedToken]
    | composite kind children => simp [tokensBefore?, isNumberedToken] at h
  | cons index t ih =>
    obtain ⟨left, child, right, inside, split, rfl, here, rfl⟩ := tokensBefore?_cons_eq_some.mp h
    obtain ⟨site, found, htrail⟩ := ih (trail ++ [left.length]) (offset + widthAll left) here
    refine ⟨site, ?_, by rw [htrail, List.append_assoc, List.singleton_append]⟩
    cases node with
    | token t => simp [children] at split
    | composite kind nodes =>
      obtain rfl : nodes = left ++ child :: right := split
      have bound := (List.getElem?_eq_some_iff.mp found).1
      rw [numberedTokens_composite, numberedTokensAll_append, numberedTokensAll_cons, Nat.zero_add,
        ← length_numberedTokensAll left trail 0 offset, List.getElem?_append_right (by omega),
        Nat.add_sub_cancel_left, List.getElem?_append_left bound, found]

/-- Every numbered token has a count. -/
theorem exists_tokensBefore? {node inner : Node} {t : Trail} (found : node.at? t = some inner)
    (numbered : inner.isNumberedToken) : ∃ before, node.tokensBefore? t = some before := by
  induction t generalizing node with
  | nil =>
    obtain rfl : node = inner := Option.some.inj found
    exact ⟨0, by simp [tokensBefore?, numbered]⟩
  | cons index t ih =>
    obtain ⟨left, child, right, split, length, inChild⟩ := at?_cons_eq_some.mp found
    obtain ⟨inside, here⟩ := ih inChild
    exact ⟨_, tokensBefore?_cons_eq_some.mpr
      ⟨left, child, right, inside, split, length, here, rfl⟩⟩

end Node

namespace Tree

/-- The numbers of the tokens are their positions, from one on. -/
theorem mem_numbered_token {tree : Tree} {numbers : List Nat} {site : Site} :
    (numbers, site) ∈ tree.numbered .token ↔
      ∃ position, numbers = [position + 1] ∧
        (Node.numberedTokens [] 0 tree.root)[position]? = some site := by
  simp only [numbered, List.mem_map, Prod.mk.injEq]
  constructor
  · rintro ⟨⟨_, number⟩, member, rfl, rfl⟩
    obtain ⟨positive, found⟩ := List.mk_mem_zipIdx_iff_le_and_getElem?_sub.mp member
    exact ⟨number - 1, by rw [Nat.sub_add_cancel positive], found⟩
  · rintro ⟨position, rfl, found⟩
    refine ⟨(site, position + 1), ?_, rfl, rfl⟩
    exact List.mk_mem_zipIdx_iff_le_and_getElem?_sub.mpr ⟨Nat.le_add_left 1 position, found⟩

end Tree

end SwiftTree
