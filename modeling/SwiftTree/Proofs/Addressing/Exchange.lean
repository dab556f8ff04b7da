import SwiftTree.Proofs.Addressing.Gap
import SwiftTree.Proofs.Node.Exchange

/-!
# Numbers when a node is exchanged

When a numbered node is exchanged for another one, the counts to its left and to its right stay, so
no number outside of it changes in either scheme.
-/

namespace SwiftTree

namespace Scheme

theorem count_cons (scheme : Scheme) (node : Node) (rest : List Node) :
    scheme.count (node :: rest) = scheme.count [node] + scheme.count rest :=
  scheme.count_append [node] rest

theorem count_composite (scheme : Scheme) (kind : NodeKind) (children : List Node) :
    scheme.count [.composite kind children] =
      if scheme.opens kind then 1 else scheme.count children := by
  cases scheme <;> rfl

/-- What is counted to the left of an index depends on the counts of the nodes only. -/
theorem count_take_middle (scheme : Scheme) (left right : List Node) {a b : Node}
    (same : scheme.count [a] = scheme.count [b]) (index : Nat) :
    scheme.count ((left ++ a :: right).take index) =
      scheme.count ((left ++ b :: right).take index) := by
  rw [List.take_append, List.take_append, count_append, count_append]
  cases index - left.length with
  | zero => rfl
  | succ more => rw [List.take_succ_cons, List.take_succ_cons, count_cons, same, ← count_cons]

end Scheme

namespace Node

variable {node old new : Node} {trail : Trail}

theorem count_replaceAt {scheme : Scheme} (found : node.at? trail = some old)
    (numbered : scheme.counts old) (alike : scheme.counts new) :
    scheme.count [node.replaceAt trail new] = scheme.count [node] := by
  induction trail generalizing node with
  | nil =>
    obtain rfl := Option.some.inj found
    rw [replaceAt_nil, Scheme.count_singleton numbered, Scheme.count_singleton alike]
  | cons index trail ih =>
    obtain ⟨left, child, right, split, rfl, inside⟩ := at?_cons_eq_some.mp found
    cases node with
    | token t => simp [children] at split
    | composite kind children =>
      obtain rfl : children = left ++ child :: right := split
      rw [replaceAt_middle, scheme.count_composite, scheme.count_composite, scheme.count_append,
        scheme.count_append, scheme.count_cons, ih inside, ← scheme.count_cons]

theorem isDeclaration_replaceAt (found : node.at? trail = some old) (declared : old.isDeclaration)
    (alike : new.isDeclaration) :
    (node.replaceAt trail new).isDeclaration = node.isDeclaration := by
  cases trail with
  | nil =>
    obtain rfl := Option.some.inj found
    cases node <;> simp_all [replaceAt]
  | cons index trail =>
    cases node with
    | token t => rfl
    | composite kind children => rfl

/-- A token that is exchanged for another one is counted in the same way. -/
theorem tokensBefore?_replaceAt (found : node.at? trail = some old)
    (numbered : old.isNumberedToken) (alike : new.isNumberedToken) {t : Trail}
    (outside : trail <+: t → t = trail) :
    (node.replaceAt trail new).tokensBefore? t = node.tokensBefore? t := by
  induction trail generalizing node t with
  | nil =>
    obtain rfl := outside List.nil_prefix
    obtain rfl := Option.some.inj found
    rw [replaceAt_nil, tokensBefore?, tokensBefore?, numbered, alike]
  | cons index trail ih =>
    obtain ⟨left, child, right, split, rfl, inside⟩ := at?_cons_eq_some.mp found
    cases node with
    | token t => simp [children] at split
    | composite kind children =>
      obtain rfl : children = left ++ child :: right := split
      rw [replaceAt_middle]
      cases t with
      | nil => rfl
      | cons place t =>
        have before : tokenCountAll ((left ++ child.replaceAt trail new :: right).take place) =
            tokenCountAll ((left ++ child :: right).take place) :=
          Scheme.token.count_take_middle left right (count_replaceAt inside numbered alike) place
        rw [tokensBefore?, tokensBefore?, Node.children, Node.children, before]
        by_cases here : place = left.length
        · subst here
          have same := ih inside (t := t) fun below => by
            simpa using outside (List.cons_prefix_cons.mpr ⟨rfl, below⟩)
          simp [same]
        · rw [getElem?_middle_of_ne left right _ child here]

/-- So are declarations, and those around them keep their numbers as well. -/
theorem declarationPath?_replaceAt (found : node.at? trail = some old)
    (declared : old.isDeclaration) (alike : new.isDeclaration) {t : Trail}
    (outside : trail <+: t → t = trail) (counted : Nat) :
    (node.replaceAt trail new).declarationPath? counted t = node.declarationPath? counted t := by
  induction trail generalizing node t counted with
  | nil =>
    obtain rfl := outside List.nil_prefix
    rw [declarationPath?, declarationPath?]
  | cons index trail ih =>
    obtain ⟨left, child, right, split, rfl, inside⟩ := at?_cons_eq_some.mp found
    cases node with
    | token t => simp [children] at split
    | composite kind children =>
      obtain rfl : children = left ++ child :: right := split
      rw [replaceAt_middle]
      cases t with
      | nil => rw [declarationPath?, declarationPath?]
      | cons place t =>
        have before :
            declarationCountAll ((left ++ child.replaceAt trail new :: right).take place) =
              declarationCountAll ((left ++ child :: right).take place) :=
          Scheme.declaration.count_take_middle left right (count_replaceAt inside declared alike)
            place
        rw [declarationPath?, declarationPath?, Node.children, Node.children, before]
        by_cases here : place = left.length
        · subst here
          have same (counted : Nat) := ih inside (t := t) (fun below => by
            simpa using outside (List.cons_prefix_cons.mpr ⟨rfl, below⟩)) counted
          simp [same, isDeclaration_replaceAt inside declared alike]
        · rw [getElem?_middle_of_ne left right _ child here]

/-- The numbers of a declaration continue those of the declarations around it. -/
theorem prefix_of_declarationPath? {counted : Nat} {t more : Trail} {outer inner : List Nat}
    (h : node.declarationPath? counted t = some outer)
    (h' : node.declarationPath? counted (t ++ more) = some inner) : outer <+: inner := by
  induction t generalizing node counted outer inner with
  | nil => cases h
  | cons index t ih =>
    obtain ⟨left, child, right, split, rfl⟩ := exists_split_of_declarationPath? h
    rw [declarationPath?_cons split] at h
    rw [List.cons_append, declarationPath?_cons split] at h'
    by_cases declared : child.isDeclaration
    · rw [if_pos declared] at h h'
      cases t with
      | nil =>
        obtain rfl := Option.some.inj h
        cases more with
        | nil => exact (Option.some.inj h') ▸ List.prefix_rfl
        | cons next more =>
          obtain ⟨below, -, rfl⟩ := Option.map_eq_some_iff.mp h'
          exact List.prefix_append [_] below
      | cons next t =>
        obtain ⟨a, first, rfl⟩ := Option.map_eq_some_iff.mp h
        obtain ⟨b, second, rfl⟩ := Option.map_eq_some_iff.mp h'
        exact List.cons_prefix_cons.mpr ⟨rfl, ih first second⟩
    · rw [if_neg declared] at h h'
      exact ih h h'

end Node

namespace Tree

variable {tree : Tree} {scheme : Scheme}

/-- No number outside of an exchanged node changes. -/
theorem numbersOf?_replaceAt {old new : Node} {trail t : Trail} (found : tree.at? trail = some old)
    (numbered : scheme.counts old) (alike : scheme.counts new) (outside : trail <+: t → t = trail) :
    (tree.withRoot (tree.root.replaceAt trail new)).numbersOf? t scheme =
      tree.numbersOf? t scheme := by
  cases scheme with
  | token =>
    rw [numbersOf?, numbersOf?, withRoot, Node.tokensBefore?_replaceAt found numbered alike outside]
  | declaration => exact Node.declarationPath?_replaceAt found numbered alike outside 0

/-- Numbers stand in the same order as the nodes that have them. -/
theorem lt_iff_trail_lt {a b : List Nat × Site} (ha : a ∈ tree.numbered scheme)
    (hb : b ∈ tree.numbered scheme) : a.1 < b.1 ↔ a.2.trail < b.2.trail := by
  have numbers := List.pairwise_iff_getElem.mp (tree.pairwise_numbered scheme)
  have trails := List.pairwise_iff_getElem.mp (tree.pairwise_trail_numbered scheme)
  obtain ⟨i, inside, rfl⟩ := List.mem_iff_getElem.mp ha
  obtain ⟨j, inside', rfl⟩ := List.mem_iff_getElem.mp hb
  obtain less | rfl | greater := Nat.lt_trichotomy i j
  · exact iff_of_true (numbers i j _ _ less) (trails i j _ _ less)
  · exact iff_of_false (List.lt_irrefl _) (List.lt_irrefl _)
  · exact iff_of_false (List.lt_asymm (numbers j i _ _ greater))
      (List.lt_asymm (trails j i _ _ greater))

/-- A numbered node around another one has numbers that the other one continues. -/
theorem isPrefix_of_around {a b : List Nat × Site} (ha : a ∈ tree.numbered scheme)
    (hb : b ∈ tree.numbered scheme) (around : a.2.trail <+: b.2.trail) : a.1 <+: b.1 := by
  obtain ⟨more, equation⟩ := around
  cases scheme with
  | token =>
    obtain ⟨aHolds, aNumbered⟩ := exists_mem_numbered_iff.mp ⟨a.1, ha⟩
    have bHolds := (exists_mem_numbered_iff.mp ⟨b.1, hb⟩).1
    have here : tree.root.at? a.2.trail = some a.2.node := (mem_sites_iff.mp aHolds).1
    have below : tree.root.at? b.2.trail = some b.2.node := (mem_sites_iff.mp bHolds).1
    rw [← equation, Node.at?_append, here, Option.bind_some] at below
    -- nothing stands below a token
    cases more with
    | nil =>
      rw [List.append_nil] at equation
      obtain rfl := numbered_unique ha hb equation
      exact List.prefix_rfl
    | cons next more =>
      rw [Scheme.numbers_token] at aNumbered
      cases node : a.2.node with
      | token t => rw [node] at below; cases below
      | composite kind children => rw [node] at aNumbered; cases aNumbered
  | declaration =>
    have outer := numbersOf?_eq_some_iff.mpr ⟨a.2, ha, rfl⟩
    have inner := numbersOf?_eq_some_iff.mpr ⟨b.2, hb, rfl⟩
    rw [← equation] at inner
    exact Node.prefix_of_declarationPath? outer inner

end Tree

end SwiftTree
