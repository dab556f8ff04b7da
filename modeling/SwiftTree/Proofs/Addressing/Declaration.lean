import SwiftTree.Addressing
import SwiftTree.Proofs.Node.Sites

/-!
# Declaration addresses

Declarations are numbered level by level: below a parent, those that are reached without crossing
another declaration count from one on, and each continues the numbers of its parent. The listing,
the descent along a list of numbers and the count to the left of a trail all follow this order. A
listed list of numbers is one along which the descent succeeds.
-/

namespace SwiftTree

namespace Node

@[simp] theorem isDeclaration_token (t : Token) : (token t).isDeclaration = false := rfl

@[simp] theorem isDeclaration_composite (kind : NodeKind) (children : List Node) :
    (composite kind children).isDeclaration = kind.isDeclaration := rfl

mutual

@[simp] theorem length_declarations : (node : Node) → (trail : Trail) → (offset : Nat) →
    (declarations trail offset node).length = declarationCount node
  | token t, trail, offset => rfl
  | composite kind children, trail, offset => by
    rw [declarations, declarationCount]
    split
    case isTrue => rfl
    case isFalse => exact length_declarationsAll children trail 0 offset

@[simp] theorem length_declarationsAll : (nodes : List Node) → (trail : Trail) →
    (first offset : Nat) →
    (declarationsAll trail first offset nodes).length = declarationCountAll nodes
  | [], trail, first, offset => rfl
  | node :: rest, trail, first, offset => by
    rw [declarationsAll, List.length_append, length_declarations node, length_declarationsAll rest,
      declarationCountAll]

end

/-- A declaration comes first in its own listing and starts a new level of numbers. -/
theorem numberedDeclarations_eq_cons {node : Node} (h : node.isDeclaration) (parent : List Nat)
    (counted : Nat) (trail : Trail) (offset : Nat) :
    numberedDeclarations parent counted trail offset node =
      (parent ++ [counted + 1], ⟨node, trail, offset⟩) ::
        numberedDeclarationsAll (parent ++ [counted + 1]) 0 trail 0 offset node.children := by
  cases node with
  | token t => cases h
  | composite kind children => exact if_pos h

/-- Any other node continues the level that it stands in. -/
theorem numberedDeclarations_eq_children {node : Node} (h : ¬node.isDeclaration)
    (parent : List Nat) (counted : Nat) (trail : Trail) (offset : Nat) :
    numberedDeclarations parent counted trail offset node =
      numberedDeclarationsAll parent counted trail 0 offset node.children := by
  cases node with
  | token t => rfl
  | composite kind children => exact if_neg h

theorem numberedDeclarationsAll_append (left right : List Node) (parent : List Nat) (counted : Nat)
    (trail : Trail) (first offset : Nat) :
    numberedDeclarationsAll parent counted trail first offset (left ++ right) =
      numberedDeclarationsAll parent counted trail first offset left ++
        numberedDeclarationsAll parent (counted + declarationCountAll left) trail
          (first + left.length) (offset + widthAll left) right := by
  induction left generalizing counted first offset with
  | nil => rfl
  | cons node left ih =>
    rw [List.cons_append, numberedDeclarationsAll, ih, numberedDeclarationsAll, List.append_assoc,
      declarationCountAll, List.length_cons, widthAll_cons, Nat.add_assoc offset,
      Nat.add_assoc counted, Nat.add_assoc first, Nat.add_comm 1]

mutual

/-- The listing holds the declarations among all sites, in the same order. -/
theorem map_snd_numberedDeclarations : (node : Node) → (parent : List Nat) → (counted : Nat) →
    (trail : Trail) → (offset : Nat) →
    (numberedDeclarations parent counted trail offset node).map Prod.snd =
      (node.sitesFrom trail offset).filter fun site => site.node.isDeclaration
  | token t, parent, counted, trail, offset => by
    simp [numberedDeclarations, sitesFrom]
  | composite kind children, parent, counted, trail, offset => by
    rw [sitesFrom, numberedDeclarations]
    split
    case isTrue h =>
      rw [List.filter_cons, isDeclaration_composite, if_pos h, List.map_cons,
        map_snd_numberedDeclarationsAll children]
    case isFalse h =>
      rw [List.filter_cons, isDeclaration_composite, if_neg h,
        map_snd_numberedDeclarationsAll children]

theorem map_snd_numberedDeclarationsAll : (nodes : List Node) → (parent : List Nat) →
    (counted : Nat) → (trail : Trail) → (first offset : Nat) →
    (numberedDeclarationsAll parent counted trail first offset nodes).map Prod.snd =
      (sitesFromAll trail first offset nodes).filter fun site => site.node.isDeclaration
  | [], parent, counted, trail, first, offset => rfl
  | node :: rest, parent, counted, trail, first, offset => by
    rw [numberedDeclarationsAll, sitesFromAll, List.map_append, List.filter_append,
      map_snd_numberedDeclarations node, map_snd_numberedDeclarationsAll rest]

end

/-- A list of numbers, all of them positive, leads to a site: its first number selects from some
declarations, which are counted on from a number, and the others descend from there. -/
def LeadsTo (declarations : List Site) (counted : Nat) (numbers : List Nat) (site : Site) : Prop :=
  ∃ position rest declaration, numbers = (counted + position + 1) :: rest ∧ 0 ∉ rest ∧
    declarations[position]? = some declaration ∧ declaration.descend? rest = some site

namespace LeadsTo

theorem not_nil {counted : Nat} {numbers : List Nat} {site : Site} :
    ¬LeadsTo [] counted numbers site := by
  rintro ⟨position, rest, declaration, _, _, found, _⟩
  cases found

/-- To lead to a declaration from the members of a site is to descend from the site. -/
theorem members_iff {parent site : Site} {numbers : List Nat} :
    LeadsTo parent.members 0 numbers site ↔
      numbers ≠ [] ∧ 0 ∉ numbers ∧ parent.descend? numbers = some site := by
  constructor
  · rintro ⟨position, rest, member, rfl, positive, found, descended⟩
    refine ⟨by simp, by simpa using positive, ?_⟩
    simp [Site.descend?, found, descended]
  · rintro ⟨nonempty, positive, descended⟩
    obtain ⟨number, rest, rfl⟩ := List.exists_cons_of_ne_nil nonempty
    obtain ⟨zero, positive⟩ : 0 ≠ number ∧ 0 ∉ rest := by simpa using positive
    rw [Site.descend?] at descended
    split at descended
    case h_1 member found =>
      refine ⟨number - 1, rest, member, ?_, positive, found, descended⟩
      rw [Nat.zero_add, Nat.sub_add_cancel (by omega)]
    case h_2 => cases descended

/-- The numbers of a single declaration are those of itself or of one of its members. -/
theorem singleton_iff {declaration site : Site} {counted : Nat} {numbers : List Nat} :
    LeadsTo [declaration] counted numbers site ↔
      (numbers = [counted + 1] ∧ site = declaration) ∨
        ∃ inner, numbers = (counted + 1) :: inner ∧
          LeadsTo declaration.members 0 inner site := by
  constructor
  · rintro ⟨position, rest, d, rfl, positive, found, descended⟩
    obtain ⟨rfl, rfl⟩ : position = 0 ∧ declaration = d := by
      cases position <;> simp_all
    cases rest with
    | nil => exact .inl ⟨rfl, (Option.some.inj descended).symm⟩
    | cons number rest =>
      exact .inr ⟨_, rfl, members_iff.mpr ⟨List.cons_ne_nil _ _, positive, descended⟩⟩
  · rintro (⟨rfl, rfl⟩ | ⟨inner, rfl, leads⟩)
    · exact ⟨0, [], site, rfl, List.not_mem_nil, rfl, rfl⟩
    · obtain ⟨_, positive, descended⟩ := members_iff.mp leads
      exact ⟨0, inner, declaration, rfl, positive, rfl, descended⟩

theorem append_iff {left right : List Site} {counted : Nat} {numbers : List Nat} {site : Site} :
    LeadsTo (left ++ right) counted numbers site ↔
      LeadsTo left counted numbers site ∨
        LeadsTo right (counted + left.length) numbers site := by
  constructor
  · rintro ⟨position, rest, declaration, rfl, positive, found, descended⟩
    by_cases bound : position < left.length
    · rw [List.getElem?_append_left bound] at found
      exact .inl ⟨position, rest, declaration, rfl, positive, found, descended⟩
    · rw [List.getElem?_append_right (by omega)] at found
      refine .inr ⟨_, rest, declaration, ?_, positive, found, descended⟩
      congr 1
      omega
  · rintro (⟨position, rest, declaration, rfl, positive, found, descended⟩ |
      ⟨position, rest, declaration, rfl, positive, found, descended⟩)
    · have bound := (List.getElem?_eq_some_iff.mp found).1
      exact ⟨position, rest, declaration, rfl, positive,
        (List.getElem?_append_left bound).trans found, descended⟩
    · refine ⟨left.length + position, rest, declaration, ?_, positive, ?_, descended⟩
      · rw [Nat.add_assoc counted]
      · rw [List.getElem?_append_right (by omega), Nat.add_sub_cancel_left, found]

end LeadsTo

mutual

/-- The listing of a node holds exactly the numbers that lead to one of its declarations. -/
theorem mem_numberedDeclarations {numbers : List Nat} {site : Site} : (node : Node) →
    {parent : List Nat} → {counted : Nat} → {trail : Trail} → {offset : Nat} →
    ((numbers, site) ∈ numberedDeclarations parent counted trail offset node ↔
      ∃ below, numbers = parent ++ below ∧
        LeadsTo (declarations trail offset node) counted below site)
  | token t, parent, counted, trail, offset => by
    simp [numberedDeclarations, declarations, LeadsTo.not_nil]
  | composite kind children, parent, counted, trail, offset => by
    rw [numberedDeclarations, declarations]
    split
    case isTrue h =>
      rw [List.mem_cons, mem_numberedDeclarationsAll children, Prod.mk.injEq]
      simp only [LeadsTo.singleton_iff]
      constructor
      · rintro (⟨rfl, rfl⟩ | ⟨below, rfl, leads⟩)
        · exact ⟨_, rfl, .inl ⟨rfl, rfl⟩⟩
        · exact ⟨_, List.append_assoc _ _ _, .inr ⟨below, rfl, leads⟩⟩
      · rintro ⟨_, rfl, ⟨rfl, rfl⟩ | ⟨below, rfl, leads⟩⟩
        · exact .inl ⟨rfl, rfl⟩
        · exact .inr ⟨below, by rw [List.append_assoc, List.singleton_append], leads⟩
    case isFalse h => exact mem_numberedDeclarationsAll children

theorem mem_numberedDeclarationsAll {numbers : List Nat} {site : Site} : (nodes : List Node) →
    {parent : List Nat} → {counted : Nat} → {trail : Trail} → {first offset : Nat} →
    ((numbers, site) ∈ numberedDeclarationsAll parent counted trail first offset nodes ↔
      ∃ below, numbers = parent ++ below ∧
        LeadsTo (declarationsAll trail first offset nodes) counted below site)
  | [], parent, counted, trail, first, offset => by
    simp [numberedDeclarationsAll, declarationsAll, LeadsTo.not_nil]
  | node :: rest, parent, counted, trail, first, offset => by
    rw [numberedDeclarationsAll, List.mem_append, mem_numberedDeclarations node,
      mem_numberedDeclarationsAll rest, ← exists_or]
    simp only [declarationsAll, LeadsTo.append_iff, length_declarations, and_or_left]

end

mutual

theorem pairwise_numberedDeclarations : (node : Node) → (parent : List Nat) → (counted : Nat) →
    (trail : Trail) → (offset : Nat) →
    (numberedDeclarations parent counted trail offset node).Pairwise fun a b => a.1 < b.1
  | token t, parent, counted, trail, offset => .nil
  | composite kind children, parent, counted, trail, offset => by
    rw [numberedDeclarations]
    split
    case isTrue h =>
      refine .cons ?_ (pairwise_numberedDeclarationsAll children _ 0 trail 0 offset)
      rintro ⟨numbers, site⟩ member
      obtain ⟨_, rfl, position, rest, _, rfl, _⟩ := (mem_numberedDeclarationsAll children).mp member
      exact Trail.lt_append_cons _ rest _
    case isFalse h => exact pairwise_numberedDeclarationsAll children parent counted trail 0 offset

theorem pairwise_numberedDeclarationsAll : (nodes : List Node) → (parent : List Nat) →
    (counted : Nat) → (trail : Trail) → (first offset : Nat) →
    (numberedDeclarationsAll parent counted trail first offset nodes).Pairwise
      fun a b => a.1 < b.1
  | [], parent, counted, trail, first, offset => .nil
  | node :: rest, parent, counted, trail, first, offset => by
    rw [numberedDeclarationsAll, List.pairwise_append]
    refine ⟨pairwise_numberedDeclarations node parent counted _ _,
      pairwise_numberedDeclarationsAll rest parent _ _ _ _, ?_⟩
    rintro ⟨_, a⟩ inNode ⟨_, b⟩ inRest
    obtain ⟨_, rfl, i, t, _, rfl, _, found, _⟩ := (mem_numberedDeclarations node).mp inNode
    obtain ⟨_, rfl, j, u, _, rfl, _⟩ := (mem_numberedDeclarationsAll rest).mp inRest
    have bound := (List.getElem?_eq_some_iff.mp found).1
    rw [length_declarations] at bound
    exact Trail.lt_of_index_lt parent t u (by omega)

end

theorem mem_numberedDeclarationsAll_of_child {entry : List Nat × Site} {left right : List Node}
    {child : Node} {parent : List Nat} {counted : Nat} {trail : Trail} {offset : Nat}
    (member : entry ∈ numberedDeclarations parent (counted + declarationCountAll left)
      (trail ++ [left.length]) (offset + widthAll left) child) :
    entry ∈ numberedDeclarationsAll parent counted trail 0 offset (left ++ child :: right) := by
  rw [numberedDeclarationsAll_append, numberedDeclarationsAll, Nat.zero_add]
  exact List.mem_append_right _ (List.mem_append_left _ member)

/-- One step along a trail counts what stands to its left, and a declaration starts a new level. -/
theorem declarationPath?_cons {node child : Node} {left right : List Node}
    (split : node.children = left ++ child :: right) (counted : Nat) (t : Trail) :
    node.declarationPath? counted (left.length :: t) =
      if child.isDeclaration then
        if t.isEmpty then some [counted + declarationCountAll left + 1]
        else (child.declarationPath? 0 t).map ((counted + declarationCountAll left + 1) :: ·)
      else child.declarationPath? (counted + declarationCountAll left) t := by
  rw [declarationPath?, split, List.getElem?_append_right (Nat.le_refl _), Nat.sub_self,
    List.take_left, List.getElem?_cons_zero, Option.bind_eq_bind, Option.bind_some,
    Option.map_eq_bind]
  rfl

theorem exists_split_of_declarationPath? {node : Node} {counted index : Nat} {t : Trail}
    {numbers : List Nat} (h : node.declarationPath? counted (index :: t) = some numbers) :
    ∃ left child right, node.children = left ++ child :: right ∧ left.length = index := by
  obtain ⟨child, found, _⟩ := Option.bind_eq_some_iff.mp h
  obtain ⟨left, right, split, length⟩ := exists_split found
  exact ⟨left, child, right, split, length⟩

/-- The numbers that are counted to the left of a trail are listed with the node at its end. -/
theorem mem_of_declarationPath? {node : Node} {counted : Nat} {t : Trail} {numbers : List Nat}
    (parent : List Nat) (trail : Trail) (offset : Nat)
    (h : node.declarationPath? counted t = some numbers) :
    ∃ site, (parent ++ numbers, site) ∈
        numberedDeclarationsAll parent counted trail 0 offset node.children ∧
      site.trail = trail ++ t := by
  induction t generalizing node counted numbers parent trail offset with
  | nil => cases h
  | cons index t ih =>
    obtain ⟨left, child, right, split, rfl⟩ := exists_split_of_declarationPath? h
    rw [declarationPath?_cons split] at h
    rw [split, List.append_cons trail]
    split at h
    case isTrue declared =>
      split at h
      case isTrue last =>
        obtain rfl := List.isEmpty_iff.mp last
        obtain rfl := Option.some.inj h
        refine ⟨⟨child, trail ++ [left.length], offset + widthAll left⟩, ?_, by simp⟩
        refine mem_numberedDeclarationsAll_of_child ?_
        rw [numberedDeclarations_eq_cons declared]
        exact List.mem_cons_self
      case isFalse inside =>
        obtain ⟨inner, here, rfl⟩ := Option.map_eq_some_iff.mp h
        obtain ⟨site, member, htrail⟩ := ih (parent ++ [counted + declarationCountAll left + 1])
          (trail ++ [left.length]) (offset + widthAll left) here
        refine ⟨site, mem_numberedDeclarationsAll_of_child ?_, htrail⟩
        rw [numberedDeclarations_eq_cons declared, List.append_cons parent _ inner]
        exact List.mem_cons_of_mem _ member
    case isFalse undeclared =>
      obtain ⟨site, member, htrail⟩ := ih parent (trail ++ [left.length]) (offset + widthAll left) h
      refine ⟨site, mem_numberedDeclarationsAll_of_child ?_, htrail⟩
      rw [numberedDeclarations_eq_children undeclared]
      exact member

/-- Every declaration below a node has numbers. -/
theorem exists_declarationPath? {node inner : Node} {index : Nat} {t : Trail} (counted : Nat)
    (found : node.at? (index :: t) = some inner) (declared : inner.isDeclaration) :
    ∃ numbers, node.declarationPath? counted (index :: t) = some numbers := by
  induction t generalizing node index counted with
  | nil =>
    obtain ⟨left, child, right, split, rfl, here⟩ := at?_cons_eq_some.mp found
    obtain rfl : child = inner := Option.some.inj here
    rw [declarationPath?_cons split, if_pos declared]
    exact ⟨_, rfl⟩
  | cons next t ih =>
    obtain ⟨left, child, right, split, rfl, here⟩ := at?_cons_eq_some.mp found
    rw [declarationPath?_cons split]
    split
    case isTrue =>
      obtain ⟨numbers, h⟩ := ih 0 here
      exact ⟨_, by rw [if_neg (by simp), h]; rfl⟩
    case isFalse => exact ih _ here

end Node

end SwiftTree
