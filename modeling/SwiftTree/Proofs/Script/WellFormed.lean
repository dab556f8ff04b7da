import SwiftTree.Proofs.Mutation.Splice
import SwiftTree.Proofs.Parse.WellFormed
import SwiftTree.Proofs.Script.Fragment

/-!
# Scripts keep trees well-formed

Every operation of a script fills the gap that its target leaves, and the policy lets only such
nodes through as may stand there. So each step leaves an arranged tree arranged, and so does every
run of steps that starts with the tree of a document.
-/

namespace SwiftTree

theorem admits_of_accepts {kind : NodeKind} {node : Node} (accepted : (kind.accepts node).1)
    (inside : kind ≠ .sourceFile) (inner : ¬node.marksEnd) : kind.holding.admits node := by
  cases kind with
  | sourceFile => exact absurd rfl inside
  | codeBlockItemList =>
    cases node with
    | token t => cases accepted
    | composite kind children =>
      have item : kind.category.isCodeItem := accepted
      simp [NodeKind.holding, Holding.admitsKind, item]
  | memberBlockItemList =>
    cases node with
    | token t => cases accepted
    | composite kind children =>
      have declares : kind.isDeclaration := accepted
      simp [NodeKind.holding, Holding.admitsKind, declares]
  | switchCaseList =>
    cases node with
    | token t => cases accepted
    | composite kind children =>
      obtain rfl : kind = .switchCase := by simpa [NodeKind.accepts, Node.kind?] using accepted
      rfl
  | _ =>
    cases node with
    | composite kind children => cases accepted
    | token t => simpa [NodeKind.holding, Holding.admitsToken, Node.marksEnd] using inner

theorem accepts_of_checkInsertion {kind : NodeKind} {nodes : List Node}
    (h : checkInsertion (some kind) nodes = .ok ()) : ∀ node ∈ nodes, (kind.accepts node).1 := by
  induction nodes with
  | nil => exact nofun
  | cons node nodes ih =>
    obtain ⟨⟨⟩, first, others⟩ := bind_eq_ok_iff.mp h
    rw [List.forall_mem_cons]
    refine ⟨?_, ih others⟩
    unfold checkAccepted at first
    dsimp only at first
    split at first
    · assumption
    · cases first

/-- A declaration gives way to another one, and among the items of a code block also to a statement
or an expression. -/
theorem ReplacementPolicy.items_of_check {policy : ReplacementPolicy} {parent : Option NodeKind}
    {old new : Node} (h : policy.check parent old new = .ok ()) (declares : old.isDeclaration) :
    new.isDeclaration ∨ parent = some .codeBlockItemList ∧ new.category.isCodeItem := by
  have category : old.category = .declaration := by simpa [Node.isDeclaration] using declares
  unfold check at h
  rw [category] at h
  cases replacement : new.category with
  | declaration => exact .inl (by simp [Node.isDeclaration, replacement])
  | statement =>
    simp [replacement, NodeCategory.isCodeItem] at h
    exact .inr ⟨h.2, rfl⟩
  | expression =>
    simp [replacement, NodeCategory.isCodeItem] at h
    exact .inr ⟨h.2, rfl⟩
  | _ => simp [replacement, NodeCategory.isCodeItem] at h

theorem ReplacementPolicy.token_of_check {policy : ReplacementPolicy} {parent : Option NodeKind}
    {old : Token} {new : Node} (h : policy.check parent (.token old) new = .ok ()) :
    ∃ t, new = .token t := by
  cases new with
  | token t => exact ⟨t, rfl⟩
  | composite kind children => cases kind <;> cases h

/-- What replaces a numbered node may stand where that stood. -/
theorem ReplacementPolicy.admits_of_check {policy : ReplacementPolicy} {kind : NodeKind}
    {old new : Node} (h : policy.check (some kind) old new = .ok ())
    (admitted : kind.holding.admits old) (numbered : old.isNumberedToken ∨ old.isDeclaration)
    (inner : ¬new.marksEnd) : kind.holding.admits new := by
  cases old with
  | token t =>
    have inner' : ¬t.isEnd := by
      simpa [Node.isNumberedToken, Node.isDeclaration, Node.category] using numbered
    obtain ⟨u, rfl⟩ := token_of_check h
    rw [Holding.parts_of_token admitted inner', Holding.admits_token]
    simpa [Holding.admitsToken, Node.marksEnd] using inner
  | composite outer children =>
    have declares : outer.isDeclaration := by simpa [Node.isNumberedToken] using numbered
    obtain declaration | ⟨block, item⟩ := items_of_check h declares
    · cases new with
      | token t => cases declaration
      | composite kind' nodes =>
        exact Holding.admitsKind_of_isDeclaration admitted declares declaration
    · cases block
      cases new with
      | token t => cases item
      | composite kind' nodes =>
        have item' : kind'.category.isCodeItem := item
        simp [NodeKind.holding, Holding.admitsKind, item']

namespace Tree

variable {tree result : Tree} {address : Address} {site : Site}

theorem isDeclaration_of_resolve {path : Path}
    (found : tree.resolve ⟨.declaration, path⟩ = .ok site) : site.node.isDeclaration := by
  have member := resolve?_eq_some_iff.mp (resolve_eq_ok_iff.mp found)
  have numbers := (exists_mem_numbered_iff.mp ⟨_, member⟩).2
  cases trail : site.trail with
  | nil => rw [trail, Scheme.numbers_declaration_nil] at numbers; cases numbers
  | cons index t => rwa [trail, Scheme.numbers_declaration_cons] at numbers

theorem numbered_of_resolve (found : tree.resolve address = .ok site) :
    site.node.isNumberedToken ∨ site.node.isDeclaration := by
  obtain ⟨scheme, path⟩ := address
  cases scheme with
  | token => exact .inl (isNumberedToken_of_resolve found)
  | declaration => exact .inr (isDeclaration_of_resolve found)

/-- Documentation is always set at a token. -/
theorem exists_documentToken {text : Option String} (h : tree.document address text = .ok result) :
    ∃ token : Address, tree.documentToken token text = .ok result := by
  unfold document at h
  split at h
  · exact ⟨address, h⟩
  · obtain ⟨target, -, h⟩ := bind_eq_ok_iff.mp h
    dsimp only at h
    split at h
    · exact ⟨_, h⟩
    · cases h

namespace Arranged

/-- A numbered node is below the root in a gap of its own, where it may stand, and that gap is not
among the children of the root. -/
theorem exists_target (h : tree.Arranged) (found : tree.resolve address = .ok site) :
    ∃ context : Context, context.trail = site.trail ∧ tree.root = context.fill [site.node] ∧
      tree.parentKind? site.trail = some context.kind ∧ context.kind.holding.admits site.node ∧
      context.kind ≠ .sourceFile := by
  have numbered := numbered_of_resolve found
  have member := mem_sites_of_resolve found
  have below : site.trail ≠ [] := by
    intro top
    obtain ⟨items, last, root⟩ := h.root
    have whole : tree.root.at? site.trail = some site.node := (mem_sites_iff.mp member).1
    rw [top, root] at whole
    rw [← Option.some.inj whole] at numbered
    obtain counted | declares := numbered
    · cases counted
    · cases declares
  obtain ⟨context, path, root, parent, admitted⟩ := h.exists_context member below
  refine ⟨context, path, root, parent, admitted, ?_⟩
  intro document
  rw [document] at admitted
  cases node : site.node with
  | token t =>
    rw [node] at admitted numbered
    have marks : t.isEnd := admitted
    simp [Node.isNumberedToken, marks, Node.isDeclaration, Node.category] at numbered
  | composite kind children =>
    rw [node] at admitted numbered
    obtain rfl : kind = .codeBlockItemList := by
      simpa [NodeKind.holding, Holding.admitsKind] using admitted
    obtain counted | declares := numbered
    · cases counted
    · cases declares

theorem replace {policy : ReplacementPolicy} {new : Node} (h : tree.Arranged)
    (insertable : new.Insertable) (replaced : tree.replace policy address new = .ok result) :
    result.Arranged := by
  obtain ⟨site, found, -⟩ := bind_eq_ok_iff.mp replaced
  obtain ⟨context, path, root, parent, admitted, inside⟩ := h.exists_target found
  obtain ⟨-, allowed, rfl⟩ := (replace_eq_ok_iff found).mp replaced
  rw [parent] at allowed
  rw [root, ← path, context.replaceAt_fill]
  refine h.fill root inside (List.forall_mem_singleton.mpr ?_)
    (List.forall_mem_singleton.mpr insertable.placed)
  exact ReplacementPolicy.admits_of_check allowed admitted (numbered_of_resolve found)
    insertable.inner

theorem delete {removed : String} (h : tree.Arranged)
    (deleted : tree.delete address = .ok (removed, result)) : result.Arranged := by
  obtain ⟨site, found, -⟩ := bind_eq_ok_iff.mp deleted
  obtain ⟨context, path, root, -, -, inside⟩ := h.exists_target found
  rw [delete_eq_ok found (path ▸ context.trail_ne_nil)] at deleted
  cases deleted
  rw [root, ← path, context.modifySiblings_fill eraseIdx_middle]
  exact h.fill root inside nofun nofun

theorem insert {nodes : List Node} {position : InsertPosition} (h : tree.Arranged)
    (insertable : ∀ node ∈ nodes, node.Insertable)
    (inserted : tree.insert nodes address position = .ok result) : result.Arranged := by
  obtain ⟨site, found, -⟩ := bind_eq_ok_iff.mp inserted
  obtain ⟨context, path, root, parent, admitted, inside⟩ := h.exists_target found
  obtain ⟨-, -, allowed, rfl⟩ := (insert_eq_ok_iff found).mp inserted
  rw [parent] at allowed
  have accepted := accepts_of_checkInsertion allowed
  have placed : site.node.Placed := by
    have holds : tree.root.Holds site.trail site.offset site.node :=
      mem_sites_iff.mp (mem_sites_of_resolve found)
    exact holds.placed h.placed
  have joined {P : Node → Prop} (new : ∀ node ∈ nodes, P node) (old : P site.node) :
      ∀ node ∈ position.join nodes site.node, P node := by
    cases position with
    | before => simpa [InsertPosition.join, or_imp, forall_and] using ⟨new, old⟩
    | after => simpa [InsertPosition.join] using ⟨old, new⟩
  rw [root, ← path, context.modifySiblings_fill (insertNodes_slot nodes position site.node)]
  refine h.fill root inside (joined ?_ admitted)
    (joined (fun node among => (insertable node among).placed) placed)
  exact fun node among =>
    admits_of_accepts (accepted node among) inside (insertable node among).inner

theorem document {text : Option String} (h : tree.Arranged)
    (documented : tree.document address text = .ok result) : result.Arranged := by
  obtain ⟨token, documented⟩ := exists_documentToken documented
  obtain ⟨site, found, -⟩ := bind_eq_ok_iff.mp documented
  obtain ⟨context, path, root, -, admitted, inside⟩ := h.exists_target found
  obtain ⟨t, node, rfl⟩ := (documentToken_eq_ok_iff found).mp documented
  have same : (Node.token (tree.documented text site.offset t)).bare = (Node.token t).bare := rfl
  rw [node, ← Holding.admits_bare, ← same, Holding.admits_bare] at admitted
  rw [root, ← path, context.replaceAt_fill]
  exact h.fill root inside (List.forall_mem_singleton.mpr admitted)
    (List.forall_mem_singleton.mpr (.token _))

/-- Each operation leaves the tree arranged. -/
theorem operation {policy : ReplacementPolicy} {operation : Operation} {outcome : StepOutcome}
    (h : tree.Arranged) (applied : operation.apply policy tree address = .ok (result, outcome)) :
    result.Arranged := by
  cases operation with
  | replace text =>
    obtain ⟨node, built, applied⟩ := bind_eq_ok_iff.mp applied
    obtain ⟨changed, replaced, applied⟩ := bind_eq_ok_iff.mp applied
    cases applied
    exact h.replace (insertable_replacementFor built) (mapError_eq_ok_iff.mp replaced)
  | delete =>
    obtain ⟨⟨removed, changed⟩, deleted, applied⟩ := bind_eq_ok_iff.mp applied
    cases applied
    exact h.delete (mapError_eq_ok_iff.mp deleted)
  | insert text position =>
    obtain ⟨nodes, built, applied⟩ := bind_eq_ok_iff.mp applied
    obtain ⟨changed, inserted, applied⟩ := bind_eq_ok_iff.mp applied
    cases applied
    exact h.insert (insertable_insertionFor built) (mapError_eq_ok_iff.mp inserted)
  | document text =>
    obtain ⟨changed, documented, applied⟩ := bind_eq_ok_iff.mp applied
    cases applied
    exact h.document (mapError_eq_ok_iff.mp documented)

/-- So does each run of steps. -/
theorem applyAll {policy : ReplacementPolicy} {steps : List Step} {results : List StepResult}
    (h : tree.Arranged) (applied : Step.applyAll policy tree steps = .ok (result, results)) :
    result.Arranged := by
  induction steps generalizing tree results with
  | nil =>
    cases applied
    exact h
  | cons step steps ih =>
    obtain ⟨⟨changed, _⟩, first, more⟩ := bind_eq_ok_iff.mp applied
    obtain ⟨⟨final, _⟩, rest, same⟩ := bind_eq_ok_iff.mp more
    cases same
    obtain ⟨target, -, first⟩ := bind_eq_ok_iff.mp (mapError_eq_ok_iff.mp first)
    obtain ⟨⟨_, outcome⟩, operation, same⟩ := bind_eq_ok_iff.mp first
    cases same
    exact ih (h.operation operation) rest

/-- For the place of each declaration a text can be parsed. -/
theorem replacementFor_declaration (h : tree.Arranged) (path : Path) (text target : String) :
    tree.replacementFor ⟨.declaration, path⟩ text ≠ .error (.unsupported target) := by
  intro failed
  unfold replacementFor at failed
  cases found : tree.resolve ⟨.declaration, path⟩ with
  | error error => rw [found] at failed; cases failed
  | ok site =>
    have declares := isDeclaration_of_resolve found
    have parent := h.parentKind?_of_isDeclaration (mem_sites_of_resolve found) declares
    obtain ⟨context, items⟩ :
        ∃ context, itemContext? (tree.parentKind? site.trail) = some context := by
      obtain parent | parent := parent
      · exact ⟨.codeBlock, by rw [parent]; rfl⟩
      · exact ⟨.members, by rw [parent]; rfl⟩
    simp only [found, mapError_ok, ok_bind] at failed
    cases node : site.node with
    | token t => rw [node] at declares; cases declares
    | composite kind children =>
      simp only [node, items] at failed
      cases parsed : singleItem context text with
      | error error => rw [parsed] at failed; cases failed
      | ok item => rw [parsed] at failed; cases failed

end Arranged

end Tree

/-- However many steps of a script are applied to the tree of a document, under whatever policy, the
resulting tree is well-formed, and a text can be parsed to take the place of each of its
declarations. -/
theorem script_wellFormed (identity text : String) (policy : ReplacementPolicy) (script : Script)
    (count : Nat) {tree : Tree} {results : List StepResult}
    (run : Step.applyAll policy (parse identity text).tree (script.steps.take count) =
      .ok (tree, results)) :
    tree.WellFormed ∧ ∀ path replacement target,
      tree.replacementFor ⟨.declaration, path⟩ replacement ≠ .error (.unsupported target) := by
  have arranged := (arranged_parse identity text).applyAll run
  exact ⟨arranged.wellFormed, arranged.replacementFor_declaration⟩

/-- A member is added to a structure, and the structure is documented and gives way to a call. The
fourth step fails, so only the first three are applied. -/
theorem script_wellFormed_swapped :
    ∃ (script : Script) (tree : Tree) (results : List StepResult),
      script.steps.length = 4 ∧
      Step.applyAll {} (parse "a" "struct S \x7b var x \x7d\nlet y = 1").tree
        (script.steps.take 3) = .ok (tree, results) ∧
      (∀ result, script.apply {} (parse "a" "struct S \x7b var x \x7d\nlet y = 1").tree ≠
        .ok result) ∧
      tree.render = "/// D\nf()\nlet y = 1" ∧ tree.WellFormed := by
  let steps : List Step :=
    [⟨"a", none, some "1.1", .insert "func g() \x7b\x7d" .after⟩,
      ⟨"b", none, some "1", .document (some "D")⟩, ⟨"c", none, some "1", .replace "f()"⟩,
      ⟨"d", none, some "2", .delete⟩]
  let start := (parse "a" "struct S \x7b var x \x7d\nlet y = 1").tree
  have facts : (Step.applyAll {} start (steps.take 3)).toOption.map
      (fun result => result.1.render) = some "/// D\nf()\nlet y = 1" := by decide +kernel
  have fails : (Step.applyAll {} start steps).toOption = none := by decide +kernel
  cases run : Step.applyAll {} start (steps.take 3) with
  | error error => simp [run, Except.toOption] at facts
  | ok result =>
    have text : result.1.render = "/// D\nf()\nlet y = 1" := by
      simpa [run, Except.toOption] using facts
    refine ⟨⟨"", none, steps⟩, result.1, result.2, rfl, run, ?_, text,
      (script_wellFormed "a" "struct S \x7b var x \x7d\nlet y = 1" {} ⟨"", none, steps⟩ 3 run).1⟩
    intro other whole
    have succeeds : Step.applyAll {} start steps = .ok other := whole
    rw [succeeds] at fails
    cases fails

end SwiftTree
