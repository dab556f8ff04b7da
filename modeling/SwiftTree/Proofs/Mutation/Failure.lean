import SwiftTree.Proofs.Mutation.Frame

/-!
# Which mutations fail

The address of a mutation is resolved before anything else is looked at, so a mutation says that
there is no node exactly if the address leads nowhere. Beyond that it fails at the root, for lack of
nodes to insert, or by a refusal of the policy. The way to the node that was found is followed once
more to rebuild the tree, and that never fails.
-/

namespace SwiftTree

namespace Tree

variable {tree : Tree} {address : Address} {site : Site} {error : MutationError}

/-- The address leads nowhere, and the error says so. -/
def Misses (tree : Tree) (address : Address) (error : MutationError) : Prop :=
  tree.resolve? address = none ∧ error = .nodeNotFound address.path.text

theorem resolve_eq_error_iff : tree.resolve address = .error error ↔ tree.Misses address error := by
  unfold resolve Misses
  cases tree.resolve? address with
  | none => simp [eq_comm]
  | some site => simp

/-- What follows a resolved address fails at the node that is found. -/
theorem bind_resolve_eq_error_iff {α : Type} {f : Site → Except MutationError α} :
    tree.resolve address >>= f = .error error ↔
      tree.Misses address error ∨
        ∃ site, tree.resolve? address = some site ∧ f site = .error error := by
  simp only [← resolve_eq_error_iff, ← resolve_eq_ok_iff]
  cases tree.resolve address with
  | error other => simp [error_bind]
  | ok site => simp [ok_bind]

theorem replace_eq_error_iff {policy : ReplacementPolicy} {new : Node} :
    tree.replace policy address new = .error error ↔
      tree.Misses address error ∨ ∃ site, tree.resolve? address = some site ∧
        (site.trail = [] ∧ error = .modificationFailed .rootReplaced ∨
          site.trail ≠ [] ∧ ∃ refusal,
            policy.check (tree.parentKind? site.trail) site.node new = .error refusal ∧
              error = .invalidReplacement refusal) := by
  refine bind_resolve_eq_error_iff.trans (or_congr_right (exists_congr fun site => ?_))
  refine and_congr_right fun found => ?_
  rw [exchange_of_resolve (resolve_eq_ok_iff.mpr found)]
  cases site.trail with
  | nil => simp [throw_eq_error, error_bind, eq_comm]
  | cons index t =>
    cases policy.check (tree.parentKind? (index :: t)) site.node new with
    | error refusal => simp [throw_eq_error, eq_comm]
    | ok _ => simp [withChanged_ok]

theorem delete_eq_error_iff :
    tree.delete address = .error error ↔
      tree.Misses address error ∨ ∃ site, tree.resolve? address = some site ∧
        site.trail = [] ∧ error = .modificationFailed .rootDeleted := by
  refine bind_resolve_eq_error_iff.trans (or_congr_right (exists_congr fun site => ?_))
  refine and_congr_right fun found => ?_
  by_cases below : site.trail = []
  · simp [below, throw_eq_error, eq_comm]
  · obtain ⟨index, last, rebuilt⟩ := rebuild_removeChild (resolve_eq_ok_iff.mpr found) below
    simp [last, rebuilt, below, withChanged_ok, ok_bind, pure, Except.pure]

theorem insert_eq_error_iff {nodes : List Node} {position : InsertPosition} :
    tree.insert nodes address position = .error error ↔
      tree.Misses address error ∨ ∃ site, tree.resolve? address = some site ∧
        (nodes = [] ∧ error = .modificationFailed .nothingToInsert ∨
          nodes ≠ [] ∧ site.trail = [] ∧ error = .invalidInsertionPoint .noSiblings ∨
          nodes ≠ [] ∧ site.trail ≠ [] ∧ ∃ refusal,
            checkInsertion (tree.parentKind? site.trail) nodes = .error refusal ∧
              error = .invalidInsertionPoint refusal) := by
  refine bind_resolve_eq_error_iff.trans (or_congr_right (exists_congr fun site => ?_))
  refine and_congr_right fun found => ?_
  cases nodes with
  | nil => simp [throw_eq_error, error_bind, eq_comm]
  | cons node nodes =>
    by_cases below : site.trail = []
    · simp [below, throw_eq_error, eq_comm]
    · obtain ⟨index, last, rebuilt⟩ :=
        rebuild_insertChildren (resolve_eq_ok_iff.mpr found) below (node :: nodes) position
      simp only [last, rebuilt]
      cases checkInsertion (tree.parentKind? site.trail) (node :: nodes) with
      | error refusal => simp [below, throw_eq_error, eq_comm]
      | ok _ => simp [below, withChanged_ok]

def LeadsToToken (tree : Tree) (address : Address) : Prop :=
  ∃ site token, tree.resolve? address = some site ∧ site.node = .token token

theorem documentToken_eq_error_iff {text : Option String} :
    tree.documentToken address text = .error error ↔
      ¬tree.LeadsToToken address ∧ error = .nodeNotFound address.path.text := by
  refine bind_resolve_eq_error_iff.trans ?_
  unfold Misses LeadsToToken
  cases found : tree.resolve? address with
  | none => simp
  | some site =>
    have exchanged := exchange_of_resolve (resolve_eq_ok_iff.mpr found)
    simp only [reduceCtorEq, false_and, false_or, Option.some.injEq, exists_and_left,
      exists_eq_left', exchanged]
    cases site.node with
    | composite kind children => simp [throw_eq_error, eq_comm]
    | token token => simp [withChanged_ok]

/-- The first token of a declaration is found by its own path, so documenting it cannot fail. -/
theorem document_eq_error {text : Option String} (h : tree.document address text = .error error) :
    error = .nodeNotFound address.path.text := by
  unfold document at h
  split at h
  · exact (documentToken_eq_error_iff.mp h).2
  · obtain missed | ⟨target, -, h⟩ := bind_resolve_eq_error_iff.mp h
    · exact missed.2
    · dsimp only at h
      split at h
      · rename_i path computed
        obtain ⟨trail, -, computed⟩ := Option.bind_eq_some_iff.mp computed
        obtain ⟨site, listed, -⟩ := compute?_eq_some_iff.mp computed
        have found := resolve?_eq_some_iff.mpr (mem_enumerate_iff.mp listed)
        obtain ⟨token, node⟩ := exists_token_of_resolve (resolve_eq_ok_iff.mpr found)
        exact absurd ⟨site, token, found, node⟩ (documentToken_eq_error_iff.mp h).1
      · exact (Except.error.inj h).symm

/-- No mutation at the address fails for this reason. -/
structure Excludes (tree : Tree) (address : Address) (impossibility : Impossibility) : Prop where
  replace : ∀ policy new,
    tree.replace policy address new ≠ .error (.modificationFailed impossibility)
  delete : tree.delete address ≠ .error (.modificationFailed impossibility)
  insert : ∀ nodes position,
    tree.insert nodes address position ≠ .error (.modificationFailed impossibility)
  documentToken : ∀ text,
    tree.documentToken address text ≠ .error (.modificationFailed impossibility)
  document : ∀ text, tree.document address text ≠ .error (.modificationFailed impossibility)

/-- Only the root and an empty list of nodes make a change of the tree impossible. -/
theorem excludes_of_ne {impossibility : Impossibility} (replaced : impossibility ≠ .rootReplaced)
    (deleted : impossibility ≠ .rootDeleted) (inserted : impossibility ≠ .nothingToInsert) :
    tree.Excludes address impossibility where
  replace policy new h := by simpa [Misses, replaced] using replace_eq_error_iff.mp h
  delete h := by simpa [Misses, deleted] using delete_eq_error_iff.mp h
  insert nodes position h := by simpa [Misses, inserted] using insert_eq_error_iff.mp h
  documentToken text h := by simpa using documentToken_eq_error_iff.mp h
  document text h := by simpa using document_eq_error h

end Tree

/-- The errors of mutations are exact. A replacement, a deletion and an insertion say that there is
no node if and only if the address leads nowhere. The tree cannot be modified only where the root is
to be replaced or deleted or nothing is to be inserted, and nodes have no place next to the root.
The only other failures are the refusals of the checks. Setting the documentation of a token fails,
for lack of a node, if and only if the address leads to no token. To follow the way to the node once
more never fails, neither past the children of a node nor at a token. -/
theorem mutation_errors_exact (tree : Tree) (address : Address) :
    (∀ policy new error, tree.replace policy address new = .error error ↔
      tree.Misses address error ∨ ∃ site, tree.resolve? address = some site ∧
        (site.trail = [] ∧ error = .modificationFailed .rootReplaced ∨
          site.trail ≠ [] ∧ ∃ refusal,
            policy.check (tree.parentKind? site.trail) site.node new = .error refusal ∧
              error = .invalidReplacement refusal)) ∧
    (∀ error, tree.delete address = .error error ↔
      tree.Misses address error ∨ ∃ site, tree.resolve? address = some site ∧
        site.trail = [] ∧ error = .modificationFailed .rootDeleted) ∧
    (∀ nodes position error, tree.insert nodes address position = .error error ↔
      tree.Misses address error ∨ ∃ site, tree.resolve? address = some site ∧
        (nodes = [] ∧ error = .modificationFailed .nothingToInsert ∨
          nodes ≠ [] ∧ site.trail = [] ∧ error = .invalidInsertionPoint .noSiblings ∨
          nodes ≠ [] ∧ site.trail ≠ [] ∧ ∃ refusal,
            checkInsertion (tree.parentKind? site.trail) nodes = .error refusal ∧
              error = .invalidInsertionPoint refusal)) ∧
    (∀ text error, tree.documentToken address text = .error error ↔
      ¬tree.LeadsToToken address ∧ error = .nodeNotFound address.path.text) ∧
    (∀ index, tree.Excludes address (.noChild index)) ∧
    tree.Excludes address .childrenOfToken := by
  refine ⟨?_, ?_, ?_, ?_, ?_, ?_⟩
  · intro policy new error
    exact Tree.replace_eq_error_iff
  · intro error
    exact Tree.delete_eq_error_iff
  · intro nodes position error
    exact Tree.insert_eq_error_iff
  · intro text error
    exact Tree.documentToken_eq_error_iff
  · intro index
    exact Tree.excludes_of_ne (by simp) (by simp) (by simp)
  · exact Tree.excludes_of_ne (by simp) (by simp) (by simp)

end SwiftTree
