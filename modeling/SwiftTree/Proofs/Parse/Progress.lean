import SwiftTree.Proofs.Grammar.Loops

/-!
# Parsing makes progress

The rules of the grammar come to an end without any bound on their loops and goals, from every state
and with one outcome only. The bounds that a run has are there to define it, and are never met.

There are two loops outside of the rules. One sets tokens aside and takes each of them. The other
looks ahead for a declaration and moves on by some tokens in each round.
-/

namespace SwiftTree.Grammar

namespace State

/-- The tokens to set aside are the first that are left, and do not go beyond the end. -/
theorem misplaced_spec (stop : Test) (last : Option Token) (forced : Bool) (depth : Nat)
    (rest : List Token) :
    misplaced stop last forced depth rest <+: rest ∧
      ∀ token ∈ misplaced stop last forced depth rest, ¬token.isEnd := by
  fun_induction misplaced stop last forced depth rest with
  | case1 => simp
  | case2 => simp
  | case3 => simp
  | case4 last forced depth token rest inner _ _ ih =>
    exact ⟨List.prefix_cons_inj _ |>.mpr ih.1, List.forall_mem_cons.mpr ⟨inner, ih.2⟩⟩
  | case5 => simp
  | case6 last forced depth token rest inner _ _ _ _ ih =>
    exact ⟨List.prefix_cons_inj _ |>.mpr ih.1, List.forall_mem_cons.mpr ⟨inner, ih.2⟩⟩
  | case7 last forced depth token rest inner _ _ _ ih =>
    exact ⟨List.prefix_cons_inj _ |>.mpr ih.1, List.forall_mem_cons.mpr ⟨inner, ih.2⟩⟩

/-- Tokens in front of the end are taken one by one. -/
theorem rest_shiftMany {tokens later : List Token} (inner : ∀ token ∈ tokens, ¬token.isEnd)
    {s : State} (rest : s.rest = tokens ++ later) :
    (shiftMany tokens.length s).rest = later ∧
      (shiftMany tokens.length s).taken = s.taken + tokens.length := by
  induction tokens generalizing s with
  | nil => exact ⟨rest, rfl⟩
  | cons token tokens ih =>
    rw [List.forall_mem_cons] at inner
    have some : ¬s.AtEnd := by
      simpa [AtEnd, currentKind, rest, Token.isEnd] using inner.1
    obtain ⟨first, takes⟩ := takes_shift some
    have shifted : s.shift.rest = tokens ++ later := by
      have parts := takes.rest
      rw [rest] at parts
      exact (List.cons.inj parts).2.symm
    obtain ⟨left, taken⟩ := ih inner.2 shifted
    refine ⟨left, ?_⟩
    rw [List.length_cons, shiftMany, taken, takes.taken, List.length_singleton]
    omega

/-- Each token that is to be set aside is taken, and no other. -/
theorem rest_recover (recovery : Recovery) (s : State) :
    s.rest = misplaced recovery.stop s.last recovery.forced 0 s.rest ++
        (s.recover recovery).rest ∧
      (s.recover recovery).taken =
        s.taken + (misplaced recovery.stop s.last recovery.forced 0 s.rest).length := by
  obtain ⟨⟨later, parts⟩, inner⟩ :=
    misplaced_spec recovery.stop s.last recovery.forced 0 s.rest
  generalize tokens : misplaced recovery.stop s.last recovery.forced 0 s.rest = aside at *
  obtain ⟨left, taken⟩ := rest_shiftMany (s := s.enter .unexpectedNodes) inner parts.symm
  unfold recover
  rw [tokens]
  split
  · rename_i none
    rw [List.eq_nil_of_length_eq_zero none]
    exact ⟨rfl, rfl⟩
  · rename_i count some
    rw [some] at left taken
    exact ⟨parts.symm.trans (congrArg (aside ++ ·) left.symm),
      taken.trans (congrArg (s.taken + ·) some.symm)⟩

end State

/-- What comes of one look at the tokens ahead. -/
inductive Look
  /-- It is known whether a declaration begins. -/
  | settled (starts : Bool)
  /-- The search goes on after some tokens. -/
  | ahead (count : Nat)
  deriving DecidableEq, Repr

/-- One round of the search for the keyword of a declaration: a modifier is passed, together with an
argument in parentheses. -/
def lookForDeclaration (amongMembers : Bool) : List Token → Look
  | [] => .settled false
  | token :: rest =>
    if token.kind = .atSign then .settled true
    else if token.kind ≠ .keyword then .settled false
    else if ["case", "init", "deinit", "subscript", "associatedtype"].contains token.text then
      .settled amongMembers
    else if token.text == "class" && currentKind rest != .keyword then .settled true
    else if isModifierKeyword token.text then
      .ahead (if currentKind rest == .leftParen then 4 else 1)
    else .settled (isDeclarationKeyword token.text)

theorem startsDeclarationAfter_eq (amongMembers : Bool) (skipped : Nat) (rest : List Token) :
    startsDeclarationAfter amongMembers skipped rest =
      startsDeclaration amongMembers (rest.drop skipped) := by
  induction skipped generalizing rest with
  | zero => rfl
  | succ skipped ih =>
    cases rest with
    | nil => simp [startsDeclaration, startsDeclarationAfter]
    | cons token rest =>
      rw [startsDeclarationAfter, ih]
      rfl

/-- What the first token says about the declaration. -/
theorem startsDeclaration_cons (amongMembers : Bool) (token : Token) (rest : List Token) :
    startsDeclaration amongMembers (token :: rest) =
      if token.kind = .atSign then true
      else if token.kind ≠ .keyword then false
      else if ["case", "init", "deinit", "subscript", "associatedtype"].contains token.text then
        amongMembers
      else if token.text == "class" && currentKind rest != .keyword then true
      else if isModifierKeyword token.text then
        startsDeclaration amongMembers (rest.drop (if currentKind rest == .leftParen then 3 else 0))
      else isDeclarationKeyword token.text := by
  rw [startsDeclaration, startsDeclarationAfter, startsDeclarationAfter_eq]
  generalize token.kind = kind
  cases kind <;> rfl

/-- Each round of the search settles it or leaves fewer tokens to look at. -/
theorem startsDeclaration_cases (amongMembers : Bool) (tokens : List Token) :
    (∃ starts, lookForDeclaration amongMembers tokens = .settled starts ∧
      startsDeclaration amongMembers tokens = starts) ∨
    ∃ count, lookForDeclaration amongMembers tokens = .ahead count ∧
      (tokens.drop count).length < tokens.length ∧
      startsDeclaration amongMembers tokens =
        startsDeclaration amongMembers (tokens.drop count) := by
  cases tokens with
  | nil => exact .inl ⟨false, rfl, rfl⟩
  | cons token rest =>
    rw [lookForDeclaration, startsDeclaration_cons]
    by_cases isAttribute : token.kind = .atSign
    · rw [if_pos isAttribute, if_pos isAttribute]
      exact .inl ⟨_, rfl, rfl⟩
    rw [if_neg isAttribute, if_neg isAttribute]
    by_cases noKeyword : token.kind ≠ .keyword
    · rw [if_pos noKeyword, if_pos noKeyword]
      exact .inl ⟨_, rfl, rfl⟩
    rw [if_neg noKeyword, if_neg noKeyword]
    by_cases member :
        ["case", "init", "deinit", "subscript", "associatedtype"].contains token.text = true
    · rw [if_pos member, if_pos member]
      exact .inl ⟨_, rfl, rfl⟩
    rw [if_neg member, if_neg member]
    by_cases isClass : (token.text == "class" && currentKind rest != .keyword) = true
    · rw [if_pos isClass, if_pos isClass]
      exact .inl ⟨_, rfl, rfl⟩
    rw [if_neg isClass, if_neg isClass]
    by_cases isModifier : isModifierKeyword token.text = true
    · rw [if_pos isModifier, if_pos isModifier]
      have fewer {count : Nat} (some : 0 < count) :
          ((token :: rest).drop count).length < (token :: rest).length := by
        rw [List.length_drop, List.length_cons]
        omega
      by_cases argument : (currentKind rest == .leftParen) = true
      · rw [if_pos argument, if_pos argument]
        exact .inr ⟨4, rfl, fewer (by decide), rfl⟩
      · rw [if_neg argument, if_neg argument]
        exact .inr ⟨1, rfl, fewer (by decide), rfl⟩
    · rw [if_neg isModifier, if_neg isModifier]
      exact .inl ⟨_, rfl, rfl⟩

theorem follows_swift (goal : Goal) : Follows swift Always (swift goal) :=
  (Rule.kept_swift goal).follows

/-- Each round of a loop takes a token or is the last. -/
theorem pays_swift (goal : Goal) : ∀ body ∈ (swift goal).loops, Pays swift body := by
  intro body member
  exact pays_of_earns follows_swift ((Rule.kept_swift goal).loops body member)
    (Rule.thrifty_swift goal body member)

/-- Every part of a rule comes to an end. -/
theorem exists_runs_swift {goal : Goal} {rule : Rule Goal} (part : rule ∈ (swift goal).parts)
    (s : State) : ∃ t, Runs swift rule s t := by
  apply Runs.exists_of_pays
  · intro goal s
    exact ⟨_, runs_pursue follows_swift goal s (Nat.lt_succ_self _)⟩
  · intro body member
    exact pays_swift goal body (Rule.loops_subset_of_mem_parts part member)

/-- Where the last token marks the end, it is left over. -/
theorem Takes.getLast?_rest {s t : State} {tokens : List Token} (takes : Takes s tokens t)
    {token : Token} (last : s.rest.getLast? = some token) (marks : token.isEnd) :
    t.rest.getLast? = some token := by
  rw [takes.rest, List.getLast?_append] at last
  cases left : t.rest.getLast? with
  | some other => simpa [left] using last
  | none =>
    rw [left, Option.none_or] at last
    exact absurd marks (takes.inner token (List.mem_of_getLast? last))

/-- Nothing holds the parser up. Every part of a rule has one outcome from every state, which is
ahead of that state and not past the end. An item takes a token wherever a list of items goes on,
and so does each round of a loop that is followed by another. Tokens that are set aside are taken
one by one, and the search for a declaration moves ahead until it is settled. -/
theorem parser_progress :
    (∀ goal, ∀ rule ∈ (swift goal).parts, ∀ s : State, ∃ t, Runs swift rule s t ∧
      (∀ u, Runs swift rule s u → u = t) ∧
      (∃ tokens, s.rest = tokens ++ t.rest ∧ t.taken = s.taken + tokens.length ∧
        ∀ token ∈ tokens, ¬token.isEnd) ∧
      ∀ token, s.rest.getLast? = some token → token.isEnd → t.rest.getLast? = some token) ∧
    (∀ (context : ItemContext) owner (s t : State), context.goesOn.holds s.last s.rest →
      Runs swift (.item context owner) s t → s.taken < t.taken) ∧
    (∀ goal, ∀ body ∈ (swift goal).loops, ∀ s t : State,
      Runs swift body { s with again := false } t → t.again = true → s.taken < t.taken) ∧
    (∀ (recovery : Recovery) (s : State),
      s.rest = State.misplaced recovery.stop s.last recovery.forced 0 s.rest ++
          (s.recover recovery).rest ∧
        (s.recover recovery).taken =
          s.taken + (State.misplaced recovery.stop s.last recovery.forced 0 s.rest).length) ∧
    (∀ amongMembers tokens,
      (∃ starts, lookForDeclaration amongMembers tokens = .settled starts ∧
        startsDeclaration amongMembers tokens = starts) ∨
      ∃ count, lookForDeclaration amongMembers tokens = .ahead count ∧
        (tokens.drop count).length < tokens.length ∧
        startsDeclaration amongMembers tokens =
          startsDeclaration amongMembers (tokens.drop count)) ∧
    ∀ context owner tokens, Runs swift (.items context owner) (.start .sourceFile tokens)
      (parseItems context owner tokens) := by
  refine ⟨?_, ?_, pays_swift, State.rest_recover, startsDeclaration_cases, ?_⟩
  · intro goal rule part s
    obtain ⟨t, run⟩ := exists_runs_swift part s
    obtain ⟨tokens, takes⟩ := run.advances
    exact ⟨t, run, fun u other => other.unique run,
      ⟨tokens, takes.rest, takes.taken, takes.inner⟩, fun _ => takes.getLast?_rest⟩
  · intro context owner s t goesOn run
    exact taken_lt_of_consumes follows_swift (Rule.kept_item context owner).follows
      (Rule.consumes_item context owner) run (Rule.notAtEnd_of_goesOn goesOn)
  · intro context owner tokens
    exact runs_pursue follows_swift (.items context owner) _ (Nat.lt_succ_self tokens.length)

/-- A brace that closes nothing is an item, too. -/
theorem parser_progress_brace :
    ∃ t, Runs swift (.item .topLevel .sourceFile)
      (.start .sourceFile [⟨.rightBrace, "\x7d", [], []⟩, ⟨.endOfFile, "", [], []⟩]) t ∧
        0 < t.taken := by
  have part : Rule.item .topLevel .sourceFile ∈
      (swift (.items .topLevel .sourceFile)).parts := by
    simp [swift, Rule.items, Rule.while_, Rule.when, Rule.parts, Rule.self_mem_parts]
  obtain ⟨t, run, -⟩ := parser_progress.1 _ _ part
    (.start .sourceFile [⟨.rightBrace, "\x7d", [], []⟩, ⟨.endOfFile, "", [], []⟩])
  exact ⟨t, run, parser_progress.2.1 _ _ _ _ (by decide) run⟩

end SwiftTree.Grammar
