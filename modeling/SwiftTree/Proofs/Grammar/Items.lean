import SwiftTree.Proofs.Grammar.Progress

/-!
# Items

Every item of a list of items takes a token, in each of the places where such a list can stand. What
can begin an item is known from tests, so the proofs follow the rules down to the first part that a
test makes sure of.
-/

namespace SwiftTree.Grammar

theorem currentKind_of_keywordIn {words : List String} {last : Option Token} {rest : List Token}
    (h : (Test.keywordIn words).holds last rest) : currentKind rest = .keyword := by
  cases rest with
  | nil => cases h
  | cons token rest =>
    simp only [Test.holds, List.head?_cons, Option.any_some, Bool.and_eq_true, beq_iff_eq] at h
    exact h.1

/-- A keyword does not mark the end. -/
theorem notAtEnd_of_keywordIn {words : List String} {last : Option Token} {rest : List Token}
    (h : (Test.keywordIn words).holds last rest) : NotAtEnd last rest := by
  rw [NotAtEnd, currentKind_of_keywordIn h]
  exact TokenKind.noConfusion

theorem holds_keyword_of_keywordIn {words : List String} {last : Option Token} {rest : List Token}
    (h : (Test.keywordIn words).holds last rest) :
    ∃ word ∈ words, (Test.keyword word).holds last rest := by
  cases rest with
  | nil => simp [Test.holds] at h
  | cons token rest =>
    simp only [Test.holds, List.head?_cons, Option.any_some, Bool.and_eq_true, beq_iff_eq] at h
    exact ⟨token.text, List.contains_iff_mem.mp h.2, by simp [Test.keyword, Test.holds, h.1]⟩

theorem notAtEnd_of_modifier {last : Option Token} {rest : List Token}
    (h : Test.modifier.holds last rest) : NotAtEnd last rest := by
  rw [Test.modifier, Test.holds_or, Test.holds_and, Bool.or_eq_true, Bool.and_eq_true] at h
  obtain word | ⟨word, -⟩ := h
  · exact notAtEnd_of_keywordIn word
  · exact notAtEnd_of_keywordIn word

theorem notAtEnd_of_kind {kind : TokenKind} {last : Option Token} {rest : List Token}
    (h : (Test.kind kind).holds last rest) (other : kind ≠ .endOfFile) : NotAtEnd last rest := by
  rw [Test.holds_kind] at h
  rw [NotAtEnd, h]
  exact other

/-- A declaration begins with an attribute, with a modifier, or with the keyword of the declaration
itself. -/
theorem declarationKeyword_of_startsDeclaration {amongMembers : Bool} {last : Option Token}
    {rest : List Token} (h : startsDeclaration amongMembers rest)
    (noAttribute : ¬(Test.kind .atSign).holds last rest)
    (noModifier : ¬Test.modifier.holds last rest) :
    (Test.keywordIn declarationKeywords).holds last rest := by
  cases rest with
  | nil => simp [startsDeclaration, startsDeclarationAfter] at h
  | cons token rest =>
    simp only [startsDeclaration, startsDeclarationAfter] at h
    simp only [Test.modifier, Test.holds_or, Test.holds_and, Test.holds, Bool.or_eq_true,
      Bool.and_eq_true, List.head?_cons, Option.any_some, not_or] at noModifier
    split at h
    · rename_i kind
      exact absurd (by simp [currentKind, kind]) noAttribute
    · rename_i kind
      have declares : token.text ∈ declarationKeywords := by
        split at h
        · rename_i member
          have listed : ["case", "init", "deinit", "subscript", "associatedtype"] ⊆
            declarationKeywords := by decide
          exact listed (List.contains_iff_mem.mp member)
        split at h
        · rename_i isClass
          simp only [Bool.and_eq_true, beq_iff_eq] at isClass
          rw [isClass.1]
          decide
        split at h
        · rename_i isModifier
          by_cases isClass : token.text = "class"
          · rw [isClass]
            decide
          · have listed : token.text ∈ modifierKeywords.filter (· != "class") :=
              List.mem_filter.mpr ⟨List.contains_iff_mem.mp isModifier, by simp [isClass]⟩
            exact absurd ⟨by simp [kind], List.contains_iff_mem.mpr listed⟩ noModifier.1
        · exact List.contains_iff_mem.mp h
      simp [Test.holds, kind, declares]
    · cases h

namespace Rule

open Consumes

theorem consumes_shift_steps {rules : List (Rule Goal)} :
    Consumes NotAtEnd (steps (shift :: rules)) :=
  Consumes.shift.seq_left

theorem consumes_become_steps {kind : NodeKind} {rules : List (Rule Goal)} :
    Consumes NotAtEnd (steps (become kind :: shift :: rules)) :=
  consumes_shift_steps.seq_right

theorem consumes_tokenOrGroup (label : String) : Consumes NotAtEnd (tokenOrGroup label) := by
  apply Consumes.choose
  · exact Consumes.delimited fun _ _ h => (Test.holds_kind _ _ _).mp h.2
  · apply Consumes.choose
    · exact Consumes.delimited fun _ _ h => (Test.holds_kind _ _ _).mp h.2
    · exact Consumes.shift.mono fun _ _ h => h.1.1

theorem consumes_expressionPart : Consumes NotAtEnd expressionPart := by
  apply Consumes.choose
  · exact (Consumes.delimited fun _ _ h => (Test.holds_kind _ _ _).mp h.2).node
  · apply Consumes.choose
    · exact consumes_shift_steps.mono fun _ _ h => h.1.1
    · exact (consumes_tokenOrGroup _).mono fun _ _ h => h.1.1

theorem consumes_attributes :
    Consumes (fun last rest => (Test.kind .atSign).holds last rest) attributes := by
  apply Consumes.node
  apply Consumes.while_ _ fun _ _ h => h
  exact consumes_shift_steps.node.mono fun _ _ h => notAtEnd_of_kind h (by decide)

theorem consumes_modifiers :
    Consumes (fun last rest => Test.modifier.holds last rest) modifiers := by
  apply Consumes.node
  apply Consumes.while_ _ fun _ _ h => h
  exact consumes_shift_steps.mono fun _ _ h => notAtEnd_of_modifier h

theorem consumes_declaration (amongMembers : Bool) :
    Consumes (fun _ rest => startsDeclaration amongMembers rest) declaration := by
  apply Consumes.node
  apply Consumes.split fun last rest => (Test.kind .atSign).holds last rest
  · apply Consumes.seq_left
    exact (consumes_attributes.when fun _ _ h => h).mono fun _ _ h => h.2
  apply Consumes.split fun last rest => Test.modifier.holds last rest
  · apply Consumes.seq_right
    apply Consumes.seq_left
    exact (consumes_modifiers.when fun _ _ h => h).mono fun _ _ h => h.2
  · apply Consumes.seq_right
    apply Consumes.seq_right
    apply Consumes.seq_left
    have keyword : ∀ last rest,
        (startsDeclaration amongMembers rest ∧ ¬(Test.kind .atSign).holds last rest) ∧
          ¬Test.modifier.holds last rest →
        (Test.keywordIn declarationKeywords).holds last rest := by
      rintro last rest ⟨⟨starts, noAttribute⟩, noModifier⟩
      exact declarationKeyword_of_startsDeclaration starts noAttribute noModifier
    apply Consumes.dispatch
    · intro entry member
      apply Consumes.mono _ fun last rest h => notAtEnd_of_keywordIn (keyword last rest h)
      -- Each rule in the table takes the keyword right after it has settled the kind of the node.
      revert entry
      simp only [List.forall_mem_cons, List.not_mem_nil, false_implies, implies_true, and_true]
      and_intros <;> exact consumes_become_steps
    · apply Consumes.vacuous
      rintro last rest ⟨h, other⟩
      obtain ⟨word, listed, current⟩ := holds_keyword_of_keywordIn (keyword last rest h)
      have table : declarationKeywords ⊆ ["import", "struct", "class", "enum", "protocol", "actor",
        "extension", "func", "init", "deinit", "subscript", "let", "var", "case", "typealias",
        "associatedtype"] := by decide
      exact other word (table listed) current

theorem consumes_statement (phrase : String) : Consumes NotAtEnd (statement phrase) := by
  apply Consumes.dispatch
  · simp only [List.forall_mem_cons, List.not_mem_nil, false_implies, implies_true, and_true]
    and_intros <;> exact consumes_shift_steps.node
  apply Consumes.choose
  · have expression : Consumes NotAtEnd
        (node .expr (steps [expressionPart, expressionRest {}])) :=
      consumes_expressionPart.seq_left.node
    apply Consumes.node
    apply Consumes.choose
    · exact expression.mono fun _ _ h => h.1.1.1
    · apply Consumes.vacuous
      rintro last rest ⟨⟨-, starts⟩, never⟩
      exact never (by simpa [Test.expressionBefore, Test.holds, ExpressionStop.kinds] using starts)
  · exact (Consumes.recover rfl).mono fun _ _ h => h.1.1

theorem consumes_item (context : ItemContext) (owner : NodeKind) :
    Consumes NotAtEnd (item context owner) := by
  apply Consumes.choose
  · exact (consumes_declaration _).mono fun _ _ h => h.2
  · cases context with
    | topLevel =>
      apply Consumes.choose
      · exact Consumes.shift.node.seq_left.seq_right.mono fun _ _ h => h.1.1
      · exact (consumes_statement _).mono fun _ _ h => h.1.1
    | members => exact (Consumes.recover rfl).mono fun _ _ h => h.1
    | codeBlock => exact (consumes_statement _).mono fun _ _ h => h.1
    | switchCase => exact (consumes_statement _).mono fun _ _ h => h.1
    | closure => exact (consumes_statement _).mono fun _ _ h => h.1

/-- A list of items goes on only where there is a token to take. -/
theorem notAtEnd_of_goesOn {context : ItemContext} {last : Option Token} {rest : List Token}
    (h : context.goesOn.holds last rest) : NotAtEnd last rest := by
  intro ends
  cases context <;>
    simp [ItemContext.goesOn, Test.atEnd, Test.kind, Test.holds, ends] at h

/-- One round of a list of items. -/
theorem consumes_round (context : ItemContext) (owner : NodeKind) :
    Consumes (fun last rest => context.goesOn.holds last rest)
      (choose (.kind .semicolon) attach (item context owner)) := by
  apply Consumes.choose
  · exact Consumes.attach.mono fun _ _ h => notAtEnd_of_goesOn h.1
  · exact (consumes_item context owner).mono fun _ _ h => notAtEnd_of_goesOn h.1

end Rule

end SwiftTree.Grammar
