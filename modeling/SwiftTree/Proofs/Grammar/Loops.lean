import SwiftTree.Proofs.Grammar.Items
import SwiftTree.Proofs.Grammar.Rounds

/-!
# The loops of the Swift grammar

Every loop of the grammar goes round again only after it has taken a token, and every goal that is
called for without a bracket in front of it is called for after another token. So the bounds of a
run are never met, in no goal and from no state.

Most loops take a token in each round: their test makes sure that there is one, and so does the
first part of what they repeat. The others ask for another round right after a comma or a similar
token.
-/

namespace SwiftTree.Grammar

namespace Test

/-- Whether a test fails at the end for sure. -/
def excludesEnd : Test → Bool
  | kindIn kinds => !kinds.contains .endOfFile
  | keywordIn _ => true
  | not (kindIn kinds) => kinds.contains .endOfFile
  | and first second => first.excludesEnd || second.excludesEnd
  | or first second => first.excludesEnd && second.excludesEnd
  | _ => false

theorem notAtEnd_of_excludesEnd {test : Test} (h : test.excludesEnd) {last : Option Token}
    {rest : List Token} (holds : test.holds last rest) : NotAtEnd last rest := by
  fun_induction excludesEnd test with
  | case1 kinds =>
    intro ends
    simp_all [Test.holds]
  | case2 words => exact notAtEnd_of_keywordIn holds
  | case3 kinds =>
    intro ends
    simp_all [Test.holds]
  | case4 first second left right =>
    simp only [Test.holds, Bool.and_eq_true] at holds
    obtain h | h := Bool.or_eq_true_iff.mp h
    · exact left h holds.1
    · exact right h holds.2
  | case5 first second left right =>
    simp only [Test.holds, Bool.or_eq_true] at holds
    rw [Bool.and_eq_true] at h
    obtain holds | holds := holds
    · exact left h.1 holds
    · exact right h.2 holds
  | case6 => cases h

end Test

namespace Rule

/-- What each loop of the rule repeats has a property. -/
def EachLoop (property : Rule Goal → Prop) (rule : Rule Goal) : Prop :=
  ∀ body ∈ rule.loops, property body

section

variable {property : Rule Goal → Prop} {first second rule : Rule Goal} {test : Test}

theorem eachLoop_of_loops (none : rule.loops = []) : EachLoop property rule := by
  rw [EachLoop, none]
  exact fun _ member => absurd member List.not_mem_nil

@[simp] theorem eachLoop_skip : EachLoop property skip :=
  eachLoop_of_loops rfl

@[simp] theorem eachLoop_shift : EachLoop property shift :=
  eachLoop_of_loops rfl

@[simp] theorem eachLoop_attach : EachLoop property attach :=
  eachLoop_of_loops rfl

@[simp] theorem eachLoop_again : EachLoop property again :=
  eachLoop_of_loops rfl

@[simp] theorem eachLoop_call (goal : Goal) : EachLoop property (call goal) :=
  eachLoop_of_loops rfl

@[simp] theorem eachLoop_become (kind : NodeKind) : EachLoop property (become kind) :=
  eachLoop_of_loops rfl

@[simp] theorem eachLoop_recover (recovery : Recovery) : EachLoop property (recover recovery) :=
  eachLoop_of_loops rfl

@[simp] theorem eachLoop_report (complaint : Complaint) : EachLoop property (report complaint) :=
  eachLoop_of_loops rfl

@[simp] theorem eachLoop_missing (message fix newText : String) :
    EachLoop property (missing message fix newText) :=
  eachLoop_of_loops rfl

@[simp] theorem eachLoop_delimited (bracket : Bracket) (label : String) (goal : Goal) :
    EachLoop property (delimited bracket label goal) :=
  eachLoop_of_loops rfl

@[simp] theorem eachLoop_node (kind : NodeKind) :
    EachLoop property (node kind rule) ↔ EachLoop property rule :=
  Iff.rfl

@[simp] theorem eachLoop_seq :
    EachLoop property (seq first second) ↔ EachLoop property first ∧ EachLoop property second :=
  List.forall_mem_append

@[simp] theorem eachLoop_choose :
    EachLoop property (choose test first second) ↔
      EachLoop property first ∧ EachLoop property second :=
  List.forall_mem_append

@[simp] theorem eachLoop_when : EachLoop property (when test rule) ↔ EachLoop property rule := by
  simp [when]

@[simp] theorem eachLoop_loop :
    EachLoop property (loop rule) ↔ property rule ∧ EachLoop property rule :=
  List.forall_mem_cons

@[simp] theorem eachLoop_while_ :
    EachLoop property (while_ test rule) ↔
      property (when test (seq rule again)) ∧ EachLoop property rule := by
  simp [while_]

@[simp] theorem eachLoop_steps {rules : List (Rule Goal)} :
    EachLoop property (steps rules) ↔ ∀ rule ∈ rules, EachLoop property rule := by
  induction rules with
  | nil => simp [steps]
  | cons rule rules ih =>
    rw [List.forall_mem_cons, ← ih]
    exact eachLoop_seq

@[simp] theorem eachLoop_dispatch {table : List (String × Rule Goal)} :
    EachLoop property (dispatch table rule) ↔
      (∀ entry ∈ table, EachLoop property entry.2) ∧ EachLoop property rule := by
  induction table with
  | nil => simp [dispatch]
  | cons entry table ih =>
    rw [List.forall_mem_cons, and_assoc, ← ih]
    exact eachLoop_choose

end

/-- Each loop of the rule takes a token before it goes round again. -/
abbrev Thrifty : Rule Goal → Prop :=
  EachLoop (Earns Always)

/-- A loop that takes a token in each round, because its test makes sure of one. -/
theorem earns_while {test : Test} {rule : Rule Goal} (consumes : Consumes NotAtEnd rule)
    (h : test.excludesEnd) : Earns Always (when test (seq rule again)) :=
  .repeated (consumes.mono fun _ _ holds => Test.notAtEnd_of_excludesEnd h holds)

/-- Another round is asked for after a comma. -/
theorem earns_comma {P : Condition} :
    Earns P (when (.kind .comma) (steps [shift, again]) : Rule Goal) :=
  (Earns.shift_again.mono fun _ _ both => notAtEnd_of_kind both.2 (by decide)).when

theorem thrifty_group (label : String) : Thrifty (group label) := by
  refine eachLoop_while_.mpr ⟨earns_while (.choose ?_ ?_) rfl, eachLoop_of_loops rfl⟩
  · exact (Consumes.delimited fun _ _ h => (Test.holds_kind _ _ _).mp h.2).node
  · exact (consumes_tokenOrGroup label).mono fun _ _ h => h.1

theorem thrifty_angleGroup (label : String) : Thrifty (angleGroup label) := by
  refine eachLoop_while_.mpr ⟨earns_while (.choose ?_ ?_) rfl, eachLoop_of_loops rfl⟩
  · exact consumes_shift_steps.mono fun _ _ h => h.1
  · exact (consumes_tokenOrGroup label).mono fun _ _ h => h.1

theorem thrifty_attributes : Thrifty attributes :=
  eachLoop_while_.mpr ⟨earns_while consumes_shift_steps.node rfl, eachLoop_of_loops rfl⟩

theorem thrifty_modifiers : Thrifty modifiers :=
  eachLoop_while_.mpr ⟨earns_while consumes_shift_steps rfl, eachLoop_of_loops rfl⟩

theorem earns_effects : Earns Always (when .effect (seq shift again) : Rule Goal) :=
  earns_while .shift rfl

theorem thrifty_typeSuffix : Thrifty typeSuffix := by
  have marks : Earns Always (when .optionalMark (seq shift again)) := earns_while .shift rfl
  simp [typeSuffix, angles, marks, earns_effects]

/-- A type goes on after a period, an ampersand or an arrow. -/
theorem earns_typeSuffix {P : Condition} : Earns P typeSuffix := by
  refine (Earns.of_asks rfl).seq ((Earns.of_asks rfl).seq ((Earns.of_asks rfl).seq (.seq ?_ ?_)))
  · refine .choose ?_ ((Earns.of_asks rfl).seq (.seq (.when ?_) (.of_asks rfl)))
    · exact Earns.shift_again.mono fun _ _ both => Test.notAtEnd_of_excludesEnd rfl both.2
    · exact Earns.shift_again.mono fun _ _ both => Test.notAtEnd_of_excludesEnd rfl both.2
  · exact .of_asks rfl

theorem thrifty_typeRun : Thrifty typeRun := by
  refine (eachLoop_node _).mpr (eachLoop_loop.mpr ⟨?_, ?_⟩)
  · have suffixed (rule : Rule Goal) (silent : rule.asks = false) {P : Condition} :
        Earns P (steps [rule, typeSuffix]) :=
      (Earns.of_asks silent).seq (earns_typeSuffix.seq (.of_asks rfl))
    refine (Earns.of_asks rfl).seq ((Earns.of_asks rfl).seq (.seq ?_ (.of_asks rfl)))
    exact .choose (suffixed _ rfl) (.choose (suffixed _ rfl) (.when (suffixed _ rfl)))
  · have marked : Earns Always (when (.kind .atSign)
        (seq (steps [shift, when (.word &&& .glued) shift]) again)) :=
      earns_while consumes_shift_steps rfl
    have specified : Earns Always (when (.keywordIn ["inout", "some", "any"]) (seq shift again)) :=
      earns_while .shift rfl
    simp [marked, specified, thrifty_typeSuffix, parens, squares]

theorem thrifty_requiredType (place : String) : Thrifty (requiredType place) := by
  simp [requiredType, thrifty_typeRun]

theorem thrifty_expressionRest (stop : ExpressionStop) : Thrifty (expressionRest stop) :=
  eachLoop_while_.mpr ⟨earns_while consumes_expressionPart rfl, eachLoop_of_loops rfl⟩

theorem thrifty_expression (stop : ExpressionStop) {otherwise : Rule Goal}
    (h : Thrifty otherwise) : Thrifty (expression stop otherwise) := by
  have part : Thrifty expressionPart := eachLoop_of_loops rfl
  simp [expression, part, thrifty_expressionRest, h]

theorem thrifty_expressionAfter (words : List String) (stop : ExpressionStop)
    {otherwise : Rule Goal} (h : Thrifty otherwise) :
    Thrifty (expressionAfter words stop otherwise) := by
  simp [expressionAfter, thrifty_expressionRest, thrifty_expression stop h]

theorem thrifty_initializerClause : Thrifty initializerClause := by
  simp [initializerClause, thrifty_expression]

theorem thrifty_inheritance : Thrifty inheritance := by
  have round : Earns Always (choose .typeStart
      (steps [typeRun, when (.kind .comma) (steps [shift, again])])
      (requiredType "inheritance clause")) :=
    .choose ((Earns.of_asks rfl).seq (earns_comma.seq (.of_asks rfl))) (.of_asks rfl)
  simp [inheritance, round, thrifty_typeRun, thrifty_requiredType]

theorem thrifty_requirements : Thrifty requirements := by
  refine eachLoop_when.mpr (eachLoop_seq.mpr ⟨eachLoop_shift, eachLoop_seq.mpr ⟨?_, eachLoop_skip⟩⟩)
  exact eachLoop_while_.mpr ⟨earns_while (consumes_tokenOrGroup _) rfl, eachLoop_of_loops rfl⟩

/-- Attributes that come first are taken. -/
theorem consumes_when_attributes {P : Condition} :
    Consumes (fun last rest => P last rest ∧ (Test.kind .atSign).holds last rest)
      (when (.kind .atSign) attributes) :=
  (consumes_attributes.when fun _ _ h => h).mono fun _ _ h => h.2

/-- A parameter begins with attributes or with a name. -/
theorem consumes_parameter :
    Consumes (fun last rest => (Test.kindIn [.identifier, .keyword, .atSign]).holds last rest)
      parameter := by
  apply Consumes.node
  apply Consumes.split fun last rest => (Test.kind .atSign).holds last rest
  · exact consumes_when_attributes.seq_left
  · apply Consumes.seq_right
    apply Consumes.seq_left
    apply Consumes.when
    · exact Consumes.shift.mono fun _ _ h => Test.notAtEnd_of_excludesEnd rfl h.1
    · rintro last rest ⟨begins, other⟩
      simp_all [Test.word, Test.kind, Test.holds]

theorem thrifty_parameter : Thrifty parameter := by
  simp [parameter, thrifty_attributes, thrifty_requiredType, thrifty_initializerClause]

theorem thrifty_parameters : Thrifty parameters := by
  refine eachLoop_while_.mpr ⟨earns_while (.choose ?_ ?_) rfl, ?_⟩
  · exact consumes_parameter.mono fun _ _ h => h.2
  · exact (Consumes.recover rfl).seq_left.mono fun _ _ h => h.1
  · simp [thrifty_parameter]

theorem thrifty_functionSignature : Thrifty functionSignature := by
  simp [functionSignature, earns_effects, thrifty_typeRun]

theorem thrifty_signatureIn (place : String) {otherwise : Rule Goal} (h : Thrifty otherwise) :
    Thrifty (signatureIn place otherwise) := by
  simp [signatureIn, thrifty_functionSignature, h]

theorem thrifty_typeDeclaration (kind : NodeKind) : Thrifty (typeDeclaration kind) := by
  have named : Thrifty (if kind = .extensionDecl then requiredType "extension"
      else declaredName kind) := by
    split
    · exact thrifty_requiredType _
    · exact eachLoop_of_loops rfl
  have members : Thrifty (block .memberBlock .members kind) := eachLoop_of_loops rfl
  have generics : Thrifty genericParameters := eachLoop_of_loops rfl
  simp [typeDeclaration, named, generics, members, thrifty_inheritance, thrifty_requirements]

theorem thrifty_variableDeclaration : Thrifty variableDeclaration := by
  refine eachLoop_seq.mpr ⟨eachLoop_become _, eachLoop_seq.mpr ⟨eachLoop_shift,
    eachLoop_seq.mpr ⟨eachLoop_loop.mpr ⟨.node ?_, ?_⟩, eachLoop_skip⟩⟩⟩
  · exact (Earns.of_asks rfl).seq ((Earns.of_asks rfl).seq ((Earns.of_asks rfl).seq
      ((Earns.of_asks rfl).seq (earns_comma.seq (.of_asks rfl)))))
  · have accessors : Thrifty accessorBlock := eachLoop_of_loops rfl
    simp [parens, accessors, thrifty_requiredType, thrifty_initializerClause]

theorem thrifty_enumCaseDeclaration : Thrifty enumCaseDeclaration := by
  refine eachLoop_seq.mpr ⟨eachLoop_become _, eachLoop_seq.mpr ⟨eachLoop_shift,
    eachLoop_seq.mpr ⟨eachLoop_loop.mpr ⟨.node ?_, ?_⟩, eachLoop_skip⟩⟩⟩
  · exact (Earns.of_asks rfl).seq ((Earns.of_asks rfl).seq ((Earns.of_asks rfl).seq
      (earns_comma.seq (.of_asks rfl))))
  · simp [parens, missingIdentifier, thrifty_initializerClause]

theorem thrifty_importDeclaration : Thrifty importDeclaration := by
  have path : Thrifty (while_ (~~~.lineStart &&& .kindIn [.identifier, .keyword, .period])
      shift) :=
    eachLoop_while_.mpr ⟨earns_while .shift rfl, eachLoop_shift⟩
  simp [importDeclaration, path]

theorem thrifty_declaration : Thrifty declaration := by
  have generics : Thrifty genericParameters := eachLoop_of_loops rfl
  have code (owner : NodeKind) : Thrifty (codeBlock owner) := eachLoop_of_loops rfl
  have accessors : Thrifty accessorBlock := eachLoop_of_loops rfl
  have named (kind : NodeKind) : Thrifty (declaredName kind) := eachLoop_of_loops rfl
  have unnamed (place : String) : Thrifty (missingIdentifier place) := eachLoop_of_loops rfl
  have function : Thrifty functionDeclaration := by
    simp [functionDeclaration, generics, code, unnamed, thrifty_signatureIn, thrifty_requirements]
  have initializer : Thrifty initializerDeclaration := by
    simp [initializerDeclaration, generics, code, thrifty_signatureIn, thrifty_requirements]
  have deinitializer : Thrifty deinitializerDeclaration := by
    simp [deinitializerDeclaration, code]
  have indexer : Thrifty subscriptDeclaration := by
    simp [subscriptDeclaration, generics, accessors, thrifty_signatureIn, thrifty_requirements]
  have synonym : Thrifty typeAliasDeclaration := by
    simp [typeAliasDeclaration, generics, named, assignedType, thrifty_requiredType,
      thrifty_requirements]
  have associated : Thrifty associatedTypeDeclaration := by
    simp [associatedTypeDeclaration, named, assignedType, thrifty_inheritance,
      thrifty_requiredType, thrifty_requirements]
  simp [declaration, thrifty_attributes, thrifty_modifiers, thrifty_importDeclaration,
    thrifty_typeDeclaration, function, initializer, deinitializer, indexer,
    thrifty_variableDeclaration, thrifty_enumCaseDeclaration, synonym, associated]

theorem thrifty_conditions : Thrifty conditions := by
  refine (eachLoop_node _).mpr (eachLoop_loop.mpr ⟨.choose ?_ (.of_asks rfl), ?_⟩)
  · exact (Earns.of_asks rfl).seq (earns_comma.seq (.of_asks rfl))
  · simp [thrifty_expressionAfter]

theorem thrifty_requiredBlock (owner : NodeKind) : Thrifty (requiredBlock owner) :=
  eachLoop_of_loops rfl

theorem thrifty_conditional : Thrifty conditional := by
  simp [conditional, thrifty_conditions, thrifty_requiredBlock]

theorem thrifty_doStatement : Thrifty doStatement := by
  refine (eachLoop_node _).mpr (eachLoop_seq.mpr ⟨eachLoop_shift, eachLoop_seq.mpr
    ⟨thrifty_requiredBlock _, eachLoop_seq.mpr ⟨eachLoop_while_.mpr ⟨?_, ?_⟩, eachLoop_skip⟩⟩⟩)
  · exact earns_while consumes_shift_steps rfl
  · simp [thrifty_expressionAfter, thrifty_requiredBlock]

theorem thrifty_statement (phrase : String) : Thrifty (statement phrase) := by
  simp [statement, returnStatement, throwStatement, jumpStatement, thrifty_conditional,
    guardStatement, whileStatement, repeatStatement, forStatement, switchStatement,
    thrifty_doStatement, deferStatement, missingExpression, thrifty_expression,
    thrifty_expressionAfter, thrifty_conditions, thrifty_requiredBlock]

/-- Without an attribute, a label of a switch begins with one of two keywords. -/
theorem case_or_default {last : Option Token} {rest : List Token}
    (label : Test.switchLabel.holds last rest) (other : ¬(Test.kind .atSign).holds last rest) :
    (Test.keyword "case").holds last rest ∨ (Test.keyword "default").holds last rest := by
  rw [Test.switchLabel, Test.holds_or, Test.holds_and, Bool.or_eq_true, Bool.and_eq_true] at label
  obtain ⟨word, listed, current⟩ :=
    holds_keyword_of_keywordIn (label.resolve_right fun both => other both.1)
  simp only [List.mem_cons, List.not_mem_nil, or_false] at listed
  obtain rfl | rfl := listed
  · exact .inl current
  · exact .inr current

/-- The word or the attribute of a label is taken before what belongs to the label. -/
theorem consumes_label :
    Consumes (fun last rest => Test.switchLabel.holds last rest ∧
        ¬(Test.kind .atSign).holds last rest)
      (choose (.keyword "case")
        (steps [
          shift,
          expression { colon := true } <|
            missing "expected pattern in 'case' label" "insert pattern" " <#pattern#>"])
        (when (.keyword "default") shift) : Rule Goal) := by
  apply Consumes.choose
  · exact consumes_shift_steps.mono fun _ _ h => notAtEnd_of_keywordIn h.2
  · apply Consumes.when
    · exact Consumes.shift.mono fun last rest h => by
        obtain word | word := case_or_default h.1.1 h.1.2
        · exact notAtEnd_of_keywordIn word
        · exact notAtEnd_of_keywordIn word
    · rintro last rest ⟨⟨label, other⟩, none⟩
      exact (case_or_default label other).resolve_left none

theorem consumes_switchCase :
    Consumes (fun last rest => Test.switchLabel.holds last rest) switchCase := by
  apply Consumes.node
  apply Consumes.split fun last rest => (Test.kind .atSign).holds last rest
  · exact consumes_when_attributes.seq_left
  · exact consumes_label.seq_left.seq_right

theorem thrifty_switchCase : Thrifty switchCase := by
  simp [switchCase, thrifty_attributes, thrifty_expression]

theorem thrifty_switchCases : Thrifty switchCases := by
  refine (eachLoop_node _).mpr (eachLoop_while_.mpr ⟨earns_while (.choose ?_ ?_) rfl, ?_⟩)
  · exact consumes_switchCase.mono fun _ _ h => h.2
  · exact (Consumes.recover rfl).mono fun _ _ h => h.1
  · exact eachLoop_choose.mpr ⟨thrifty_switchCase, eachLoop_recover _⟩

theorem thrifty_item (context : ItemContext) (owner : NodeKind) : Thrifty (item context owner) := by
  cases context <;>
    simp [item, extraneousBrace, nonMember, thrifty_declaration, thrifty_statement]

theorem thrifty_items (context : ItemContext) (owner : NodeKind) :
    Thrifty (items context owner) := by
  refine (eachLoop_node _).mpr (eachLoop_while_.mpr ⟨.repeated (consumes_round context owner), ?_⟩)
  simp [thrifty_item]

theorem thrifty_swift (goal : Goal) : Thrifty (swift goal) := by
  cases goal with
  | items context owner => exact thrifty_items context owner
  | group label => exact thrifty_group label
  | angles label => exact thrifty_angleGroup label
  | parameters => exact thrifty_parameters
  | cases => exact thrifty_switchCases
  | conditional => exact thrifty_conditional

/-- The rule and each round of its loops keep within their bounds. -/
structure Kept (rule : Rule Goal) : Prop where
  follows : Follows swift Always rule
  loops : EachLoop (Follows swift Always) rule

namespace Kept

variable {first second rule : Rule Goal} {test : Test}

theorem node {kind : NodeKind} (h : Kept rule) : Kept (.node kind rule) :=
  ⟨h.follows.node, h.loops⟩

theorem seq (before : Kept first) (after : Kept second) : Kept (.seq first second) :=
  ⟨before.follows.seq after.follows, eachLoop_seq.mpr ⟨before.loops, after.loops⟩⟩

theorem choose (yes : Kept first) (no : Kept second) : Kept (.choose test first second) :=
  ⟨.choose (yes.follows.mono fun _ _ _ => trivial) (no.follows.mono fun _ _ _ => trivial),
    eachLoop_choose.mpr ⟨yes.loops, no.loops⟩⟩

theorem loop (earns : Earns Always rule) (h : Kept rule) : Kept (.loop rule) :=
  ⟨.loop earns h.follows, eachLoop_loop.mpr ⟨h.follows, h.loops⟩⟩

theorem of_calls (free : rule.calls = []) (thrifty : Thrifty rule) : Kept rule := by
  induction rule with
  | node kind body inside => exact (inside free thrifty).node
  | seq first second before after =>
    rw [Rule.calls, List.append_eq_nil_iff] at free
    have each := eachLoop_seq.mp thrifty
    exact (before free.1 each.1).seq (after free.2 each.2)
  | choose test yes no left right =>
    rw [Rule.calls, List.append_eq_nil_iff] at free
    have each := eachLoop_choose.mp thrifty
    exact (left free.1 each.1).choose (right free.2 each.2)
  | loop body round =>
    have each := eachLoop_loop.mp thrifty
    exact (round free each.2).loop each.1
  | _ => exact ⟨.of_calls (.inl free) thrifty, eachLoop_of_loops rfl⟩

theorem dispatch {table : List (String × Rule Goal)} (rules : ∀ entry ∈ table, Kept entry.2)
    (other : Kept rule) : Kept (.dispatch table rule) := by
  induction table with
  | nil => exact other
  | cons entry table ih =>
    rw [List.forall_mem_cons] at rules
    exact rules.1.choose (ih rules.2)

end Kept

/-- Another `if` comes after an `else`. -/
theorem kept_conditional : Kept conditional := by
  refine .node (.seq (.of_calls rfl eachLoop_shift) (.seq (.of_calls rfl thrifty_conditions)
    (.seq (.of_calls rfl (thrifty_requiredBlock _)) (.seq ⟨.choose ?_ ?_, ?_⟩ ?_))))
  · refine .seq_consumes ?_ (.of_calls (.inl rfl) eachLoop_shift)
      (.of_calls (.inr fun _ _ => id) ?_)
    · exact Consumes.shift.mono fun _ _ h => notAtEnd_of_keywordIn h.2
    · exact eachLoop_of_loops rfl
  · exact .of_calls (.inl rfl) eachLoop_skip
  · exact eachLoop_of_loops rfl
  · exact .of_calls rfl eachLoop_skip

theorem kept_statement (phrase : String) : Kept (statement phrase) := by
  have thrifty := eachLoop_dispatch.mp (thrifty_statement phrase)
  refine .dispatch ?_ (.of_calls rfl thrifty.2)
  intro entry member
  -- Of the statements in the table, only the one with branches calls for a goal.
  have calls : entry.2.calls = [] ∨ entry.2 = conditional := by
    revert entry
    simp only [List.forall_mem_cons, List.not_mem_nil, false_implies, implies_true, and_true]
    and_intros <;> first | exact .inl rfl | exact .inr trivial
  obtain free | branches := calls
  · exact .of_calls free (thrifty.1 entry member)
  · exact branches ▸ kept_conditional

theorem kept_item (context : ItemContext) (owner : NodeKind) : Kept (item context owner) := by
  refine .choose (.of_calls rfl thrifty_declaration) ?_
  cases context with
  | topLevel => exact .choose (.of_calls rfl (eachLoop_of_loops rfl)) (kept_statement _)
  | members => exact .of_calls rfl (eachLoop_of_loops rfl)
  | codeBlock => exact kept_statement _
  | switchCase => exact kept_statement _
  | closure => exact kept_statement _

theorem kept_items (context : ItemContext) (owner : NodeKind) : Kept (items context owner) := by
  refine .node (.loop (.repeated (consumes_round context owner))
    (.choose (.seq (.choose ?_ ?_) ?_) ?_))
  · exact .of_calls rfl eachLoop_attach
  · exact kept_item context owner
  · exact .of_calls rfl eachLoop_again
  · exact .of_calls rfl eachLoop_skip

/-- Angle brackets inside angle brackets come after the one that opens them. -/
theorem kept_angleGroup (label : String) : Kept (angleGroup label) := by
  have nested : Follows swift (fun last rest => Always last rest ∧
      (Test.kind .leftAngle).holds last rest)
      (steps [shift, call (.angles label), when (.kind .rightAngle) shift]) := by
    refine .seq_consumes ?_ (.of_calls (.inl rfl) eachLoop_shift)
      (.of_calls (.inr fun _ _ => id) (eachLoop_of_loops rfl))
    exact Consumes.shift.mono fun _ _ h => notAtEnd_of_kind h.2 (by decide)
  refine .loop (eachLoop_while_.mp (thrifty_angleGroup label)).1
    (.choose (.seq ⟨.choose nested ?_, ?_⟩ ?_) ?_)
  · exact .of_calls (.inl rfl) (eachLoop_of_loops rfl)
  · exact eachLoop_of_loops rfl
  · exact .of_calls rfl eachLoop_again
  · exact .of_calls rfl eachLoop_skip

/-- The items of a case come after its label. -/
theorem follows_switchCase :
    Follows swift (fun last rest => Test.switchLabel.holds last rest) switchCase := by
  obtain ⟨marks, later⟩ := eachLoop_seq.mp thrifty_switchCase
  obtain ⟨word, items⟩ := eachLoop_seq.mp later
  apply Follows.node
  apply Follows.split fun last rest => (Test.kind .atSign).holds last rest
  · exact .seq_consumes consumes_when_attributes (.of_calls (.inl rfl) marks)
      (.of_calls (.inr fun _ _ => id) later)
  · exact .seq (.of_calls (.inl rfl) marks) (.seq_consumes consumes_label
      (.of_calls (.inl rfl) word) (.of_calls (.inr fun _ _ => id) items))

theorem kept_switchCases : Kept switchCases := by
  obtain ⟨earns, -⟩ := eachLoop_while_.mp thrifty_switchCases
  obtain ⟨marks, later⟩ := eachLoop_seq.mp thrifty_switchCase
  obtain ⟨word, -⟩ := eachLoop_seq.mp later
  refine .node (.loop earns (.choose (.seq ⟨.choose ?_ ?_, ?_⟩ ?_) ?_))
  · exact follows_switchCase.mono fun _ _ h => h.2
  · exact .of_calls (.inl rfl) (eachLoop_recover _)
  · exact eachLoop_choose.mpr ⟨eachLoop_seq.mpr ⟨(Kept.of_calls rfl marks).loops,
      eachLoop_seq.mpr ⟨(Kept.of_calls rfl word).loops, eachLoop_of_loops rfl⟩⟩, eachLoop_recover _⟩
  · exact .of_calls rfl eachLoop_again
  · exact .of_calls rfl eachLoop_skip

theorem kept_swift (goal : Goal) : Kept (swift goal) := by
  cases goal with
  | items context owner => exact kept_items context owner
  | group label => exact .of_calls rfl (thrifty_group label)
  | angles label => exact kept_angleGroup label
  | parameters => exact .of_calls rfl thrifty_parameters
  | cases => exact kept_switchCases
  | conditional => exact kept_conditional

end Rule

end SwiftTree.Grammar
