import SwiftTree.Proofs.Token.Stability.Literal

/-!
# Lexemes up to a cut

A lexeme that lies in a first part of a text is still read when the rest of the text is exchanged
for anything that it does not go on with. What is in the way of that: a lone backquote looks for
another one up to the end of its line; a literal that is not closed and trivia go on up to a line
break; and a carriage return may be joined with a line feed that follows. All of them are settled
where a line break or the end of the text comes next, but for the last.
-/

namespace SwiftTree.Lexer

open StringLiteral (extent_settled hashes_lt_openingLength)

theorem backquotedTail?_append {part rest : List Char} (new : List Char) {length : Nat}
    (found : backquotedTail? (part ++ rest) = some length) (fits : length ≤ part.length) :
    backquotedTail? (part ++ new) = some length := by
  induction part generalizing length with
  | nil =>
    obtain rfl := Nat.le_zero.mp fits
    cases rest with
    | nil => cases found
    | cons c rest =>
      rw [List.nil_append, backquotedTail?] at found
      split at found
      · cases found
      split at found
      · cases found
      · obtain ⟨inner, -, impossible⟩ := Option.map_eq_some_iff.mp found
        cases impossible
  | cons c part ih =>
    simp only [List.cons_append, backquotedTail?] at found ⊢
    split at found
    · rename_i closes
      rw [if_pos closes, found]
    rename_i closes
    rw [if_neg closes]
    split at found
    · cases found
    · rename_i goes
      obtain ⟨inner, behind, rfl⟩ := Option.map_eq_some_iff.mp found
      rw [if_neg goes, ih behind (Nat.le_of_succ_le_succ fits)]
      rfl

/-- A backquote that is not closed in the first part is not closed where its line ends. -/
theorem backquotedTail?_halts {part rest new : List Char} (halts : Text.Halts new)
    (found : backquotedTail? (part ++ rest) = none) : backquotedTail? (part ++ new) = none := by
  induction part with
  | nil =>
    cases new with
    | nil => rfl
    | cons b after =>
      have breaks : Text.isLineBreak b := halts b rfl
      have other : (b == '`') = false := by
        obtain rfl | rfl := Text.isLineBreak_iff.mp breaks <;> rfl
      rw [List.nil_append, backquotedTail?, other, breaks]
      rfl
  | cons c part ih =>
    simp only [List.cons_append, backquotedTail?] at found ⊢
    split at found
    · cases found
    rename_i closes
    rw [if_neg closes]
    split at found
    · rename_i stops
      rw [if_pos stops]
    · rename_i goes
      rw [if_neg goes, ih (Option.map_eq_none_iff.mp found)]
      rfl

/-- Whether hash signs are followed by a quote. -/
theorem opensLiteral_settled {part rest new : List Char} (cut : Cut ('#' :: part) new)
    (fits : ((part ++ rest).dropWhile (· == '#')).head? == some '"' →
      part.dropWhile (· == '#') ≠ []) :
    (((part ++ new).dropWhile (· == '#')).head? == some '"') =
      (((part ++ rest).dropWhile (· == '#')).head? == some '"') := by
  cases left : part.dropWhile (· == '#') with
  | nil =>
    have signs : ∀ c ∈ part, c == '#' := by
      have whole := List.takeWhile_append_dropWhile (p := (· == '#')) (l := part)
      rw [left, List.append_nil] at whole
      exact @forall_of_runLength (· == '#') part []
        (Nat.le_of_eq (by rw [List.append_nil, runLength, whole]))
    have stops : ∀ c ∈ new.head?, (c == '#' || c == '"') = false := by
      refine cut.stops (by simp [separators]) fun last final next goes => ?_
      obtain rfl : last = '#' := by
        obtain rfl | inside := List.mem_cons.mp (List.mem_of_getLast? final)
        · rfl
        · exact beq_iff_eq.mp (signs last inside)
      simp only [Bool.or_eq_true, beq_iff_eq] at goes
      obtain rfl | rfl := goes <;> simp [joins]
    rw [Bool.eq_false_iff.mpr fun quote => fits quote left, List.dropWhile_append, left]
    cases new with
    | nil => rfl
    | cons b after =>
      obtain ⟨hash, quote⟩ := Bool.or_eq_false_iff.mp (stops b rfl)
      simpa [hash] using quote
  | cons c part =>
    simp [List.dropWhile_append, left]

/-- The quotes of a literal that lies in the first part follow the hash signs there. -/
theorem dropWhile_ne_nil_of_length_extent {part rest : List Char}
    (fits : (StringLiteral.extent ('#' :: (part ++ rest))).length ≤ part.length + 1) :
    part.dropWhile (· == '#') ≠ [] := by
  intro empty
  have signs : part.takeWhile (· == '#') = part := by
    have all := List.takeWhile_append_dropWhile (p := (· == '#')) (l := part)
    rwa [empty, List.append_nil] at all
  have count := hashes_lt_openingLength ('#' :: (part ++ rest))
  rw [List.takeWhile_cons_of_pos (by rfl), List.takeWhile_append, if_pos (by rw [signs]),
    List.length_cons, List.length_append] at count
  rw [StringLiteral.extent, StringLiteral.Extent.length_add] at fits
  omega

theorem punctuationExtent_period (cs : List Char) : punctuationExtent '.' cs =
    if ['.', '.'] <+: cs ∨ ['.', '<'] <+: cs then (.operator, 3) else (.period, 1) := by
  by_cases dots : ['.', '.'] <+: cs
  · obtain ⟨tail, rfl⟩ := dots
    rw [if_pos (.inl (List.prefix_append _ _))]
    rfl
  by_cases angle : ['.', '<'] <+: cs
  · obtain ⟨tail, rfl⟩ := angle
    rw [if_pos (.inr (List.prefix_append _ _))]
    rfl
  rw [if_neg (not_or.mpr ⟨dots, angle⟩), punctuationExtent]
  · rintro tail rfl
    exact dots ⟨tail, rfl⟩
  · rintro tail rfl
    exact angle ⟨tail, rfl⟩

theorem punctuationExtent_less (cs : List Char) : punctuationExtent '<' cs =
    if ['='] <+: cs ∨ ['<'] <+: cs then (.operator, operatorLength cs) else (.leftAngle, 1) := by
  unfold punctuationExtent
  split <;> simp_all [List.cons_prefix_iff]

theorem punctuationExtent_greater (cs : List Char) : punctuationExtent '>' cs =
    if ['='] <+: cs then (.operator, 2) else (.rightAngle, 1) := by
  unfold punctuationExtent
  split <;> simp_all [List.cons_prefix_iff]

theorem punctuationExtent_minus (cs : List Char) : punctuationExtent '-' cs =
    if ['>'] <+: cs then (.arrow, 2) else (.operator, operatorLength cs) := by
  have sign : isOperatorChar '-' = true := rfl
  unfold punctuationExtent
  split <;> simp_all [List.cons_prefix_iff]

theorem punctuationExtent_question (cs : List Char) : punctuationExtent '?' cs =
    if ['?', '='] <+: cs then (.operator, 3) else if ['?'] <+: cs then (.operator, 2)
    else (.questionMark, 1) := by
  unfold punctuationExtent
  split <;> simp_all [List.cons_prefix_iff]

theorem punctuationExtent_exclamation (cs : List Char) : punctuationExtent '!' cs =
    if ['=', '='] <+: cs then (.operator, 3) else if ['='] <+: cs then (.operator, 2)
    else (.exclamationMark, 1) := by
  unfold punctuationExtent
  split <;> simp_all [List.cons_prefix_iff]

/-- All other characters are tokens on their own or begin an operator. -/
theorem punctuationExtent_other {c : Char}
    (h : c ∉ ['`', '$', '"', '#', '.', '<', '>', '-', '?', '!', '=']) (cs : List Char) :
    punctuationExtent c cs =
      if isOperatorChar c then (.operator, operatorLength cs) else punctuationExtent c [] := by
  simp only [List.mem_cons, List.not_mem_nil, or_false, not_or] at h
  unfold punctuationExtent
  split <;> simp_all [isOperatorChar]

theorem triviaExtent?_of_isSpace {c : Char} (h : isSpace c) (atStart : Bool) (cs : List Char) :
    triviaExtent? atStart (c :: cs) = some (.whitespace, runLength isSpace (c :: cs)) := by
  rw [triviaExtent?, if_pos h]

theorem triviaExtent?_of_slashes (atStart : Bool) {cs : List Char} (h : ['/', '/'] <+: cs) :
    triviaExtent? atStart cs = some (.ofComment (cs.take (runLength (!Text.isLineBreak ·) cs)),
      runLength (!Text.isLineBreak ·) cs) := by
  obtain ⟨more, rfl⟩ := h
  rfl

theorem triviaExtent?_of_slash_star (atStart : Bool) {cs : List Char} (h : ['/', '*'] <+: cs) :
    triviaExtent? atStart cs =
      some (.ofComment (cs.take (Comment.length cs)), Comment.length cs) := by
  obtain ⟨more, rfl⟩ := h
  rfl

theorem triviaExtent?_of_hash {cs : List Char} (h : ['#', '!'] <+: cs) :
    triviaExtent? true cs = some (.lineComment, runLength (!Text.isLineBreak ·) cs) := by
  obtain ⟨more, rfl⟩ := h
  rfl

theorem and_head?_eq_true_iff {a b c : Char} {cs : List Char} :
    (c == a && cs.head? == some b) = true ↔ [a, b] <+: c :: cs := by
  cases cs with
  | nil => simp
  | cons d cs =>
    rw [List.head?_cons, Bool.and_eq_true, beq_iff_eq, beq_iff_eq, Option.some.injEq,
      List.cons_prefix_cons, List.cons_prefix_cons, @eq_comm _ a, @eq_comm _ b]
    simp

theorem triviaExtent?_eq_none {atStart : Bool} {c : Char} {cs : List Char} (space : ¬isSpace c)
    (line : ¬Text.isLineBreak c) (slashes : ¬['/', '/'] <+: c :: cs)
    (star : ¬['/', '*'] <+: c :: cs) (hash : ¬(atStart = true ∧ ['#', '!'] <+: c :: cs)) :
    triviaExtent? atStart (c :: cs) = none := by
  have joined : ¬['\r', '\n'] <+: c :: cs := by
    rintro ⟨more, equation⟩
    cases equation
    exact line rfl
  rw [← and_head?_eq_true_iff] at slashes star hash joined
  rw [triviaExtent?, if_neg space, if_neg joined, if_neg line, if_neg slashes, if_neg star,
    Bool.and_assoc, if_neg (by rwa [Bool.and_eq_true])]

/-- The mark at the start of a line comment. -/
theorem two_le_runLength {a b : Char} {cs : List Char} (h : [a, b] <+: cs)
    (first : Text.isLineBreak a = false) (second : Text.isLineBreak b = false) :
    2 ≤ runLength (!Text.isLineBreak ·) cs := by
  obtain ⟨more, rfl⟩ := h
  simp [runLength_cons, first, second]

theorem two_le_length_comment {cs : List Char} (h : ['/', '*'] <+: cs) : 2 ≤ Comment.length cs := by
  unfold Comment.length
  cases found : Comment.extent cs with
  | closed length =>
    obtain ⟨more, rfl⟩ := h
    obtain ⟨inner, -, rfl⟩ := Comment.Extent.add_eq_closed_iff.mp found
    exact Nat.le_add_left _ _
  | unclosed depth => exact h.length_le

section

variable {part rest new : List Char}

/-- A test for punctuation that follows is settled if it is part of the token. -/
theorem mark_settled {c : Char} {mark : List Char} (cut : Cut (c :: part) new)
    (plain : ∀ c ∈ mark, c ∉ separators)
    (joined : ∀ last ∈ c :: mark, ∀ next ∈ mark, joins last next)
    {size : Nat} (long : mark <+: part ++ rest → mark.length < size)
    (fits : size ≤ part.length + 1) :
    mark <+: part ++ new ↔ mark <+: part ++ rest :=
  prefix_settled (@Cut.not_prefix [c] mark part new cut plain joined)
    fun h => Nat.le_of_lt_succ (Nat.lt_of_lt_of_le (long h) fits)

theorem one_lt_operatorLength {c : Char} (sign : isOperatorChar c) (other : c ≠ '/')
    {cs : List Char} (h : [c] <+: cs) : 1 < operatorLength cs := by
  obtain ⟨more, rfl⟩ := h
  rw [List.singleton_append, operatorLength, operatorTail, opensComment_of_ne other, sign]
  simp

theorem punctuationExtent_backquote_settled
    (fits : (punctuationExtent '`' (part ++ rest)).2 ≤ part.length + 1)
    (quote : Text.Halts new ∨ backquotedTail? (part ++ rest) ≠ none) :
    punctuationExtent '`' (part ++ new) = punctuationExtent '`' (part ++ rest) := by
  have tail : backquotedTail? (part ++ new) = backquotedTail? (part ++ rest) := by
    simp only [punctuationExtent] at fits
    cases found : backquotedTail? (part ++ rest) with
    | none => exact backquotedTail?_halts (quote.resolve_right fun some => some found) found
    | some length =>
      rw [found] at fits
      exact backquotedTail?_append new found (Nat.le_of_succ_le_succ fits)
  simp only [punctuationExtent, tail]

theorem punctuationExtent_hash_settled (cut : Cut ('#' :: part) new)
    (fits : (punctuationExtent '#' (part ++ rest)).2 ≤ part.length + 1)
    (literal : (punctuationExtent '#' (part ++ rest)).1 = .stringLiteral →
      (StringLiteral.extent ('#' :: (part ++ rest))).Within ('#' :: part) rest new) :
    punctuationExtent '#' (part ++ new) = punctuationExtent '#' (part ++ rest) := by
  simp only [punctuationExtent] at fits literal ⊢
  have quoted := opensLiteral_settled cut fun quoted => by
    exact dropWhile_ne_nil_of_length_extent (by rwa [if_pos quoted] at fits)
  rw [quoted]
  split
  · rename_i opens
    have closed := @extent_settled ('#' :: part) rest new cut (literal (by rw [if_pos opens]))
    simp only [List.cons_append] at closed
    rw [closed]
  · rfl

section

variable (slash : part.getLast? = some '/' → opensComment ('/' :: new) = false)

include slash

theorem operatorLength_settled {c : Char} (cut : Cut (c :: part) new) (sign : isOperatorChar c)
    (fits : operatorLength (part ++ rest) ≤ part.length + 1)
    (whole : part.drop (operatorLength (part ++ rest) - 1) = ['/'] →
      opensComment ('/' :: rest) = false) :
    operatorLength (part ++ new) = operatorLength (part ++ rest) :=
  congrArg (· + 1) (operatorTail_settled sign cut slash (Nat.le_of_succ_le_succ fits) whole)

/-- Of what begins an operator under some condition, only the length depends on what follows. -/
theorem operatorExtent_settled {c : Char} (cut : Cut (c :: part) new) {p : Prop} [Decidable p]
    (sign : p → isOperatorChar c) {other : TokenKind × Nat}
    (fits : (if p then (.operator, operatorLength (part ++ rest)) else other).2 ≤ part.length + 1)
    (whole : part.drop ((if p then (.operator, operatorLength (part ++ rest)) else other).2 - 1) =
      ['/'] → opensComment ('/' :: rest) = false) :
    (if p then (.operator, operatorLength (part ++ new)) else other) =
      if p then (.operator, operatorLength (part ++ rest)) else other := by
  split
  · rename_i holds
    rw [if_pos holds] at fits whole
    rw [operatorLength_settled slash cut (sign holds) fits whole]
  · rfl

theorem punctuationExtent_less_settled (cut : Cut ('<' :: part) new)
    (fits : (punctuationExtent '<' (part ++ rest)).2 ≤ part.length + 1)
    (whole : part.drop ((punctuationExtent '<' (part ++ rest)).2 - 1) = ['/'] →
      opensComment ('/' :: rest) = false) :
    punctuationExtent '<' (part ++ new) = punctuationExtent '<' (part ++ rest) := by
  simp only [punctuationExtent_less] at fits whole ⊢
  have equal : ['='] <+: part ++ new ↔ ['='] <+: part ++ rest :=
    mark_settled cut (by simp [separators]) (by simp [joins, isOperatorChar]) (fun h => by
      rw [if_pos (.inl h)]
      exact one_lt_operatorLength rfl (by simp) h) fits
  have angle : ['<'] <+: part ++ new ↔ ['<'] <+: part ++ rest :=
    mark_settled cut (by simp [separators]) (by simp [joins, isOperatorChar]) (fun h => by
      rw [if_pos (.inr h)]
      exact one_lt_operatorLength rfl (by simp) h) fits
  simp only [equal, angle]
  exact operatorExtent_settled slash cut (fun _ => rfl) fits whole

theorem punctuationExtent_minus_settled (cut : Cut ('-' :: part) new)
    (fits : (punctuationExtent '-' (part ++ rest)).2 ≤ part.length + 1)
    (whole : part.drop ((punctuationExtent '-' (part ++ rest)).2 - 1) = ['/'] →
      opensComment ('/' :: rest) = false) :
    punctuationExtent '-' (part ++ new) = punctuationExtent '-' (part ++ rest) := by
  simp only [punctuationExtent_minus] at fits whole ⊢
  have arrow : ['>'] <+: part ++ new ↔ ['>'] <+: part ++ rest :=
    mark_settled cut (by simp [separators]) (by simp [joins, isOperatorChar]) (fun h => by simp [h]) fits
  simp only [arrow, ← ite_not (p := ['>'] <+: part ++ rest)] at fits whole ⊢
  exact operatorExtent_settled slash cut (fun _ => rfl) fits whole

/-- The cases follow the first character: a few of them begin a token of their own kind, and a few
are looked at together with what follows. -/
theorem punctuationExtent_settled (c : Char) (cut : Cut (c :: part) new)
    (fits : (punctuationExtent c (part ++ rest)).2 ≤ part.length + 1)
    (whole : part.drop ((punctuationExtent c (part ++ rest)).2 - 1) = ['/'] →
      opensComment ('/' :: rest) = false)
    (quote : c = '`' → Text.Halts new ∨ backquotedTail? (part ++ rest) ≠ none)
    (literal : (punctuationExtent c (part ++ rest)).1 = .stringLiteral →
      (StringLiteral.extent (c :: (part ++ rest))).Within (c :: part) rest new) :
    punctuationExtent c (part ++ new) = punctuationExtent c (part ++ rest) := by
  by_cases special : c ∈ ['`', '$', '"', '#', '.', '<', '>', '-', '?', '!', '=']
  case neg =>
    rw [punctuationExtent_other special (part ++ rest)] at fits whole ⊢
    rw [punctuationExtent_other special (part ++ new)]
    exact operatorExtent_settled slash cut id fits whole
  simp only [List.mem_cons, List.not_mem_nil, or_false] at special
  rcases special with rfl | rfl | rfl | rfl | rfl | rfl | rfl | rfl | rfl | rfl | rfl
  · exact punctuationExtent_backquote_settled fits (quote rfl)
  · have parts := @runLength_cut _ isIdentifierPart_of_mem_separators
      (fun _ _ => joins_of_isIdentifierPart) ['$'] part rest new cut
      (fun last dollar next goes => by simp [List.mem_singleton.mp dollar, joins, goes])
      (Nat.le_of_succ_le_succ fits)
    simp only [punctuationExtent, parts]
  · have closed := @extent_settled ('"' :: part) rest new cut (literal rfl)
    simp only [List.cons_append] at closed
    simp only [punctuationExtent, closed]
  · exact punctuationExtent_hash_settled cut fits literal
  · simp only [punctuationExtent_period] at fits ⊢
    have dots : ['.', '.'] <+: part ++ new ↔ ['.', '.'] <+: part ++ rest :=
      mark_settled cut (by simp [separators]) (by simp [joins, isOperatorChar]) (fun h => by simp [h]) fits
    have angle : ['.', '<'] <+: part ++ new ↔ ['.', '<'] <+: part ++ rest :=
      mark_settled cut (by simp [separators]) (by simp [joins, isOperatorChar]) (fun h => by simp [h]) fits
    simp only [dots, angle]
  · exact punctuationExtent_less_settled slash cut fits whole
  · simp only [punctuationExtent_greater] at fits ⊢
    have equal : ['='] <+: part ++ new ↔ ['='] <+: part ++ rest :=
      mark_settled cut (by simp [separators]) (by simp [joins, isOperatorChar]) (fun h => by simp [h]) fits
    simp only [equal]
  · exact punctuationExtent_minus_settled slash cut fits whole
  · simp only [punctuationExtent_question] at fits ⊢
    have assigns : ['?', '='] <+: part ++ new ↔ ['?', '='] <+: part ++ rest :=
      mark_settled cut (by simp [separators]) (by simp [joins, isOperatorChar]) (fun h => by simp [h]) fits
    have twice : ['?'] <+: part ++ new ↔ ['?'] <+: part ++ rest :=
      mark_settled cut (by simp [separators]) (by simp [joins, isOperatorChar]) (fun h => by split <;> simp) fits
    simp only [assigns, twice]
  · simp only [punctuationExtent_exclamation] at fits ⊢
    have identical : ['=', '='] <+: part ++ new ↔ ['=', '='] <+: part ++ rest :=
      mark_settled cut (by simp [separators]) (by simp [joins, isOperatorChar]) (fun h => by simp [h]) fits
    have equal : ['='] <+: part ++ new ↔ ['='] <+: part ++ rest :=
      mark_settled cut (by simp [separators]) (by simp [joins, isOperatorChar]) (fun h => by split <;> simp) fits
    simp only [identical, equal]
  · simp only [punctuationExtent] at fits whole ⊢
    rw [operatorLength_settled slash cut rfl fits whole]

theorem tokenExtent_settled (c : Char) (cut : Cut (c :: part) new)
    (fits : (tokenExtent (c :: (part ++ rest))).2 ≤ part.length + 1)
    (whole : part.drop ((tokenExtent (c :: (part ++ rest))).2 - 1) = ['/'] →
      opensComment ('/' :: rest) = false)
    (quote : c = '`' → Text.Halts new ∨ backquotedTail? (part ++ rest) ≠ none)
    (literal : (tokenExtent (c :: (part ++ rest))).1 = .stringLiteral →
      (StringLiteral.extent (c :: (part ++ rest))).Within (c :: part) rest new) :
    tokenExtent (c :: (part ++ new)) = tokenExtent (c :: (part ++ rest)) := by
  simp only [tokenExtent] at fits whole literal ⊢
  split
  · rename_i start
    rw [if_pos start] at fits
    exact @settles_wordExtent (c :: part) rest new cut fits
  rename_i start
  rw [if_neg start] at fits whole literal
  split
  · rename_i digit
    rw [if_pos digit] at fits
    exact @settles_numberExtent (c :: part) rest new cut fits
  · rename_i digit
    rw [if_neg digit] at fits whole literal
    exact punctuationExtent_settled slash c cut fits whole quote literal

end

theorem length_comment_settled (c : Char)
    (fits : Comment.length (c :: (part ++ rest)) ≤ part.length + 1)
    (filled : Comment.length (c :: (part ++ rest)) = part.length + 1 → rest ≠ [])
    (some : 0 < Comment.length (c :: (part ++ rest))) :
    Comment.length (c :: (part ++ new)) = Comment.length (c :: (part ++ rest)) := by
  unfold Comment.length at fits filled some ⊢
  cases found : Comment.extent (c :: (part ++ rest)) with
  | closed length =>
    rw [found] at fits some
    have same : Comment.extent (c :: (part ++ new)) = .closed length :=
      @Comment.extent_append (c :: part) rest new length some found fits
    rw [same]
  | unclosed depth =>
    -- such a comment runs to the end, which is not in the first part
    rw [found] at fits filled
    simp only [List.length_cons, List.length_append] at fits filled
    have more : 0 < rest.length := List.length_pos_iff.mpr (filled (by omega))
    omega

theorem take_settled {c : Char} {length : Nat} (short : length ≤ part.length + 1) :
    (c :: (part ++ new)).take length = (c :: (part ++ rest)).take length := by
  have within (more : List Char) : (c :: (part ++ more)).take length = (c :: part).take length :=
    @List.take_append_of_le_length _ (c :: part) more length short
  rw [within, within]

/-- The mark at the start of a comment is settled if it is part of the comment. -/
theorem opening_settled {a b c : Char}
    (long : [a, b] <+: c :: (part ++ rest) → 2 ≤ part.length + 1)
    (apart : part = [] → ¬[a, b] <+: c :: new) :
    [a, b] <+: c :: (part ++ new) ↔ [a, b] <+: c :: (part ++ rest) := by
  cases part with
  | nil => exact ⟨fun h => absurd h (apart rfl), fun h => absurd (long h) (by decide)⟩
  | cons d part => simp only [List.cons_append, List.cons_prefix_cons, List.nil_prefix]

theorem not_opening_of_slash {c d : Char}
    (slash : (c :: part).getLast? = some '/' → opensComment ('/' :: new) = false)
    (opens : d = '/' ∨ d = '*') (empty : part = []) : ¬['/', d] <+: c :: new := by
  rintro ⟨more, equation⟩
  obtain ⟨rfl, rfl⟩ := List.cons.inj equation
  have plain : opensComment ('/' :: d :: more) = false := slash (by rw [empty]; rfl)
  rw [opensComment_cons_cons] at plain
  obtain rfl | rfl := opens <;> cases plain

/-- A line break that is not all of the first part is settled, since its second character is
known. -/
theorem triviaExtent?_settled_of_isLineBreak {atStart : Bool} {c : Char} (line : Text.isLineBreak c)
    (fits : ∀ kind length, triviaExtent? atStart (c :: (part ++ rest)) = some (kind, length) →
      length ≤ part.length + 1)
    (more : triviaExtent? atStart (c :: (part ++ rest)) ≠ some (.newline, part.length + 1)) :
    triviaExtent? atStart (c :: (part ++ new)) = triviaExtent? atStart (c :: (part ++ rest)) := by
  cases part with
  | nil =>
    rw [List.nil_append] at fits more
    obtain rfl | rfl := Text.isLineBreak_iff.mp line
    · exact absurd rfl more
    · by_cases joined : rest.head? == some '\n'
      · have two : triviaExtent? atStart ('\r' :: rest) = some (.newline, 2) := by
          simp [triviaExtent?, isSpace, joined]
        exact absurd (fits _ _ two) (by simp)
      · have one : triviaExtent? atStart ('\r' :: rest) = some (.newline, 1) := by
          simp [triviaExtent?, isSpace, joined, Text.isLineBreak]
        exact absurd one more
  | cons d part =>
    obtain rfl | rfl := Text.isLineBreak_iff.mp line <;> rfl

/-- Trivia is settled, and so is that there is none. -/
theorem triviaExtent?_settled (atStart : Bool) (c : Char) (cut : Cut (c :: part) new)
    (slash : (c :: part).getLast? = some '/' → opensComment ('/' :: new) = false)
    (fits : ∀ kind length, triviaExtent? atStart (c :: (part ++ rest)) = some (kind, length) →
      length ≤ part.length + 1)
    (ends : ∀ kind, triviaExtent? atStart (c :: (part ++ rest)) = some (kind, part.length + 1) →
      kind ≠ .newline ∧ rest ≠ [] ∧ Text.Halts new) :
    triviaExtent? atStart (c :: (part ++ new)) = triviaExtent? atStart (c :: (part ++ rest)) := by
  have run {p : Char → Bool} {kind : TriviaKind} (plain : ∀ c, Text.isLineBreak c → p c = false)
      (found : triviaExtent? atStart (c :: (part ++ rest)) =
        some (kind, runLength p (c :: (part ++ rest)))) :
      runLength p (c :: (part ++ new)) = runLength p (c :: (part ++ rest)) := by
    refine @runLength_settled p (c :: part) rest new (fits _ _ found) fun all d first => ?_
    have all : runLength p (c :: (part ++ rest)) = part.length + 1 := all
    rw [all] at found
    exact plain d ((ends kind found).2.2 d first)
  have closed {d : Char} (opens : d = '/' ∨ d = '*') := not_opening_of_slash slash opens
  by_cases space : isSpace c
  · have blank := triviaExtent?_of_isSpace space atStart (part ++ rest)
    rw [blank, triviaExtent?_of_isSpace space, run _ blank]
    exact fun c h => by obtain rfl | rfl := Text.isLineBreak_iff.mp h <;> rfl
  by_cases line : Text.isLineBreak c
  · exact triviaExtent?_settled_of_isLineBreak line fits fun all => (ends .newline all).1 rfl
  by_cases slashes : ['/', '/'] <+: c :: (part ++ rest)
  · have comment := triviaExtent?_of_slashes atStart slashes
    have slashes' := (opening_settled (fun _ => Nat.le_trans (two_le_runLength slashes rfl rfl)
      (fits _ _ comment)) (closed (.inl rfl))).mpr slashes
    rw [comment, triviaExtent?_of_slashes atStart slashes', run (by simp) comment,
      take_settled (fits _ _ comment)]
  by_cases star : ['/', '*'] <+: c :: (part ++ rest)
  · have comment := triviaExtent?_of_slash_star atStart star
    have long := two_le_length_comment star
    have star' :=
      (opening_settled (fun _ => Nat.le_trans long (fits _ _ comment)) (closed (.inr rfl))).mpr star
    have same : Comment.length (c :: (part ++ new)) = Comment.length (c :: (part ++ rest)) :=
      length_comment_settled c (fits _ _ comment)
        (fun all => (ends _ (by rw [comment, all])).2.1) (Nat.lt_of_lt_of_le Nat.two_pos long)
    rw [comment, triviaExtent?_of_slash_star atStart star', same, take_settled (fits _ _ comment)]
  have slashes' : ¬['/', '/'] <+: c :: (part ++ new) := by
    rwa [opening_settled (fun h => absurd h slashes) (closed (.inl rfl))]
  have star' : ¬['/', '*'] <+: c :: (part ++ new) := by
    rwa [opening_settled (fun h => absurd h star) (closed (.inr rfl))]
  have apart (empty : part = []) : ¬['#', '!'] <+: c :: new := by
    rintro ⟨more, equation⟩
    obtain ⟨rfl, rfl⟩ := List.cons.inj equation
    rw [empty] at cut
    exact @Cut.not_prefix ['#'] ['!'] [] _ cut (by simp [separators]) (by simp [joins, isOperatorChar])
      '!' rfl (List.prefix_refl _)
  by_cases hash : atStart = true ∧ ['#', '!'] <+: c :: (part ++ rest)
  · obtain ⟨rfl, hash⟩ := hash
    have comment := triviaExtent?_of_hash hash
    have hash' := (opening_settled (fun _ => Nat.le_trans (two_le_runLength hash rfl rfl)
      (fits _ _ comment)) apart).mpr hash
    rw [comment, triviaExtent?_of_hash hash', run (by simp) comment]
  · have hash' : ¬(atStart = true ∧ ['#', '!'] <+: c :: (part ++ new)) := by
      rintro ⟨rfl, found⟩
      have plain : ¬['#', '!'] <+: c :: (part ++ rest) := fun h => hash ⟨rfl, h⟩
      exact plain ((opening_settled (fun h => absurd h plain) apart).mp found)
    rw [triviaExtent?_eq_none space line slashes star hash,
      triviaExtent?_eq_none space line slashes' star' hash']

end

theorem runLength_le (p : Char → Bool) (cs : List Char) : runLength p cs ≤ cs.length :=
  (List.takeWhile_sublist p).length_le

theorem markedDigits_le (mark : Nat) (cs : List Char) :
    markedDigits mark cs ≤ cs.length + mark := by
  cases cs with
  | nil => exact Nat.zero_le _
  | cons d cs =>
    rw [markedDigits]
    split
    · exact Nat.add_le_add_right (runLength_le _ _) mark
    · exact Nat.zero_le _

theorem fractionLength_le (cs : List Char) : fractionLength cs ≤ cs.length := by
  by_cases point : cs.head? = some '.'
  · obtain ⟨rest, rfl⟩ := List.head?_eq_some_iff.mp point
    rw [fractionLength_point]
    exact markedDigits_le 1 rest
  · rw [fractionLength_of_ne point]
    exact Nat.zero_le _

theorem exponentLength_le (cs : List Char) : exponentLength cs ≤ cs.length := by
  unfold exponentLength
  split
  · rename_i e sign d cs
    have digits := runLength_le isDigitPart (d :: cs)
    have all := runLength_le isDigitPart (sign :: d :: cs)
    simp only [List.length_cons] at digits all ⊢
    split
    · split
      · omega
      · split <;> omega
    · omega
  · split <;> simp
  · exact Nat.zero_le _

theorem length_numberExtent_le (cs : List Char) : (numberExtent cs).2 ≤ cs.length := by
  unfold numberExtent
  split
  · rename_i base
    unfold hasBase at base
    split at base
    · exact Nat.add_le_add_right (runLength_le _ _) 2
    · cases base
  · have whole := runLength_le isDigitPart cs
    have fraction := fractionLength_le (cs.drop (runLength isDigitPart cs))
    have exponent := exponentLength_le (cs.drop (runLength isDigitPart cs +
      fractionLength (cs.drop (runLength isDigitPart cs))))
    rw [List.length_drop] at fraction exponent
    dsimp only
    omega

theorem operatorLength_le (cs : List Char) : operatorLength cs ≤ cs.length + 1 := by
  have tail : operatorTail cs ≤ cs.length := by
    induction cs with
    | nil => exact Nat.le_refl 0
    | cons c cs ih =>
      rw [operatorTail]
      split
      · exact Nat.zero_le _
      · exact Nat.succ_le_succ ih
  exact Nat.succ_le_succ tail

theorem le_length_of_backquotedTail? {cs : List Char} {length : Nat}
    (h : backquotedTail? cs = some length) : length ≤ cs.length := by
  induction cs generalizing length with
  | nil => cases h
  | cons c cs ih =>
    rw [backquotedTail?] at h
    split at h
    · cases h
      exact Nat.le_add_left 1 cs.length
    split at h
    · cases h
    · obtain ⟨inner, found, rfl⟩ := Option.map_eq_some_iff.mp h
      exact Nat.succ_le_succ (ih found)

theorem length_punctuationExtent_le (c : Char) (cs : List Char) :
    (punctuationExtent c cs).2 ≤ cs.length + 1 := by
  unfold punctuationExtent
  split
  case h_1 =>
    split
    · rename_i length found
      exact Nat.succ_le_succ (le_length_of_backquotedTail? found)
    · exact Nat.le_add_left 1 cs.length
  case h_2 => exact Nat.succ_le_succ (runLength_le _ _)
  case h_3 => exact StringLiteral.length_extent_le rfl
  case h_4 =>
    split
    · rename_i quote
      exact StringLiteral.length_extent_le (by simpa using quote)
    · exact Nat.le_add_left 1 cs.length
  case h_31 => exact operatorLength_le cs
  case h_32 =>
    split
    · exact operatorLength_le cs
    · exact Nat.le_add_left 1 cs.length
  all_goals first | exact operatorLength_le _ | simp

theorem length_tokenExtent_le (cs : List Char) : (tokenExtent cs).2 ≤ cs.length := by
  cases cs with
  | nil => exact Nat.le_refl 0
  | cons c cs =>
    rw [tokenExtent]
    split
    · exact runLength_le _ _
    split
    · exact length_numberExtent_le _
    · exact length_punctuationExtent_le c cs

theorem le_length_of_triviaExtent? {atStart : Bool} {cs : List Char} {kind : TriviaKind}
    {length : Nat} (h : triviaExtent? atStart cs = some (kind, length)) : length ≤ cs.length := by
  cases cs with
  | nil => cases h
  | cons c cs =>
    simp only [triviaExtent?, Bool.and_eq_true, beq_iff_eq] at h
    split at h
    · cases h
      exact runLength_le _ _
    split at h
    · rename_i joined
      cases h
      obtain ⟨rest, rfl⟩ := List.head?_eq_some_iff.mp joined.2
      exact Nat.le_add_left 2 rest.length
    split at h
    · cases h
      exact Nat.le_add_left 1 cs.length
    split at h
    · cases h
      exact runLength_le _ _
    split at h
    · cases h
      exact Comment.length_le _
    split at h
    · cases h
      exact runLength_le _ _
    · cases h

/-- A lexeme is not longer than the text that it begins. -/
theorem length_lexeme_le (atStart : Bool) (cs : List Char) :
    (lexeme atStart cs).2 ≤ cs.length := by
  unfold lexeme
  split
  · rename_i found
    exact le_length_of_triviaExtent? found
  · exact length_tokenExtent_le cs

namespace Lexeme

def isNewline : Lexeme → Bool
  | .piece trivia => trivia.isNewline
  | .token _ _ => false

/-- Whether a lexeme is a backquote that no other one follows on its line. -/
def isBackquote : Lexeme → Bool
  | .piece _ => false
  | .token _ text => text == "`"

/-- Whether a lexeme is a token, and not a literal that is cut off. -/
def isShut : Lexeme → Bool
  | .piece _ => false
  | .token kind text => kind != .stringLiteral || StringLiteral.isClosed text.toList

end Lexeme

/-- What is read as a string literal begins as one, and is as long as one. -/
theorem tokenExtent_eq_stringLiteral {c : Char} {cs : List Char}
    (h : (tokenExtent (c :: cs)).1 = .stringLiteral) :
    ((c :: cs).dropWhile (· == '#')).head? = some '"' ∧
      (tokenExtent (c :: cs)).2 = (StringLiteral.extent (c :: cs)).length := by
  rw [tokenExtent] at h ⊢
  split at h
  · unfold wordExtent at h
    dsimp only at h
    split at h <;> cases h
  rename_i start
  rw [if_neg start]
  split at h
  · unfold numberExtent at h
    split at h
    · cases h
    · dsimp only at h
      split at h <;> cases h
  rename_i digit
  rw [if_neg digit]
  unfold punctuationExtent at h ⊢
  split at h
  case h_1 => split at h <;> cases h
  case h_3 => exact ⟨rfl, rfl⟩
  case h_4 =>
    split at h
    · rename_i quote
      rw [if_pos quote]
      exact ⟨by simpa using quote, rfl⟩
    · cases h
  case h_31 => split at h <;> cases h
  case h_32 => split at h <;> cases h
  all_goals cases h

/-- A lone backquote is a token of its own. -/
theorem lexeme_of_backquotedTail? {atStart : Bool} {cs : List Char}
    (h : backquotedTail? cs = none) : lexeme atStart ('`' :: cs) = (.token .unknown "`", 1) := by
  have start : isIdentifierStart '`' = false := by decide +kernel
  simp [lexeme, triviaExtent?, isSpace, Text.isLineBreak, tokenExtent, start, punctuationExtent, h]

/-- A literal lies in the first part of a text if it is closed there, or halted by what follows. -/
theorem within_of_tokenExtent {part rest new : List Char} {c : Char}
    (kind : (tokenExtent (c :: (part ++ rest))).1 = .stringLiteral)
    (fits : (tokenExtent (c :: (part ++ rest))).2 ≤ part.length + 1)
    (ends : (tokenExtent (c :: (part ++ rest))).2 = part.length + 1 →
      StringLiteral.isClosed ((c :: (part ++ rest)).take (tokenExtent (c :: (part ++ rest))).2) ∨
        rest ≠ [] ∧ Text.Halts new) :
    (StringLiteral.extent (c :: (part ++ rest))).Within (c :: part) rest new := by
  obtain ⟨opens, size⟩ := tokenExtent_eq_stringLiteral kind
  have same := StringLiteral.extent_take opens
  simp only [size, StringLiteral.isClosed, same] at fits ends
  cases extent : StringLiteral.extent (c :: (part ++ rest)) with
  | closed length =>
    rw [extent] at fits
    exact fits
  | cut length =>
    rw [extent] at fits ends
    obtain inside | all := Nat.lt_or_eq_of_le fits
    · exact .inl inside
    · obtain shut | ⟨filled, halts⟩ := ends all
      · cases shut
      · exact .inr ⟨fits, filled, halts⟩

/-- A lexeme that lies in the first part of a text is still read when the rest is exchanged. -/
theorem lexeme_settled {part rest new : List Char} (atStart : Bool) (c : Char)
    (cut : Cut (c :: part) new) (slash : (c :: part).getLast? = some '/' → opensComment ('/' :: new) = false)
    (fits : (lexeme atStart (c :: (part ++ rest))).2 ≤ part.length + 1)
    (whole : part.drop ((lexeme atStart (c :: (part ++ rest))).2 - 1) = ['/'] →
      opensComment ('/' :: rest) = false)
    (quote : Text.Halts new ∨ (lexeme atStart (c :: (part ++ rest))).1.isBackquote = false)
    (ends : (lexeme atStart (c :: (part ++ rest))).2 = part.length + 1 →
      (lexeme atStart (c :: (part ++ rest))).1.isShut ∨
        (lexeme atStart (c :: (part ++ rest))).1.isNewline = false ∧ rest ≠ [] ∧ Text.Halts new) :
    lexeme atStart (c :: (part ++ new)) = lexeme atStart (c :: (part ++ rest)) := by
  have trivia : triviaExtent? atStart (c :: (part ++ new)) =
      triviaExtent? atStart (c :: (part ++ rest)) := by
    apply triviaExtent?_settled atStart c cut slash
    · intro kind length found
      simpa only [lexeme, found] using fits
    · intro kind found
      obtain shut | ⟨apart, filled, halts⟩ := ends (by simp only [lexeme, found])
      · simp only [lexeme, found] at shut
        cases shut
      · refine ⟨?_, filled, halts⟩
        rintro rfl
        simp [lexeme, found, Lexeme.isNewline, Piece.isNewline] at apart
  cases found : triviaExtent? atStart (c :: (part ++ rest)) with
  | some extent =>
    unfold lexeme at fits ⊢
    simp only [trivia, found] at fits ⊢
    rw [take_settled fits]
  | none =>
    have read : lexeme atStart (c :: (part ++ rest)) =
        (.token (tokenExtent (c :: (part ++ rest))).1
          (String.ofList ((c :: (part ++ rest)).take (tokenExtent (c :: (part ++ rest))).2)),
          (tokenExtent (c :: (part ++ rest))).2) := by
      simp only [lexeme, found]
    have lone : c = '`' → Text.Halts new ∨ backquotedTail? (part ++ rest) ≠ none := by
      rintro rfl
      refine quote.imp id fun other none => ?_
      rw [lexeme_of_backquotedTail? none] at other
      cases other
    rw [read] at fits whole ends
    have literal (kind : (tokenExtent (c :: (part ++ rest))).1 = .stringLiteral) :
        (StringLiteral.extent (c :: (part ++ rest))).Within (c :: part) rest new := by
      refine within_of_tokenExtent kind fits fun all => ?_
      obtain shut | ⟨-, filled, halts⟩ := ends all
      · exact .inl (by simpa [Lexeme.isShut, kind] using shut)
      · exact .inr ⟨filled, halts⟩
    have behind : part.getLast? = some '/' → opensComment ('/' :: new) = false := fun last =>
      slash (by simp [List.getLast?_cons, last])
    rw [read]
    unfold lexeme
    simp only [trivia, found]
    rw [tokenExtent_settled behind c cut fits whole lone literal, take_settled fits]

end SwiftTree.Lexer
