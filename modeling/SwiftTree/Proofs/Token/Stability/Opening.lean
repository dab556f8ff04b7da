import SwiftTree.Proofs.Token.Escapes
import SwiftTree.Proofs.Token.Stability.Run

/-!
# In front of a comment or a literal

Where a comment or a literal opens, the lexeme in front of it has ended. So what is read in front of
it does not depend on what follows its opening: the lexemes there stay the same when the rest of the
text is exchanged for any other one with the same opening. The only lexemes that look further are
backquotes, which search their line for another one.
-/

namespace SwiftTree

namespace StringLiteral

open Lexer (separates_nil separates_of_halts)

theorem length_closing_le_of_bodyExtent_eq_closed {d : Delimiter} {skipped length : Nat}
    {cs : List Char} (h : bodyExtent d skipped cs = .closed length) :
    d.closing.length ≤ length := by
  induction cs generalizing skipped length with
  | nil => cases skipped <;> cases h
  | cons c cs ih =>
    have later {skipped : Nat} (h : (bodyExtent d skipped cs).add 1 = .closed length) :
        d.closing.length ≤ length := by
      obtain ⟨inner, found, rfl⟩ := Extent.add_eq_closed_iff.mp h
      exact Nat.le_succ_of_le (ih found)
    cases skipped with
    | succ skipped => exact later h
    | zero =>
      rw [bodyExtent] at h
      split at h
      · cases h
        exact Nat.le_refl _
      split at h
      · exact later h
      split at h
      · cases h
      · exact later h

/-- What can follow a literal that is not closed: nothing, or a line break if the literal is to stay
on its line. -/
def Delimiter.Stops (d : Delimiter) (rest : List Char) : Prop :=
  rest = [] ∨ d.multiline = false ∧ Text.Halts rest

theorem Delimiter.Stops.halts {d : Delimiter} {rest : List Char} (h : d.Stops rest) :
    Text.Halts rest := by
  obtain rfl | ⟨-, halts⟩ := h
  · exact Text.halts_nil
  · exact halts

theorem stops_drop_of_bodyExtent_eq_cut {d : Delimiter} {skipped length : Nat} {cs : List Char}
    (h : bodyExtent d skipped cs = .cut length) : d.Stops (cs.drop length) := by
  induction cs generalizing skipped length with
  | nil => exact .inl List.drop_nil
  | cons c cs ih =>
    have later {skipped : Nat} (h : (bodyExtent d skipped cs).add 1 = .cut length) :
        d.Stops ((c :: cs).drop length) := by
      obtain ⟨inner, found, rfl⟩ := Extent.add_eq_cut_iff.mp h
      exact ih found
    cases skipped with
    | succ skipped => exact later h
    | zero =>
      rw [bodyExtent] at h
      split at h
      · cases h
      split at h
      · exact later h
      split at h
      · rename_i breaks
        cases h
        rw [Bool.and_eq_true, Bool.not_eq_true'] at breaks
        exact .inr ⟨breaks.1, Text.Breaks.halts ⟨c, cs, rfl, breaks.2⟩⟩
      · exact later h

theorem Delimiter.length_escape_le_length_closing (d : Delimiter) :
    d.escape.length ≤ d.closing.length := by
  rw [d.length_escape]
  unfold closing quotes
  split <;> simp

/-- A closed literal is closed whatever follows it. -/
theorem bodyExtent_append_of_closed {d : Delimiter} {skipped length : Nat} {part : List Char}
    (new : List Char) (h : bodyExtent d skipped part = .closed length) :
    bodyExtent d skipped (part ++ new) = .closed length := by
  induction part generalizing skipped length with
  | nil => cases skipped <;> cases h
  | cons c part ih =>
    cases skipped with
    | succ skipped =>
      obtain ⟨inner, found, rfl⟩ := Extent.add_eq_closed_iff.mp h
      rw [List.cons_append, bodyExtent, ih found]
      rfl
    | zero =>
      -- a mark that is complete only behind the first part is longer than the rest of the literal
      have within {mark : List Char} (short : mark.length ≤ d.closing.length) {skipped inner : Nat}
          (found : bodyExtent d skipped part = .closed inner) (other : ¬mark <+: c :: part) :
          ¬mark <+: c :: (part ++ new) := by
        intro marks
        refine other (List.prefix_of_prefix_length_le marks (List.prefix_append (c :: part) new) ?_)
        have size := length_bodyExtent_le d skipped part
        rw [found] at size
        exact Nat.le_succ_of_le (short.trans
          ((length_closing_le_of_bodyExtent_eq_closed found).trans size))
      have still {mark : List Char} (marks : mark <+: c :: part) : mark <+: c :: (part ++ new) :=
        marks.trans (List.prefix_append (c :: part) new)
      rw [bodyExtent_cons] at h
      rw [List.cons_append, bodyExtent_cons]
      split at h
      · rename_i closes
        rw [if_pos (still closes), h]
      rename_i closes
      split at h
      · rename_i escapes
        obtain ⟨inner, found, rfl⟩ := Extent.add_eq_closed_iff.mp h
        have size := length_bodyExtent_le d
          (d.hashes + escapedLength d.multiline (part.drop d.hashes)) part
        rw [found] at size
        have inside := Nat.lt_of_lt_of_le (skipped_lt_of_bodyExtent_eq_closed found) size
        have room : d.hashes ≤ part.length := by omega
        have same : escapedLength d.multiline ((part ++ new).drop d.hashes) =
            escapedLength d.multiline (part.drop d.hashes) := by
          have settled := @escapedLength_settled d.multiline (part.drop d.hashes) [] new
          rw [List.append_nil] at settled
          rw [List.drop_append_of_le_length room]
          exact settled (.inl (by rw [List.length_drop]; omega))
        rw [if_neg (within (Nat.le_refl _) found closes),
          if_pos (still escapes), same, ih found]
        rfl
      rename_i escapes
      split at h
      · cases h
      · rename_i goes
        obtain ⟨inner, found, rfl⟩ := Extent.add_eq_closed_iff.mp h
        rw [if_neg (within (Nat.le_refl _) found closes),
          if_neg (within d.length_escape_le_length_closing found escapes), if_neg goes, ih found]
        rfl

/-- A literal that ends in a first part of a text, and not because the line ends there, is closed in
it or cut off in it. Either way what follows has no bearing on it. -/
theorem bodyExtent_reopened {d : Delimiter} {skipped : Nat} {part rest : List Char}
    (plain : ¬Text.Halts rest) (fits : (bodyExtent d skipped (part ++ rest)).length ≤ part.length)
    (new : List Char) :
    bodyExtent d skipped (part ++ new) = bodyExtent d skipped (part ++ rest) := by
  cases found : bodyExtent d skipped (part ++ rest) with
  | closed length =>
    rw [found] at fits
    have alone := @bodyExtent_settled d skipped part rest [] (fun _ => .inl separates_nil)
    rw [found, List.append_nil] at alone
    exact bodyExtent_append_of_closed new (alone fits)
  | cut length =>
    have fits : length ≤ part.length := by rwa [found] at fits
    have halts := (stops_drop_of_bodyExtent_eq_cut found).halts
    rw [List.drop_append_of_le_length fits] at halts
    cases left : part.drop length with
    | nil =>
      rw [left, List.nil_append] at halts
      exact absurd halts plain
    | cons b more =>
      have halts : Text.Halts (b :: more ++ new) := by simpa [left, Text.Halts] using halts
      have size : (part.take length).length = length := List.length_take_of_le fits
      have parts (tail : List Char) : part ++ tail = part.take length ++ (b :: more ++ tail) := by
        rw [← left, ← List.append_assoc, List.take_append_drop]
      rw [parts] at found
      rw [parts, ← found]
      apply bodyExtent_settled fun _ => .inl (separates_of_halts halts)
      rw [found]
      exact .inr ⟨Nat.le_of_eq size.symm, List.cons_ne_nil _ _, halts⟩

/-- The first character of what follows decides whether two quotes are an empty literal or the
beginning of three quotes. -/
theorem delimiter_reopened {part rest new : List Char} (same : new.head? = rest.head?)
    (long : (delimiter (part ++ rest)).openingLength < part.length)
    (opens : ((part ++ rest).dropWhile (· == '#')).head? = some '"') :
    delimiter (part ++ new) = delimiter (part ++ rest) := by
  obtain ⟨hashes, body, equation⟩ := opens_iff.mp opens
  rw [equation, delimiter_eq] at long ⊢
  have size : hashes + 1 < part.length := by
    refine Nat.lt_of_le_of_lt ?_ long
    unfold Delimiter.openingLength Delimiter.quotes
    split <;> simp
  have starts : List.replicate hashes '#' ++ ['"'] <+: part := by
    have whole : List.replicate hashes '#' ++ ['"'] <+: part ++ rest := by
      rw [equation]
      exact (List.prefix_append_right_inj _).mpr (List.prefix_append ['"'] body)
    refine List.prefix_of_prefix_length_le whole (List.prefix_append _ _) ?_
    simpa using Nat.le_of_lt size
  obtain ⟨inner, rfl⟩ := starts
  have split (tail : List Char) : List.replicate hashes '#' ++ ['"'] ++ inner ++ tail =
      List.replicate hashes '#' ++ '"' :: (inner ++ tail) := by simp
  rw [split] at equation ⊢
  obtain ⟨-, rfl⟩ := List.cons.inj (List.append_cancel_left equation)
  rw [delimiter_eq, Delimiter.mk.injEq, Bool.eq_iff_iff, List.isPrefixOf_iff_prefix,
    List.isPrefixOf_iff_prefix]
  refine ⟨rfl, ?_⟩
  match inner with
  | [] => simp at size
  | [y] =>
    have quote (tail : List Char) : ['"'] <+: tail ↔ tail.head? = some '"' := by
      cases tail <;> simp [List.cons_prefix_cons, eq_comm]
    simp only [List.singleton_append, List.cons_prefix_cons, quote, same]
  | y :: z :: inner => simp [List.cons_prefix_cons]

theorem extent_reopened {part rest new : List Char} (same : new.head? = rest.head?)
    (plain : ¬Text.Halts rest) (opens : ((part ++ rest).dropWhile (· == '#')).head? = some '"')
    (fits : (extent (part ++ rest)).length ≤ part.length) :
    extent (part ++ new) = extent (part ++ rest) := by
  rw [extent, Extent.length_add] at fits
  have room : (delimiter (part ++ rest)).openingLength ≤ part.length := by omega
  rw [List.drop_append_of_le_length room] at fits
  have body : (bodyExtent (delimiter (part ++ rest)) 0
      (part.drop (delimiter (part ++ rest)).openingLength ++ rest)).length ≤
        (part.drop (delimiter (part ++ rest)).openingLength).length := by
    rw [List.length_drop]
    omega
  have long : (delimiter (part ++ rest)).openingLength < part.length := by
    refine Nat.lt_of_le_of_ne room fun all => ?_
    rw [all, List.drop_length, List.nil_append, List.length_nil, Nat.le_zero] at body
    have filled : rest ≠ [] := fun empty => plain (empty ▸ Text.halts_nil)
    obtain ⟨-, -, cut⟩ := bodyExtent_of_length_eq_zero filled body
    exact plain (stops_drop_of_bodyExtent_eq_cut cut).halts
  rw [extent, extent, delimiter_reopened same long opens, List.drop_append_of_le_length room,
    List.drop_append_of_le_length room, bodyExtent_reopened plain body]

end StringLiteral

namespace Lexer

/-- What a comment or a literal opens with. -/
inductive IsOpening : List Char → Prop
  | comment : IsOpening ['/', '*']
  | literal (hashes : Nat) : IsOpening (List.replicate hashes '#' ++ ['"'])

/-- The first characters of comments and literals. -/
def openers : List Char :=
  ['/', '"', '#']

theorem IsOpening.exists_eq_cons {front : List Char} (h : IsOpening front) :
    ∃ c tail, front = c :: tail ∧ c ∈ openers := by
  cases h with
  | comment => exact ⟨'/', ['*'], rfl, by simp [openers]⟩
  | literal hashes =>
    cases hashes with
    | zero => exact ⟨'"', [], rfl, by simp [openers]⟩
    | succ hashes => exact ⟨'#', _, rfl, by simp [openers]⟩

/-- A run of characters in a first part goes on or stops at the first character that follows. -/
theorem runLength_reopened {p : Char → Bool} {part rest new : List Char}
    (same : new.head? = rest.head?) (filled : rest ≠ [])
    (fits : runLength p (part ++ rest) ≤ part.length) :
    runLength p (part ++ new) = runLength p (part ++ rest) := by
  induction part with
  | nil =>
    obtain ⟨c, rest, rfl⟩ := List.exists_cons_of_ne_nil filled
    obtain ⟨new, rfl⟩ := List.head?_eq_some_iff.mp same
    simp only [List.nil_append, runLength_cons, List.length_nil, Nat.le_zero] at fits ⊢
    split
    · rename_i here
      rw [if_pos here] at fits
      cases fits
    · rfl
  | cons c part ih =>
    simp only [List.cons_append, runLength_cons, List.length_cons] at fits ih ⊢
    split
    · rename_i here
      rw [if_pos here, Nat.add_le_add_iff_right] at fits
      rw [ih fits]
    · rfl

theorem runLength_append_of_stops {p : Char → Bool} {rest : List Char}
    (stops : ∀ c ∈ rest.head?, p c = false) (part : List Char) :
    runLength p (part ++ rest) = runLength p part := by
  induction part with
  | nil => exact runLength_eq_zero stops
  | cons c part ih => rw [List.cons_append, runLength_cons, runLength_cons, ih]

/-- A mark is not completed by a character that it does not have. -/
theorem prefix_append_iff {mark rest : List Char} (other : ∀ c ∈ rest.head?, c ∉ mark)
    (part : List Char) : mark <+: part ++ rest ↔ mark <+: part := by
  refine ⟨fun h => ?_, fun h => h.trans (List.prefix_append _ _)⟩
  obtain inside | ⟨more, rfl⟩ := List.prefix_or_prefix_of_prefix h (List.prefix_append _ _)
  · exact inside
  rw [List.prefix_append_right_inj] at h
  cases more with
  | nil => simp
  | cons c more =>
    obtain ⟨tail, rfl⟩ := h
    exact absurd (by simp) (other c rfl)

section

variable {rest : List Char} (opens : ∀ c ∈ rest.head?, c ∈ openers)

include opens

theorem markedDigits_append (mark : Nat) (part : List Char) :
    markedDigits mark (part ++ rest) = markedDigits mark part := by
  have plain : ∀ c ∈ openers, c.isDigit = false ∧ isDigitPart c = false := by
    simp [openers, isDigitPart]
  cases part with
  | nil =>
    cases rest with
    | nil => rfl
    | cons c rest =>
      have none : markedDigits mark (c :: rest) = 0 := by
        rw [markedDigits, (plain c (opens c rfl)).1, if_neg Bool.false_ne_true]
      exact none
  | cons d part =>
    have digits := runLength_append_of_stops (p := isDigitPart)
      (fun c first => (plain c (opens c first)).2) (d :: part)
    rw [List.cons_append] at digits ⊢
    rw [markedDigits, markedDigits, digits]

theorem fractionLength_append (part : List Char) :
    fractionLength (part ++ rest) = fractionLength part := by
  cases part with
  | nil =>
    have other : rest.head? ≠ some '.' := fun point => absurd (opens '.' point) (by simp [openers])
    rw [List.nil_append, fractionLength_of_ne other]
    rfl
  | cons c part =>
    by_cases point : c = '.'
    · subst point
      rw [List.cons_append, fractionLength_point, fractionLength_point, markedDigits_append opens]
    · have none (more : List Char) : fractionLength (c :: more) = 0 :=
        fractionLength_of_ne (by simpa using point)
      rw [List.cons_append, none, none]

theorem exponentLength_append (part : List Char) :
    exponentLength (part ++ rest) = exponentLength part := by
  have plain : ∀ c ∈ openers, (c == 'e' || c == 'E') = false ∧ isSign c = false := by
    simp [openers, isSign]
  cases part with
  | nil =>
    rw [List.nil_append, exponentLength_of_ne fun c first => (plain c (opens c first)).1]
    rfl
  | cons e part =>
    rw [List.cons_append]
    by_cases mark : e == 'e' || e == 'E'
    case neg =>
      have none (more : List Char) : exponentLength (e :: more) = 0 :=
        exponentLength_of_ne (by simpa using mark)
      rw [none, none]
    by_cases sign : ∃ s tail, part = s :: tail ∧ isSign s
    · obtain ⟨s, tail, rfl, sign⟩ := sign
      rw [List.cons_append, exponentLength_sign mark sign, exponentLength_sign mark sign,
        markedDigits_append opens]
    · rw [exponentLength_digits mark, exponentLength_digits mark, markedDigits_append opens]
      · intro s first
        obtain ⟨tail, rfl⟩ := List.head?_eq_some_iff.mp first
        simpa using fun here => sign ⟨s, tail, rfl, here⟩
      · intro s first
        cases part with
        | nil => exact (plain s (opens s first)).2
        | cons t tail =>
          obtain rfl := Option.some.inj first
          simpa using fun here => sign ⟨t, tail, rfl, here⟩

theorem hasBase_append (part : List Char) : hasBase (part ++ rest) = hasBase part := by
  have plain : ∀ c ∈ openers, c ≠ '0' ∧ isBase c = false := by simp [openers, isBase]
  obtain _ | ⟨c, _ | ⟨d, part⟩⟩ := part
  · obtain _ | ⟨b, _ | ⟨d, after⟩⟩ := rest
    · rfl
    · simp [hasBase]
    · obtain ⟨zero, -⟩ := plain b (opens b rfl)
      rw [List.nil_append, hasBase_cons_cons]
      simp [hasBase, zero]
  · obtain _ | ⟨b, after⟩ := rest
    · rfl
    · obtain ⟨-, base⟩ := plain b (opens b rfl)
      rw [List.singleton_append, hasBase_cons_cons, base]
      simp [hasBase]
  · rw [List.cons_append, List.cons_append, hasBase_cons_cons, hasBase_cons_cons]

/-- The whole part, the fraction and the exponent end in front of a comment or a literal as they do
at the end of the text. -/
theorem numberExtent_append (part : List Char) :
    numberExtent (part ++ rest) = numberExtent part := by
  have plain : ∀ c ∈ openers, isDigitPart c = false ∧ isHexDigitPart c = false := by
    simp [openers, isHexDigitPart, isDigitPart, Char.le_def]
  have cut {n : Nat} (h : n ≤ part.length) : (part ++ rest).drop n = part.drop n ++ rest :=
    List.drop_append_of_le_length h
  have digits : runLength isDigitPart (part ++ rest) = runLength isDigitPart part :=
    runLength_append_of_stops (fun c first => (plain c (opens c first)).1) part
  unfold numberExtent
  rw [hasBase_append opens]
  split
  · rename_i base
    have two : 2 ≤ part.length := by
      unfold hasBase at base
      split at base
      · simp
      · cases base
    rw [cut two, runLength_append_of_stops fun c first => (plain c (opens c first)).2]
  · have whole := runLength_le isDigitPart part
    have fraction := fractionLength_le (part.drop (runLength isDigitPart part))
    rw [List.length_drop] at fraction
    dsimp only
    rw [digits, cut whole, fractionLength_append opens, cut (by omega),
      exponentLength_append opens]

end

section

variable {front a b : List Char} (opening : IsOpening front)

include opening

theorem IsOpening.head? : (front ++ b).head? = (front ++ a).head? := by
  obtain ⟨c, tail, rfl, -⟩ := opening.exists_eq_cons
  rfl

theorem IsOpening.mem_openers : ∀ c ∈ (front ++ a).head?, c ∈ openers := by
  obtain ⟨c, tail, rfl, opener⟩ := opening.exists_eq_cons
  simpa using opener

theorem IsOpening.head?_dropWhile (part : List Char) :
    ((part ++ (front ++ b)).dropWhile (· == '#')).head? =
      ((part ++ (front ++ a)).dropWhile (· == '#')).head? := by
  induction part with
  | nil =>
    cases opening with
    | comment => rfl
    | literal hashes =>
      have quote (tail : List Char) :
          ((List.replicate hashes '#' ++ ['"'] ++ tail).dropWhile (· == '#')).head? = some '"' :=
        StringLiteral.opens_iff.mpr ⟨hashes, tail, List.append_assoc _ _ _⟩
      exact (quote b).trans (quote a).symm
  | cons c part ih =>
    rw [List.cons_append, List.cons_append, List.dropWhile_cons, List.dropWhile_cons]
    split
    · exact ih
    · rfl

theorem IsOpening.ne_nil : front ++ a ≠ [] := by
  obtain ⟨c, tail, rfl, -⟩ := opening.exists_eq_cons
  exact List.cons_ne_nil _ _

theorem IsOpening.not_halts : ¬Text.Halts (front ++ a) := by
  obtain ⟨c, tail, rfl, opener⟩ := opening.exists_eq_cons
  intro halts
  have breaks := halts c rfl
  simp only [openers, List.mem_cons, List.not_mem_nil, or_false] at opener
  obtain rfl | rfl | rfl := opener <;> cases breaks

theorem operatorTail_opening : operatorTail (front ++ a) = 0 := by
  cases opening with
  | comment => rfl
  | literal hashes => cases hashes <;> rfl

theorem operatorTail_reopened (part : List Char) :
    operatorTail (part ++ (front ++ b)) = operatorTail (part ++ (front ++ a)) := by
  induction part with
  | nil =>
    rw [List.nil_append, List.nil_append, operatorTail_opening opening,
      operatorTail_opening opening]
  | cons c part ih =>
    have same : opensComment (c :: (part ++ (front ++ b))) =
        opensComment (c :: (part ++ (front ++ a))) := by
      cases part with
      | cons d part => simp only [List.cons_append, opensComment_cons_cons]
      | nil =>
        obtain ⟨x, tail, rfl, -⟩ := opening.exists_eq_cons
        simp only [List.nil_append, List.cons_append, opensComment_cons_cons]
    rw [List.cons_append, List.cons_append, operatorTail, operatorTail, same, ih]

theorem operatorLength_reopened (part : List Char) :
    operatorLength (part ++ (front ++ b)) = operatorLength (part ++ (front ++ a)) :=
  congrArg (· + 1) (operatorTail_reopened opening part)

/-- No mark that continues a token has a part in an opening. -/
theorem mark_reopened (mark : List Char) (plain : ∀ c ∈ openers, c ∉ mark) (part : List Char) :
    mark <+: part ++ (front ++ b) ↔ mark <+: part ++ (front ++ a) := by
  rw [prefix_append_iff fun c first => plain c (opening.mem_openers c first),
    prefix_append_iff fun c first => plain c (opening.mem_openers c first)]

theorem punctuationExtent_hash_reopened {part : List Char}
    (fits : (punctuationExtent '#' (part ++ (front ++ a))).2 ≤ part.length + 1) :
    punctuationExtent '#' (part ++ (front ++ b)) =
      punctuationExtent '#' (part ++ (front ++ a)) := by
  have quoted := opening.head?_dropWhile (a := a) (b := b) part
  simp only [punctuationExtent, quoted] at fits ⊢
  split
  · rename_i literal
    rw [if_pos literal] at fits
    have closed := @StringLiteral.extent_reopened ('#' :: part) _ (front ++ b) opening.head?
      opening.not_halts (by simpa using literal) fits
    simp only [List.cons_append] at closed
    rw [closed]
  · rfl

/-- The cases follow the first character, as for what is settled by trivia. -/
theorem punctuationExtent_reopened (c : Char) {part : List Char}
    (fits : (punctuationExtent c (part ++ (front ++ a))).2 ≤ part.length + 1)
    (quote : backquotedTail? (part ++ (front ++ a)) = none →
      backquotedTail? (part ++ (front ++ b)) = none) :
    punctuationExtent c (part ++ (front ++ b)) = punctuationExtent c (part ++ (front ++ a)) := by
  have operator := operatorLength_reopened (a := a) (b := b) opening part
  by_cases special : c ∈ ['`', '$', '"', '#', '.', '<', '>', '-', '?', '!', '=']
  case neg =>
    have other := punctuationExtent_other special
    rw [other (part ++ (front ++ b)), other (part ++ (front ++ a)), operator]
  simp only [List.mem_cons, List.not_mem_nil, or_false] at special
  rcases special with rfl | rfl | rfl | rfl | rfl | rfl | rfl | rfl | rfl | rfl | rfl
  · have tail : backquotedTail? (part ++ (front ++ b)) =
        backquotedTail? (part ++ (front ++ a)) := by
      simp only [punctuationExtent] at fits
      cases found : backquotedTail? (part ++ (front ++ a)) with
      | none => exact quote found
      | some length =>
        rw [found] at fits
        exact backquotedTail?_append _ found (Nat.le_of_succ_le_succ fits)
    simp only [punctuationExtent, tail]
  · have parts := @runLength_reopened isIdentifierPart part (front ++ a) (front ++ b) opening.head?
      opening.ne_nil (Nat.le_of_succ_le_succ fits)
    simp only [punctuationExtent, parts]
  · have closed := @StringLiteral.extent_reopened ('"' :: part) _ (front ++ b) opening.head?
      opening.not_halts rfl fits
    simp only [List.cons_append] at closed
    simp only [punctuationExtent, closed]
  · exact punctuationExtent_hash_reopened opening fits
  · simp only [punctuationExtent_period,
      mark_reopened (a := a) (b := b) opening ['.', '.'] (by simp [openers]),
      mark_reopened (a := a) (b := b) opening ['.', '<'] (by simp [openers])]
  · simp only [punctuationExtent_less, operator,
      mark_reopened (a := a) (b := b) opening ['='] (by simp [openers]),
      mark_reopened (a := a) (b := b) opening ['<'] (by simp [openers])]
  · simp only [punctuationExtent_greater,
      mark_reopened (a := a) (b := b) opening ['='] (by simp [openers])]
  · simp only [punctuationExtent_minus, operator,
      mark_reopened (a := a) (b := b) opening ['>'] (by simp [openers])]
  · simp only [punctuationExtent_question,
      mark_reopened (a := a) (b := b) opening ['?', '='] (by simp [openers]),
      mark_reopened (a := a) (b := b) opening ['?'] (by simp [openers])]
  · simp only [punctuationExtent_exclamation,
      mark_reopened (a := a) (b := b) opening ['=', '='] (by simp [openers]),
      mark_reopened (a := a) (b := b) opening ['='] (by simp [openers])]
  · simp only [punctuationExtent, operator]

theorem tokenExtent_reopened (c : Char) {part : List Char}
    (fits : (tokenExtent (c :: (part ++ (front ++ a)))).2 ≤ part.length + 1)
    (quote : backquotedTail? (part ++ (front ++ a)) = none →
      backquotedTail? (part ++ (front ++ b)) = none) :
    tokenExtent (c :: (part ++ (front ++ b))) = tokenExtent (c :: (part ++ (front ++ a))) := by
  simp only [tokenExtent] at fits ⊢
  split
  · rename_i start
    rw [if_pos start] at fits
    have inside : runLength isIdentifierPart (c :: (part ++ (front ++ a))) ≤ part.length + 1 := fits
    have same := @runLength_reopened isIdentifierPart (c :: part) (front ++ a) (front ++ b)
      opening.head? opening.ne_nil inside
    simp only [List.cons_append] at same
    have cut := @take_settled part (front ++ a) (front ++ b) c _ inside
    simp only [wordExtent, same, cut]
  rename_i start
  rw [if_neg start] at fits
  split
  · rename_i digit
    have same (rest : List Char) : numberExtent (c :: (part ++ (front ++ rest))) =
        numberExtent (c :: part) := numberExtent_append opening.mem_openers (c :: part)
    rw [same, same]
  · rename_i digit
    rw [if_neg digit] at fits
    exact punctuationExtent_reopened opening c fits quote

theorem triviaExtent?_reopened (atStart : Bool) (c : Char) {part : List Char}
    (fits : ∀ kind length, triviaExtent? atStart (c :: (part ++ (front ++ a))) =
      some (kind, length) → length ≤ part.length + 1) :
    triviaExtent? atStart (c :: (part ++ (front ++ b))) =
      triviaExtent? atStart (c :: (part ++ (front ++ a))) := by
  have head : (part ++ (front ++ b)).head? = (part ++ (front ++ a)).head? := by
    cases part with
    | nil => exact opening.head?
    | cons d part => rfl
  have run {p : Char → Bool}
      (inside : runLength p (c :: (part ++ (front ++ a))) ≤ part.length + 1) :
      runLength p (c :: (part ++ (front ++ b))) = runLength p (c :: (part ++ (front ++ a))) :=
    @runLength_reopened p (c :: part) (front ++ a) (front ++ b) opening.head? opening.ne_nil inside
  simp only [triviaExtent?, head] at fits ⊢
  split
  · rename_i space
    rw [if_pos space] at fits
    rw [run (fits _ _ rfl)]
  rename_i space
  rw [if_neg space] at fits
  split
  · rfl
  rename_i joined
  rw [if_neg joined] at fits
  split
  · rfl
  rename_i line
  rw [if_neg line] at fits
  split
  · rename_i slashes
    rw [if_pos slashes] at fits
    rw [run (fits _ _ rfl), take_settled (fits _ _ rfl)]
  rename_i slashes
  rw [if_neg slashes] at fits
  split
  · rename_i star
    rw [if_pos star] at fits
    have long := two_le_length_comment (and_head?_eq_true_iff.mp star)
    rw [length_comment_settled c (fits _ _ rfl) (fun _ => opening.ne_nil)
      (Nat.lt_of_lt_of_le Nat.two_pos long), take_settled (fits _ _ rfl)]
  rename_i star
  rw [if_neg star] at fits
  split
  · rename_i hash
    rw [if_pos hash] at fits
    rw [run (fits _ _ rfl)]
  · rfl

theorem lexeme_reopened (atStart : Bool) (c : Char) {part : List Char}
    (fits : (lexeme atStart (c :: (part ++ (front ++ a)))).2 ≤ part.length + 1)
    (quote : backquotedTail? (part ++ (front ++ a)) = none →
      backquotedTail? (part ++ (front ++ b)) = none) :
    lexeme atStart (c :: (part ++ (front ++ b))) =
      lexeme atStart (c :: (part ++ (front ++ a))) := by
  have trivia := triviaExtent?_reopened (a := a) (b := b) opening atStart c
    fun kind length found => by rwa [lexeme, found] at fits
  unfold lexeme at fits ⊢
  rw [trivia]
  split
  · rename_i found
    rw [found] at fits
    rw [take_settled fits]
  · rename_i none
    rw [none] at fits
    dsimp only at fits ⊢
    rw [tokenExtent_reopened opening c fits quote, take_settled fits]

/-- The lexemes in front of a comment or a literal stay the same when what follows its opening is
exchanged, if that gives no lone backquote another one on its line. The induction is on these
lexemes. -/
theorem lexemes_reopened {read later : List Lexeme} {atStart : Bool} {part : List Char}
    (found : lexemes atStart 0 (part ++ (front ++ a)) = read ++ later)
    (covers : Lexeme.textAll read = String.ofList part)
    (quotes : ∀ part, backquotedTail? (part ++ (front ++ a)) = none →
      backquotedTail? (part ++ (front ++ b)) = none) :
    lexemes atStart 0 (part ++ (front ++ b)) =
      read ++ lexemes (atStart && read.isEmpty) 0 (front ++ b) := by
  induction read generalizing atStart part with
  | nil =>
    obtain rfl : part = [] := String.ofList_eq_empty_iff.mp covers.symm
    simp
  | cons first read ih =>
    obtain ⟨c, tail, rfl, rfl, fits, others, left⟩ := exists_of_lexemes_eq_cons found covers
    have same := lexeme_reopened opening atStart c fits (quotes tail)
    have dropped : (c :: (tail ++ (front ++ b))).drop
        (lexeme atStart (c :: (tail ++ (front ++ a)))).2 =
          (c :: tail).drop (lexeme atStart (c :: (tail ++ (front ++ a)))).2 ++ (front ++ b) :=
      @List.drop_append_of_le_length _ (c :: tail) (front ++ b) _ fits
    rw [List.cons_append, lexemes_cons, same, dropped, ih others left]
    simp

end

end Lexer

end SwiftTree
