import SwiftTree.Proofs.Token.Stability.Scan

/-!
# Literals and comments

A literal or a block comment is closed by its own last characters, so what follows has no bearing on
it. A literal that is not closed ends in front of a line break, unless it may run over several lines
and then takes all of the text. So it is settled if the cut is not at its end, or if it is followed
by something and the new text begins with a line break.
-/

namespace SwiftTree

/-- A mark that trivia has no part in and whose characters join ends in front of a cut, also behind
characters that they may follow. -/
theorem Lexer.Cut.not_prefix {front mark part new : List Char} (cut : Cut (front ++ part) new)
    (plain : ∀ c ∈ mark, c ∉ separators)
    (joined : ∀ last ∈ front ++ mark, ∀ next ∈ (front ++ mark).tail, joins last next) :
    ∀ c ∈ new.head?, ¬part ++ [c] <+: mark := by
  rintro c first ⟨more, rfl⟩
  have apart : (c == c) = false := by
    refine @stops _ _ cut (· == c) (fun other member => ?_) (fun last final next goes => ?_) c first
    · apply beq_false_of_ne
      rintro rfl
      exact plain other (by simp) member
    · obtain rfl := beq_iff_eq.mp goes
      have filled : front ++ part ≠ [] := by
        intro none
        rw [none] at final
        cases final
      have parts : front ++ (part ++ [next] ++ more) = front ++ part ++ next :: more := by simp
      rw [parts] at joined
      refine joined last (List.mem_append_left _ (List.mem_of_getLast? final)) next ?_
      rw [List.tail_append_of_ne_nil filled]
      simp
  simp at apart

/-- A mark that does not go on behind the first part of the text is settled: it stands there or not
at all. -/
theorem Lexer.prefix_settled {mark part rest new : List Char}
    (stops : ∀ c ∈ new.head?, ¬part ++ [c] <+: mark)
    (fits : mark <+: part ++ rest → mark.length ≤ part.length) :
    mark <+: part ++ new ↔ mark <+: part ++ rest := by
  have inside : mark <+: part ++ new → mark <+: part := by
    intro h
    obtain inside | ⟨more, rfl⟩ := List.prefix_or_prefix_of_prefix h (List.prefix_append _ _)
    · exact inside
    rw [List.prefix_append_right_inj] at h
    cases more with
    | nil => simp
    | cons c more =>
      have first : c ∈ new.head? := by
        obtain ⟨tail, rfl⟩ := h
        rfl
      exact absurd ⟨more, by simp⟩ (stops c first)
  constructor
  · exact fun h => (inside h).trans (List.prefix_append _ _)
  · intro h
    have within : mark <+: part :=
      List.prefix_of_prefix_length_le h (List.prefix_append _ _) (fits h)
    exact within.trans (List.prefix_append _ _)

namespace StringLiteral

open Lexer

theorem interpolationLength_cons (multiline : Bool) (depth : Nat) (c : Char) (cs : List Char) :
    interpolationLength multiline depth (c :: cs) =
      if c = '(' then interpolationLength multiline (depth + 1) cs + 1
      else if c = ')' then if depth ≤ 1 then 1 else interpolationLength multiline (depth - 1) cs + 1
      else if !multiline && Text.isLineBreak c then 0
      else interpolationLength multiline depth cs + 1 := by
  by_cases opens : c = '('
  · subst opens
    rfl
  by_cases closes : c = ')'
  · subst closes
    rfl
  rw [if_neg opens, if_neg closes, interpolationLength]
  · exact opens
  · exact closes

/-- What is read of a first part of a text ends inside of it, or is cut off where the part ends by
a line break or by the end of the text. -/
def Inside (size : Nat) (part rest new : List Char) : Prop :=
  size < part.length ∨ size ≤ part.length ∧ rest ≠ [] ∧ Text.Halts new

theorem Inside.le {size : Nat} {part rest new : List Char} (h : Inside size part rest new) :
    size ≤ part.length := by
  obtain inside | ⟨within, -⟩ := h
  · exact Nat.le_of_lt inside
  · exact within

theorem Inside.drop {count size : Nat} {part rest new : List Char}
    (h : Inside (count + size) part rest new) :
    count ≤ part.length ∧ Inside size (part.drop count) rest new := by
  have room : count + size ≤ part.length := h.le
  refine ⟨by omega, ?_⟩
  rw [Inside, List.length_drop]
  obtain inside | ⟨-, ends⟩ := h
  · exact .inl (by omega)
  · exact .inr ⟨by omega, ends⟩

theorem inside_succ_iff {size : Nat} {c : Char} {part rest new : List Char} :
    Inside (size + 1) (c :: part) rest new ↔ Inside size part rest new := by
  simp [Inside]

theorem interpolationLength_settled {multiline : Bool} {depth : Nat} {part rest new : List Char}
    (h : Inside (interpolationLength multiline depth (part ++ rest)) part rest new) :
    interpolationLength multiline depth (part ++ new) =
      interpolationLength multiline depth (part ++ rest) := by
  induction part generalizing depth with
  | nil =>
    -- nothing was read, so the interpolation ends at the line break in front of the rest
    obtain impossible | ⟨within, filled, halts⟩ := h
    · exact absurd impossible (Nat.not_lt_zero _)
    have none : interpolationLength multiline depth rest = 0 := Nat.le_zero.mp within
    obtain ⟨y, rest, rfl⟩ := List.exists_cons_of_ne_nil filled
    have single : multiline = false := by
      rw [interpolationLength_cons] at none
      grind
    rw [List.nil_append, List.nil_append, none]
    cases new with
    | nil => rfl
    | cons b after =>
      have breaks : Text.isLineBreak b := halts b rfl
      have ordinary : b ≠ '(' ∧ b ≠ ')' := by
        obtain rfl | rfl := Text.isLineBreak_iff.mp breaks <;> simp
      rw [interpolationLength_cons, if_neg ordinary.1, if_neg ordinary.2, single, breaks]
      rfl
  | cons c part ih =>
    simp only [List.cons_append, interpolationLength_cons] at h ih ⊢
    split
    · rename_i opens
      rw [if_pos opens, inside_succ_iff] at h
      rw [ih h]
    rename_i opens
    rw [if_neg opens] at h
    split
    · rename_i closes
      rw [if_pos closes] at h
      split
      · rfl
      · rename_i inner
        rw [if_neg inner, inside_succ_iff] at h
        rw [ih h]
    rename_i closes
    rw [if_neg closes] at h
    split
    · rfl
    · rename_i goes
      rw [if_neg goes, inside_succ_iff] at h
      rw [ih h]

theorem escapedLength_settled {multiline : Bool} {part rest new : List Char}
    (h : Inside (escapedLength multiline (part ++ rest)) part rest new) :
    escapedLength multiline (part ++ new) = escapedLength multiline (part ++ rest) := by
  cases part with
  | nil =>
    obtain impossible | ⟨within, filled, -⟩ := h
    · exact absurd impossible (Nat.not_lt_zero _)
    obtain ⟨y, rest, rfl⟩ := List.exists_cons_of_ne_nil filled
    have some : 0 < escapedLength multiline (y :: rest) := by
      by_cases opens : y = '('
      · subst opens
        rw [escapedLength, interpolationLength_cons, if_pos rfl]
        exact Nat.succ_pos _
      · rw [escapedLength]
        · exact Nat.one_pos
        · exact opens
    exact absurd within (Nat.not_le_of_lt some)
  | cons c part =>
    by_cases opens : c = '('
    · subst opens
      exact @interpolationLength_settled multiline 0 ('(' :: part) rest new h
    · rw [List.cons_append, List.cons_append, escapedLength, escapedLength]
      · exact opens
      · exact opens

/-- The characters that an escape covers belong to the literal. -/
theorem min_le_length_bodyExtent (d : Delimiter) (skipped : Nat) (cs : List Char) :
    min skipped cs.length ≤ (bodyExtent d skipped cs).length := by
  induction cs generalizing skipped with
  | nil => simp
  | cons c cs ih =>
    cases skipped with
    | zero => simp
    | succ skipped =>
      rw [bodyExtent, Extent.length_add, List.length_cons, Nat.succ_min_succ]
      exact Nat.succ_le_succ (ih skipped)

theorem Delimiter.eq_or_eq_of_mem_closing (d : Delimiter) {c : Char} (h : c ∈ d.closing) :
    c = '"' ∨ c = '#' := by
  obtain quote | hash := List.mem_append.mp h
  · unfold quotes at quote
    split at quote <;> simp_all
  · exact .inr (List.eq_of_mem_replicate hash)

theorem Delimiter.not_mem_separators_of_mem_closing (d : Delimiter) {c : Char}
    (h : c ∈ d.closing) : c ∉ separators := by
  obtain rfl | rfl := d.eq_or_eq_of_mem_closing h <;> simp [separators]

theorem Delimiter.not_mem_separators_of_mem_escape (d : Delimiter) {c : Char}
    (h : c ∈ d.escape) : c ∉ separators := by
  obtain rfl | hash := List.mem_cons.mp h
  · simp [separators]
  · obtain rfl := List.eq_of_mem_replicate hash
    simp [separators]

theorem Delimiter.joins_closing (d : Delimiter) :
    ∀ last ∈ d.closing, ∀ next ∈ d.closing.tail, joins last next := by
  intro last first next second
  obtain rfl | rfl := d.eq_or_eq_of_mem_closing first <;>
    obtain rfl | rfl := d.eq_or_eq_of_mem_closing (List.mem_of_mem_tail second) <;>
      simp [joins]

theorem Delimiter.joins_escape (d : Delimiter) :
    ∀ last ∈ d.escape, ∀ next ∈ d.escape.tail, joins last next := by
  intro last first next second
  obtain rfl := List.eq_of_mem_replicate second
  obtain rfl | hash := List.mem_cons.mp first
  · simp [joins]
  · obtain rfl := List.eq_of_mem_replicate hash
    simp [joins]

theorem Delimiter.length_closing_pos (d : Delimiter) : 0 < d.closing.length := by
  unfold closing quotes
  split <;> simp

theorem Delimiter.length_escape (d : Delimiter) : d.escape.length = d.hashes + 1 := by
  simp [escape]

/-- One step through the body of a literal. -/
theorem bodyExtent_cons (d : Delimiter) (c : Char) (cs : List Char)
    [Decidable (d.closing <+: c :: cs)] [Decidable (d.escape <+: c :: cs)] :
    bodyExtent d 0 (c :: cs) =
      if d.closing <+: c :: cs then .closed d.closing.length
      else if d.escape <+: c :: cs then
        (bodyExtent d (d.hashes + escapedLength d.multiline (cs.drop d.hashes)) cs).add 1
      else if !d.multiline && Text.isLineBreak c then .cut 0
      else (bodyExtent d 0 cs).add 1 := by
  simp only [bodyExtent, List.isPrefixOf_iff_prefix]

theorem bodyExtent_of_halts {d : Delimiter} (single : d.multiline = false) {new : List Char}
    (halts : Text.Halts new) : bodyExtent d 0 new = .cut 0 := by
  cases new with
  | nil => rfl
  | cons b after =>
    have breaks : Text.isLineBreak b := halts b rfl
    have unmarked {mark : List Char} (plain : ∀ c ∈ mark, c ∉ separators) (some : mark ≠ []) :
        ¬mark <+: b :: after := by
      obtain ⟨c, mark, rfl⟩ := List.exists_cons_of_ne_nil some
      intro h
      obtain ⟨rfl, -⟩ := List.cons_prefix_cons.mp h
      exact plain c List.mem_cons_self ((separates_of_halts halts).mem_separators c rfl)
    have closed := unmarked (fun _ => d.not_mem_separators_of_mem_closing)
      (List.length_pos_iff.mp d.length_closing_pos)
    have escaped := unmarked (fun _ => d.not_mem_separators_of_mem_escape) (List.cons_ne_nil _ _)
    rw [bodyExtent_cons, if_neg closed, if_neg escaped, single, breaks]
    rfl

/-- A literal that takes nothing of a text is cut off by a line break. -/
theorem bodyExtent_of_length_eq_zero {d : Delimiter} {skipped : Nat} {cs : List Char}
    (filled : cs ≠ []) (h : (bodyExtent d skipped cs).length = 0) :
    skipped = 0 ∧ d.multiline = false ∧ bodyExtent d 0 cs = .cut 0 := by
  obtain ⟨c, cs, rfl⟩ := List.exists_cons_of_ne_nil filled
  cases skipped with
  | succ skipped => simp [bodyExtent] at h
  | zero =>
    rw [bodyExtent] at h ⊢
    split
    · rename_i closes
      rw [if_pos closes] at h
      exact absurd h (Nat.ne_of_gt d.length_closing_pos)
    rename_i closes
    rw [if_neg closes] at h
    split
    · rename_i escapes
      rw [if_pos escapes, Extent.length_add] at h
      exact absurd h (Nat.succ_ne_zero _)
    rename_i escapes
    rw [if_neg escapes] at h
    split
    · rename_i cut
      simp_all
    · rename_i goes
      rw [if_neg goes, Extent.length_add] at h
      exact absurd h (Nat.succ_ne_zero _)

theorem Extent.add_eq_closed_iff {extent : Extent} {count length : Nat} :
    extent.add count = .closed length ↔
      ∃ inner, extent = .closed inner ∧ inner + count = length := by
  cases extent <;> simp [Extent.add]

theorem Extent.add_eq_cut_iff {extent : Extent} {count length : Nat} :
    extent.add count = .cut length ↔
      ∃ inner, extent = .cut inner ∧ inner + count = length := by
  cases extent <;> simp [Extent.add]

/-- A literal is closed behind the escapes in it. -/
theorem skipped_lt_of_bodyExtent_eq_closed {d : Delimiter} {skipped length : Nat} {cs : List Char}
    (h : bodyExtent d skipped cs = .closed length) : skipped < length := by
  induction cs generalizing skipped length with
  | nil => cases skipped <;> cases h
  | cons c cs ih =>
    cases skipped with
    | succ skipped =>
      obtain ⟨inner, found, rfl⟩ := Extent.add_eq_closed_iff.mp h
      exact Nat.succ_lt_succ (ih found)
    | zero =>
      rw [bodyExtent] at h
      split at h
      · cases h
        exact d.length_closing_pos
      split at h
      · obtain ⟨inner, -, rfl⟩ := Extent.add_eq_closed_iff.mp h
        exact Nat.succ_pos inner
      split at h
      · cases h
      · obtain ⟨inner, -, rfl⟩ := Extent.add_eq_closed_iff.mp h
        exact Nat.succ_pos inner

namespace Extent

/-- The literal is closed in the first part of the text, or it ends inside of it or is cut off where
it ends. -/
def Within (part rest new : List Char) : Extent → Prop
  | closed length => length ≤ part.length
  | cut length => Inside length part rest new

variable {extent : Extent} {part rest new : List Char}

theorem Within.length_le (h : extent.Within part rest new) : extent.length ≤ part.length := by
  cases extent with
  | closed length => exact h
  | cut length => exact Inside.le h

theorem Within.of_add {count : Nat} (h : (extent.add count).Within part rest new) :
    count ≤ part.length ∧ extent.Within (part.drop count) rest new := by
  cases extent with
  | closed length =>
    have size : length + count ≤ part.length := h
    refine ⟨by omega, ?_⟩
    rw [Within, List.length_drop]
    omega
  | cut length => exact Inside.drop (Nat.add_comm length count ▸ h)

end Extent

/-- An escape in a literal ends where the literal may end, or before. -/
theorem inside_of_within {d : Delimiter} {skipped : Nat} {part rest new : List Char}
    (h : (bodyExtent d skipped (part ++ rest)).Within part rest new) :
    Inside skipped part rest new := by
  cases found : bodyExtent d skipped (part ++ rest) with
  | closed length =>
    rw [found] at h
    exact .inl (Nat.lt_of_lt_of_le (skipped_lt_of_bodyExtent_eq_closed found) h)
  | cut length =>
    have covered := min_le_length_bodyExtent d skipped (part ++ rest)
    rw [found, List.length_append] at covered
    rw [found] at h
    obtain inside | ⟨within, filled, halts⟩ := h
    · exact .inl (by dsimp only [Extent.length] at covered; omega)
    · have more : 0 < rest.length := List.length_pos_iff.mpr filled
      exact .inr ⟨by dsimp only [Extent.length] at covered; omega, filled, halts⟩

/-- The body of a literal is settled. The induction is on the part that the literal lies in; the
rest is reached only by a literal that a line break cuts off there. -/
theorem bodyExtent_settled {d : Delimiter} {skipped : Nat} {part rest new : List Char}
    (cut : part ≠ [] → Cut part new)
    (h : (bodyExtent d skipped (part ++ rest)).Within part rest new) :
    bodyExtent d skipped (part ++ new) = bodyExtent d skipped (part ++ rest) := by
  induction part generalizing skipped with
  | nil =>
    obtain impossible | ⟨-, filled, halts⟩ := inside_of_within h
    · exact absurd impossible (Nat.not_lt_zero _)
    obtain ⟨rfl, single, cut⟩ := bodyExtent_of_length_eq_zero filled (Nat.le_zero.mp h.length_le)
    rw [List.nil_append, List.nil_append, cut, bodyExtent_of_halts single halts]
  | cons c part ih =>
    have cut := cut (List.cons_ne_nil _ _)
    cases skipped with
    | succ skipped =>
      simp only [List.cons_append, bodyExtent] at h ⊢
      rw [ih cut.tail h.of_add.2]
    | zero =>
      have settled {mark : List Char} (plain : ∀ c ∈ mark, c ∉ separators)
          (joined : ∀ last ∈ mark, ∀ next ∈ mark.tail, joins last next)
          (short : mark <+: c :: (part ++ rest) → mark.length ≤ part.length + 1) :
          mark <+: c :: (part ++ new) ↔ mark <+: c :: (part ++ rest) :=
        @prefix_settled mark (c :: part) rest new
          (@Cut.not_prefix [] mark (c :: part) new cut plain joined) short
      simp only [List.cons_append, bodyExtent_cons] at h ⊢
      have closing := settled (fun _ => d.not_mem_separators_of_mem_closing) d.joins_closing
        fun closes => by
        rwa [if_pos closes] at h
      simp only [closing]
      split
      · rfl
      rename_i closes
      rw [if_neg closes] at h
      by_cases escapes : d.escape <+: c :: (part ++ rest)
      · rw [if_pos escapes] at h
        have later : (bodyExtent d (d.hashes + escapedLength d.multiline
            ((part ++ rest).drop d.hashes)) (part ++ rest)).Within part rest new := h.of_add.2
        obtain ⟨room, behind⟩ := (inside_of_within later).drop
        have same : escapedLength d.multiline ((part ++ new).drop d.hashes) =
            escapedLength d.multiline ((part ++ rest).drop d.hashes) := by
          rw [List.drop_append_of_le_length room] at behind
          rw [List.drop_append_of_le_length room, List.drop_append_of_le_length room,
            escapedLength_settled behind]
        have escape := settled (fun _ => d.not_mem_separators_of_mem_escape) d.joins_escape
          fun _ => by
          rw [d.length_escape]
          omega
        rw [if_pos escapes, if_pos (escape.mpr escapes), same, ih cut.tail later]
      · have escape : ¬d.escape <+: c :: (part ++ new) := by
          rwa [settled (fun _ => d.not_mem_separators_of_mem_escape) d.joins_escape
            fun h => absurd h escapes]
        rw [if_neg escapes] at h
        rw [if_neg escapes, if_neg escape]
        split
        · rfl
        · rename_i goes
          rw [if_neg goes] at h
          rw [ih cut.tail h.of_add.2]

theorem hashes_lt_openingLength (cs : List Char) :
    (cs.takeWhile (· == '#')).length < (delimiter cs).openingLength := by
  unfold Delimiter.openingLength Delimiter.quotes delimiter
  dsimp only
  split <;> simp

/-- How a literal is delimited is settled together with the literal. -/
theorem delimiter_settled {part rest new : List Char} (cut : Cut part new)
    (inside : (delimiter (part ++ rest)).openingLength ≤ part.length) :
    delimiter (part ++ new) = delimiter (part ++ rest) := by
  have short : ((part ++ rest).takeWhile (· == '#')).length ≤ part.length :=
    Nat.le_of_lt (Nat.lt_of_lt_of_le (hashes_lt_openingLength _) inside)
  have hashes : ((part ++ new).takeWhile (· == '#')).length =
      ((part ++ rest).takeWhile (· == '#')).length :=
    settles_runLength (by simp [separators]) (by simp [joins]) cut short
  have three : (delimiter (part ++ rest)).multiline →
      ((part ++ rest).takeWhile (· == '#')).length + 3 ≤ part.length := by
    intro multiline
    rwa [Delimiter.openingLength, Delimiter.quotes, if_pos multiline] at inside
  simp only [delimiter] at three
  simp only [delimiter, hashes, Delimiter.mk.injEq, true_and]
  have filled : part.drop ((part ++ rest).takeWhile (· == '#')).length ≠ [] := by
    have := hashes_lt_openingLength (part ++ rest)
    rw [ne_eq, List.drop_eq_nil_iff]
    omega
  generalize ((part ++ rest).takeWhile (· == '#')).length = count at three short filled ⊢
  rw [List.drop_append_of_le_length short] at three ⊢
  rw [List.drop_append_of_le_length short, Bool.eq_iff_iff, List.isPrefixOf_iff_prefix,
    List.isPrefixOf_iff_prefix]
  refine prefix_settled (@Cut.not_prefix [] _ _ _ (cut.drop filled) (by simp [separators])
    (by simp [joins])) ?_
  intro opened
  have room : count + 3 ≤ part.length := three (List.isPrefixOf_iff_prefix.mpr opened)
  rw [List.length_drop]
  exact Nat.le_sub_of_add_le (Nat.add_comm .. ▸ room)

theorem extent_settled {part rest new : List Char} (cut : Cut part new)
    (h : (extent (part ++ rest)).Within part rest new) :
    extent (part ++ new) = extent (part ++ rest) := by
  rw [extent] at h
  obtain ⟨inside, body⟩ := h.of_add
  rw [extent, extent, delimiter_settled cut inside]
  rw [List.drop_append_of_le_length inside] at body
  rw [List.drop_append_of_le_length inside, List.drop_append_of_le_length inside,
    bodyExtent_settled cut.drop body]

theorem length_bodyExtent_le (d : Delimiter) (skipped : Nat) (cs : List Char) :
    (bodyExtent d skipped cs).length ≤ cs.length := by
  induction cs generalizing skipped with
  | nil => exact Nat.le_refl 0
  | cons c cs ih =>
    cases skipped with
    | succ skipped =>
      rw [bodyExtent, Extent.length_add]
      exact Nat.succ_le_succ (ih skipped)
    | zero =>
      rw [bodyExtent]
      split
      · rename_i closes
        exact (List.isPrefixOf_iff_prefix.mp closes).length_le
      split
      · rw [Extent.length_add]
        exact Nat.succ_le_succ (ih _)
      split
      · exact Nat.zero_le _
      · rw [Extent.length_add]
        exact Nat.succ_le_succ (ih 0)

/-- A text begins with a literal if a quote follows the hash signs at its start. -/
theorem length_extent_le {cs : List Char} (h : (cs.dropWhile (· == '#')).head? = some '"') :
    (extent cs).length ≤ cs.length := by
  have opening : (delimiter cs).openingLength ≤ cs.length := by
    obtain ⟨rest, behind⟩ := List.head?_eq_some_iff.mp h
    have parts := List.takeWhile_append_dropWhile (p := (· == '#')) (l := cs)
    have size := congrArg List.length parts
    rw [List.length_append, behind, List.length_cons] at size
    unfold Delimiter.openingLength Delimiter.quotes
    split
    · rename_i three
      have opened := (List.isPrefixOf_iff_prefix.mp three).length_le
      rw [List.length_drop] at opened
      simp only [delimiter, List.length_cons, List.length_nil] at opened ⊢
      omega
    · simp only [delimiter, List.length_cons, List.length_nil]
      omega
  have body := length_bodyExtent_le (delimiter cs) 0 (cs.drop (delimiter cs).openingLength)
  rw [List.length_drop] at body
  rw [extent, Extent.length_add]
  omega

/-- The text of a literal is a literal of the same extent. -/
theorem extent_take {cs : List Char} (h : (cs.dropWhile (· == '#')).head? = some '"') :
    extent (cs.take (extent cs).length) = extent cs := by
  have parts := List.take_append_drop (extent cs).length cs
  have size : (cs.take (extent cs).length).length = (extent cs).length :=
    List.length_take_of_le (length_extent_le h)
  by_cases filled : cs.drop (extent cs).length = []
  · rw [filled, List.append_nil] at parts
    rw [parts]
  · have settled := @extent_settled (cs.take (extent cs).length) (cs.drop (extent cs).length) []
      (.inl separates_nil)
    rw [parts, List.append_nil] at settled
    apply settled
    cases found : extent cs with
    | closed length =>
      rw [found] at size
      exact Nat.le_of_eq size.symm
    | cut length =>
      rw [found] at size filled
      exact .inr ⟨Nat.le_of_eq size.symm, filled, Text.halts_nil⟩

end StringLiteral

namespace Comment

theorem bodyExtent_cons_cons (outer : Nat) (c d : Char) (cs : List Char) :
    bodyExtent outer (c :: d :: cs) =
      if c = '/' ∧ d = '*' then (bodyExtent (outer + 1) cs).add 2
      else if c = '*' ∧ d = '/' then
        if outer = 0 then .closed 2 else (bodyExtent (outer - 1) cs).add 2
      else (bodyExtent outer (d :: cs)).add 1 := by
  by_cases opens : c = '/' ∧ d = '*'
  · obtain ⟨rfl, rfl⟩ := opens
    cases outer <;> rfl
  rw [if_neg opens]
  by_cases closes : c = '*' ∧ d = '/'
  · obtain ⟨rfl, rfl⟩ := closes
    cases outer <;> rfl
  rw [if_neg closes]
  rw [bodyExtent]
  · rintro rest rfl ⟨⟩
    exact opens ⟨rfl, rfl⟩
  · rintro rest - rfl ⟨⟩
    exact closes ⟨rfl, rfl⟩
  · rintro outer rest - rfl ⟨⟩
    exact closes ⟨rfl, rfl⟩

theorem bodyExtent_singleton (outer : Nat) (c : Char) :
    bodyExtent outer [c] = .unclosed (outer + 1) := by
  cases outer <;> simp [bodyExtent, Extent.add]

theorem Extent.add_eq_closed_iff {extent : Extent} {count length : Nat} :
    extent.add count = .closed length ↔
      ∃ inner, extent = .closed inner ∧ inner + count = length := by
  cases extent <;> simp [Extent.add]

theorem Extent.add_eq_unclosed_iff {extent : Extent} {count depth : Nat} :
    extent.add count = .unclosed depth ↔ extent = .unclosed depth := by
  cases extent <;> simp [Extent.add]

/-- Two characters close a comment. -/
theorem two_le_of_bodyExtent_eq_closed : (cs : List Char) → {outer length : Nat} →
    bodyExtent outer cs = .closed length → 2 ≤ length
  | [], _, _, h => by simp [bodyExtent] at h
  | [c], _, _, h => by simp [bodyExtent_singleton] at h
  | c :: d :: cs, outer, length, h => by
    rw [bodyExtent_cons_cons] at h
    split at h
    · obtain ⟨inner, -, rfl⟩ := Extent.add_eq_closed_iff.mp h
      exact Nat.le_add_left _ _
    split at h
    · split at h
      · cases h
        exact Nat.le_refl 2
      · obtain ⟨inner, -, rfl⟩ := Extent.add_eq_closed_iff.mp h
        exact Nat.le_add_left _ _
    · obtain ⟨inner, found, rfl⟩ := Extent.add_eq_closed_iff.mp h
      exact Nat.le_add_right_of_le (two_le_of_bodyExtent_eq_closed (d :: cs) found)

theorem le_length_of_bodyExtent_eq_closed : (cs : List Char) → {outer length : Nat} →
    bodyExtent outer cs = .closed length → length ≤ cs.length
  | [], _, _, h => by simp [bodyExtent] at h
  | [c], _, _, h => by simp [bodyExtent_singleton] at h
  | c :: d :: cs, outer, length, h => by
    rw [bodyExtent_cons_cons] at h
    split at h
    · obtain ⟨inner, found, rfl⟩ := Extent.add_eq_closed_iff.mp h
      exact Nat.add_le_add_right (le_length_of_bodyExtent_eq_closed cs found) 2
    split at h
    · split at h
      · cases h
        exact Nat.le_add_left 2 cs.length
      · obtain ⟨inner, found, rfl⟩ := Extent.add_eq_closed_iff.mp h
        exact Nat.add_le_add_right (le_length_of_bodyExtent_eq_closed cs found) 2
    · obtain ⟨inner, found, rfl⟩ := Extent.add_eq_closed_iff.mp h
      exact Nat.succ_le_succ (le_length_of_bodyExtent_eq_closed (d :: cs) found)

theorem length_le (cs : List Char) : length cs ≤ cs.length := by
  unfold length
  split
  · rename_i size found
    unfold extent at found
    split at found
    · obtain ⟨inner, body, rfl⟩ := Extent.add_eq_closed_iff.mp found
      exact Nat.add_le_add_right (le_length_of_bodyExtent_eq_closed _ body) 2
    · cases found
      exact Nat.zero_le _
  · exact Nat.le_refl _

/-- A closed comment is settled, whatever follows. -/
theorem bodyExtent_append {rest : List Char} (new : List Char) : (part : List Char) →
    {outer length : Nat} → bodyExtent outer (part ++ rest) = .closed length →
    length ≤ part.length → bodyExtent outer (part ++ new) = .closed length
  | [], _, _, h, fits => absurd (two_le_of_bodyExtent_eq_closed _ h) (by simp_all)
  | [c], _, _, h, fits =>
    absurd (Nat.le_trans (two_le_of_bodyExtent_eq_closed _ h) fits) (Nat.not_succ_le_self 1)
  | c :: d :: part, outer, length, h, fits => by
    simp only [List.cons_append, bodyExtent_cons_cons, List.length_cons] at h fits ⊢
    split at h
    · rename_i opens
      obtain ⟨inner, found, rfl⟩ := Extent.add_eq_closed_iff.mp h
      rw [if_pos opens, bodyExtent_append new part found (by omega)]
      rfl
    rename_i opens
    rw [if_neg opens]
    split at h
    · rename_i closes
      rw [if_pos closes]
      split at h
      · rename_i outermost
        rw [if_pos outermost, h]
      · rename_i nested
        obtain ⟨inner, found, rfl⟩ := Extent.add_eq_closed_iff.mp h
        rw [if_neg nested, bodyExtent_append new part found (by omega)]
        rfl
    · rename_i goes
      obtain ⟨inner, found, rfl⟩ := Extent.add_eq_closed_iff.mp h
      have later := bodyExtent_append new (d :: part) found (by simp only [List.length_cons]; omega)
      rw [List.cons_append] at later
      rw [if_neg goes, later]
      rfl

theorem extent_append {part rest : List Char} (new : List Char) {length : Nat} (some : 0 < length)
    (h : extent (part ++ rest) = .closed length) (fits : length ≤ part.length) :
    extent (part ++ new) = .closed length := by
  unfold extent at h
  split at h
  case h_2 =>
    cases h
    exact absurd some (Nat.lt_irrefl 0)
  rename_i body opening
  obtain ⟨inner, found, rfl⟩ := Extent.add_eq_closed_iff.mp h
  match part, opening with
  | [], _ => exact absurd fits (by simp)
  | [c], _ => exact absurd fits (by simp)
  | _ :: _ :: part, rfl =>
    have later := bodyExtent_append new part found (by simpa using fits)
    simp only [List.cons_append, extent, later]
    rfl

/-- A closed comment is closed on its own. -/
theorem extent_take_of_closed {cs : List Char} {size : Nat} (some : 0 < size)
    (found : extent cs = .closed size) : extent (cs.take size) = .closed size := by
  have all : length cs = size := by rw [length, found]
  have short : size ≤ (cs.take size).length :=
    Nat.le_of_eq (List.length_take_of_le (all ▸ length_le cs)).symm
  rw [← List.take_append_drop size cs] at found
  have alone := extent_append [] some found short
  rwa [List.append_nil] at alone

/-- A comment that ends before the text does, or that is not open at its end, is closed. -/
theorem extent_take {cs : List Char} (some : 0 < length cs) {kind : TriviaKind}
    (ends : cs.drop (length cs) ≠ [] ∨
      isUnclosed ⟨kind, String.ofList (cs.take (length cs))⟩ = false) :
    extent (cs.take (length cs)) = .closed (length cs) := by
  cases found : extent cs with
  | closed size =>
    have all : length cs = size := by simp [length, found]
    rw [all] at some ⊢
    exact extent_take_of_closed some found
  | unclosed depth =>
    have all : length cs = cs.length := by simp [length, found]
    simp [all, isUnclosed, found] at ends

end Comment

end SwiftTree
