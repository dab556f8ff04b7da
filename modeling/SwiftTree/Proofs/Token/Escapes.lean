import Mathlib.Data.List.TakeWhile
import SwiftTree.Proofs.Token.Stability.Lexeme

/-!
# Escapes in literals

The body of a literal is read character by character, but what an escape covers is passed over. The
only thing that keeps a literal of one line on its line is that a plain character or an
interpolation does not run over a line break. An escape covers the character behind its opening
whatever that is, so a line break right behind it belongs to the literal. This is the only way in
which a literal of one line gets a line break.
-/

namespace SwiftTree

namespace StringLiteral

open Lexer (separators)

def Delimiter.opening (d : Delimiter) : List Char :=
  List.replicate d.hashes '#' ++ d.quotes

theorem Delimiter.length_opening (d : Delimiter) : d.opening.length = d.openingLength := by
  simp [opening, openingLength]

/-- A text begins with a literal if it begins with any number of hash signs and a quote. -/
theorem opens_iff {cs : List Char} : (cs.dropWhile (· == '#')).head? = some '"' ↔
    ∃ hashes body, cs = List.replicate hashes '#' ++ '"' :: body := by
  constructor
  · intro h
    obtain ⟨body, behind⟩ := List.head?_eq_some_iff.mp h
    have signs : cs.takeWhile (· == '#') =
        List.replicate (cs.takeWhile (· == '#')).length '#' :=
      List.eq_replicate_of_mem fun c member => by simpa using List.mem_takeWhile_imp member
    refine ⟨(cs.takeWhile (· == '#')).length, body, ?_⟩
    rw [← signs, ← behind, List.takeWhile_append_dropWhile]
  · rintro ⟨hashes, body, rfl⟩
    rw [List.dropWhile_append_of_pos (by simp)]
    rfl

theorem delimiter_eq (hashes : Nat) (body : List Char) :
    delimiter (List.replicate hashes '#' ++ '"' :: body) =
      ⟨hashes, ['"', '"'].isPrefixOf body⟩ := by
  have signs : ((List.replicate hashes '#' ++ '"' :: body).takeWhile (· == '#')).length =
      hashes := by
    rw [List.takeWhile_append_of_pos (by simp)]
    simp
  have behind : (List.replicate hashes '#' ++ '"' :: body).drop hashes = '"' :: body :=
    List.drop_left' List.length_replicate
  unfold delimiter
  dsimp only
  rw [signs, behind]
  rfl

/-- A text that begins with a literal begins with the opening of the literal. -/
theorem opening_append_drop {cs : List Char} (h : (cs.dropWhile (· == '#')).head? = some '"') :
    (delimiter cs).opening ++ cs.drop (delimiter cs).openingLength = cs := by
  obtain ⟨hashes, body, rfl⟩ := opens_iff.mp h
  rw [← Delimiter.length_opening, delimiter_eq, ← List.prefix_iff_eq_append, Delimiter.opening,
    List.prefix_append_right_inj, Delimiter.quotes]
  split
  · rename_i three
    exact List.cons_prefix_cons.mpr ⟨rfl, List.isPrefixOf_iff_prefix.mp three⟩
  · exact List.prefix_append ['"'] body

/-- The text begins with a literal and consists of it. -/
structure IsLiteral (cs : List Char) : Prop where
  opens : (cs.dropWhile (· == '#')).head? = some '"'
  all : (extent cs).length = cs.length

/-- What is read as a literal is one. -/
theorem isLiteral_take {cs : List Char} (h : (cs.dropWhile (· == '#')).head? = some '"') :
    IsLiteral (cs.take (extent cs).length) := by
  have size : (cs.take (extent cs).length).length = (extent cs).length :=
    List.length_take_of_le (length_extent_le h)
  refine ⟨?_, by rw [extent_take h, size]⟩
  have long : (cs.takeWhile (· == '#')).length < (extent cs).length := by
    rw [extent, Extent.length_add]
    exact Nat.lt_of_lt_of_le (hashes_lt_openingLength cs) (Nat.le_add_left _ _)
  have parts := List.takeWhile_append_dropWhile (p := (· == '#')) (l := cs)
  obtain ⟨body, behind⟩ := List.head?_eq_some_iff.mp h
  have hash : ∀ c ∈ cs.takeWhile (· == '#'), (c == '#') = true := fun _ => List.mem_takeWhile_imp
  generalize (extent cs).length = size at long ⊢
  rw [← parts, List.take_append, List.take_of_length_le (Nat.le_of_lt long),
    List.dropWhile_append_of_pos hash, behind,
    ← Nat.succ_pred_eq_of_pos (Nat.sub_pos_of_lt long)]
  rfl

/-- How many characters an interpolation takes up, inside a number of open parentheses: one more
than there are if nothing closes it. -/
def interpolationReach (multiline : Bool) : Nat → List Char → Nat
  | _, [] => 1
  | depth, c :: cs =>
    if c = '(' then interpolationReach multiline (depth + 1) cs + 1
    else if c = ')' then if depth ≤ 1 then 1 else interpolationReach multiline (depth - 1) cs + 1
    else if !multiline && Text.isLineBreak c then 0
    else interpolationReach multiline depth cs + 1

/-- How many characters an escape takes up behind its opening: one more than there are if it is not
complete. -/
def reach (multiline : Bool) : List Char → Nat
  | [] => 1
  | c :: cs => if c = '(' then interpolationReach multiline 0 (c :: cs) else 1

/-- Whether the escapes in a stretch of a body are complete. The first `skipped` characters belong
to an escape. -/
def isWhole (d : Delimiter) : Nat → List Char → Bool
  | skipped, [] => skipped == 0
  | skipped + 1, _ :: cs => isWhole d skipped cs
  | 0, c :: cs =>
    if d.escape.isPrefixOf (c :: cs) then
      isWhole d (d.hashes + reach d.multiline (cs.drop d.hashes)) cs
    else isWhole d 0 cs

theorem isWhole_cons (d : Delimiter) (c : Char) (cs : List Char)
    [Decidable (d.escape <+: c :: cs)] :
    isWhole d 0 (c :: cs) =
      if d.escape <+: c :: cs then isWhole d (d.hashes + reach d.multiline (cs.drop d.hashes)) cs
      else isWhole d 0 cs := by
  simp only [isWhole, List.isPrefixOf_iff_prefix]

theorem le_length_of_isWhole {d : Delimiter} {skipped : Nat} {cs : List Char}
    (h : isWhole d skipped cs) : skipped ≤ cs.length := by
  induction cs generalizing skipped with
  | nil => exact Nat.le_of_eq (beq_iff_eq.mp h)
  | cons c cs ih =>
    cases skipped with
    | zero => exact Nat.zero_le _
    | succ skipped => exact Nat.succ_le_succ (ih h)

theorem escapedLength_cons (multiline : Bool) (c : Char) (cs : List Char) :
    escapedLength multiline (c :: cs) =
      if c = '(' then interpolationLength multiline 0 (c :: cs) else 1 := by
  by_cases opens : c = '('
  · subst opens
    rfl
  · rw [if_neg opens, escapedLength]
    exact opens

/-- An interpolation that ends in a stretch of a body and not at a line break is closed there. -/
theorem interpolationReach_eq {multiline : Bool} {depth : Nat} {part more : List Char} {c : Char}
    (plain : Text.isLineBreak c = false)
    (fits : interpolationLength multiline depth (part ++ c :: more) ≤ part.length) :
    interpolationReach multiline depth part =
      interpolationLength multiline depth (part ++ c :: more) := by
  induction part generalizing depth with
  | nil =>
    rw [List.nil_append, interpolationLength_cons, plain, Bool.and_false] at fits
    grind
  | cons x part ih =>
    simp only [List.cons_append, interpolationLength_cons, interpolationReach,
      List.length_cons] at fits ih ⊢
    grind

theorem reach_eq {multiline : Bool} {part more : List Char} {c : Char}
    (plain : Text.isLineBreak c = false)
    (fits : escapedLength multiline (part ++ c :: more) ≤ part.length) :
    reach multiline part = escapedLength multiline (part ++ c :: more) := by
  cases part with
  | nil =>
    rw [List.nil_append, escapedLength_cons, interpolationLength_cons] at fits
    grind
  | cons x part =>
    rw [List.cons_append, escapedLength_cons] at fits ⊢
    rw [reach]
    split
    · rename_i opens
      rw [if_pos opens] at fits
      exact @interpolationReach_eq multiline 0 (x :: part) more c plain fits
    · rfl

/-- In a literal of one line, no interpolation runs over a line break. -/
theorem not_isLineBreak_of_interpolationLength {depth : Nat} {part more : List Char} {c : Char}
    (covered : part.length < interpolationLength false depth (part ++ c :: more)) :
    Text.isLineBreak c = false := by
  induction part generalizing depth with
  | nil =>
    rw [List.nil_append, interpolationLength_cons] at covered
    have round : Text.isLineBreak '(' = false ∧ Text.isLineBreak ')' = false := ⟨rfl, rfl⟩
    grind
  | cons x part ih =>
    simp only [List.cons_append, interpolationLength_cons, List.length_cons] at covered
    grind

/-- What an escape covers in a literal of one line is an interpolation without line breaks, or the
one character behind its opening. -/
theorem eq_nil_of_escapedLength {part more : List Char} {c : Char} (breaks : Text.isLineBreak c)
    (covered : part.length < escapedLength false (part ++ c :: more)) : part = [] := by
  cases part with
  | nil => rfl
  | cons x part =>
    rw [List.cons_append, escapedLength_cons] at covered
    split at covered
    · have plain := @not_isLineBreak_of_interpolationLength 0 (x :: part) more c covered
      rw [breaks] at plain
      cases plain
    · simp at covered

/-- A mark that trivia has no part in stands in front of a line break or behind it. -/
theorem length_le_of_prefix {mark part more : List Char} {c : Char} (breaks : Text.isLineBreak c)
    (plain : ∀ x ∈ mark, x ∉ separators) (h : mark <+: part ++ c :: more) :
    mark.length ≤ part.length := by
  refine Nat.le_of_not_lt fun long => ?_
  have covers : part ++ [c] <+: mark := by
    refine List.prefix_of_prefix_length_le ?_ h ?_
    · exact (List.prefix_append_right_inj part).mpr (List.prefix_append [c] more)
    · rw [List.length_append, List.length_singleton]
      omega
  have member : c ∈ mark := covers.subset (by simp)
  have separator : c ∈ separators := by
    obtain rfl | rfl := Text.isLineBreak_iff.mp breaks <;> simp [separators]
  exact plain c member separator

/-- A line break behind the opening of an escape is what the escape covers, or it stands behind
that. In the second case the escape is complete, and so are all escapes up to the one that covers
the line break if those behind this one are. -/
theorem exists_escape_behind_escape {d : Delimiter} (single : d.multiline = false)
    {before after : List Char} {x c : Char} (breaks : Text.isLineBreak c)
    (escapes : d.escape <+: x :: (before ++ c :: after))
    (later : d.hashes + escapedLength false ((before ++ c :: after).drop d.hashes) ≤
        before.length →
      ∃ front, before = front ++ d.escape ∧
        isWhole d (d.hashes + escapedLength false ((before ++ c :: after).drop d.hashes)) front) :
    ∃ front, x :: before = front ++ d.escape ∧ isWhole d 0 front := by
  have room : d.escape.length ≤ before.length + 1 :=
    length_le_of_prefix breaks (fun _ => d.not_mem_separators_of_mem_escape)
      (show d.escape <+: (x :: before) ++ c :: after from escapes)
  have opens : d.escape <+: x :: before :=
    List.prefix_of_prefix_length_le escapes (List.prefix_append (x :: before) (c :: after)) room
  rw [d.length_escape, Nat.add_le_add_iff_right] at room
  rw [List.drop_append_of_le_length room] at later
  by_cases covered : (before.drop d.hashes).length <
      escapedLength false (before.drop d.hashes ++ c :: after)
  · have none := eq_nil_of_escapedLength breaks covered
    have short : (x :: before).length ≤ d.escape.length := by
      rw [List.drop_eq_nil_iff] at none
      rw [d.length_escape, List.length_cons]
      omega
    exact ⟨[], (opens.eq_of_length_le short).symm, rfl⟩
  · rw [List.length_drop] at covered
    obtain ⟨front, rfl, whole⟩ := later (by omega)
    have long := le_length_of_isWhole whole
    have within : d.hashes ≤ front.length := by omega
    have complete : reach false (front.drop d.hashes) =
        escapedLength false ((front ++ d.escape).drop d.hashes ++ c :: after) := by
      rw [List.drop_append_of_le_length within, List.append_assoc] at long ⊢
      exact reach_eq rfl (by rw [List.length_drop]; exact Nat.le_sub_of_add_le' long)
    have starts : d.escape <+: x :: front := by
      refine List.prefix_of_prefix_length_le opens (List.prefix_append (x :: front) d.escape) ?_
      rw [d.length_escape, List.length_cons]
      omega
    refine ⟨x :: front, rfl, ?_⟩
    rw [isWhole_cons, if_pos starts, single, complete]
    exact whole

/-- A line break in the body of a literal of one line stands right behind the opening of an escape.
The induction is on what stands in front of the line break. -/
theorem exists_escape_of_isLineBreak {d : Delimiter} (single : d.multiline = false)
    {before after : List Char} {c : Char} (breaks : Text.isLineBreak c) {skipped : Nat}
    (behind : skipped ≤ before.length)
    (inside : before.length < (bodyExtent d skipped (before ++ c :: after)).length) :
    ∃ front, before = front ++ d.escape ∧ isWhole d skipped front := by
  induction before generalizing skipped with
  | nil =>
    obtain rfl := Nat.le_zero.mp behind
    have halts : Text.Halts (c :: after) := Text.Breaks.halts ⟨c, after, rfl, breaks⟩
    rw [List.nil_append, bodyExtent_of_halts single halts] at inside
    exact absurd inside (Nat.lt_irrefl 0)
  | cons x before ih =>
    cases skipped with
    | succ skipped =>
      rw [List.cons_append, bodyExtent, Extent.length_add] at inside
      obtain ⟨front, rfl, whole⟩ :=
        ih (Nat.le_of_succ_le_succ behind) (Nat.lt_of_succ_lt_succ inside)
      exact ⟨x :: front, rfl, whole⟩
    | zero =>
      rw [List.cons_append, bodyExtent_cons] at inside
      split at inside
      · rename_i closes
        have short := length_le_of_prefix breaks (fun _ => d.not_mem_separators_of_mem_closing)
          (show d.closing <+: (x :: before) ++ c :: after from closes)
        exact absurd inside (Nat.not_lt_of_le short)
      split at inside
      · rename_i escapes
        rw [Extent.length_add, List.length_cons, Nat.add_lt_add_iff_right, single] at inside
        exact exists_escape_behind_escape single breaks escapes fun beyond => ih beyond inside
      rename_i escapes
      split at inside
      · exact absurd inside (Nat.not_lt_zero _)
      · rw [Extent.length_add, List.length_cons, Nat.add_lt_add_iff_right] at inside
        obtain ⟨front, rfl, whole⟩ := ih (Nat.zero_le _) inside
        have plain : ¬d.escape <+: x :: front := by
          intro h
          rw [List.append_assoc] at escapes
          exact escapes (h.trans (List.prefix_append (x :: front) (d.escape ++ c :: after)))
        refine ⟨x :: front, rfl, ?_⟩
        rw [isWhole_cons, if_neg plain]
        exact whole

theorem IsLiteral.length_bodyExtent {cs : List Char} (h : IsLiteral cs) :
    (bodyExtent (delimiter cs) 0 (cs.drop (delimiter cs).openingLength)).length =
      (cs.drop (delimiter cs).openingLength).length := by
  have all := h.all
  rw [extent, Extent.length_add] at all
  rw [List.length_drop]
  exact Nat.eq_sub_of_add_eq all

theorem IsLiteral.exists_escape {cs before after : List Char} {c : Char} (h : IsLiteral cs)
    (single : (delimiter cs).multiline = false) (breaks : Text.isLineBreak c)
    (split : cs = before ++ c :: after) :
    ∃ front, before = (delimiter cs).opening ++ front ++ (delimiter cs).escape ∧
      isWhole (delimiter cs) 0 front := by
  have parts := opening_append_drop h.opens
  have plain : ∀ x ∈ (delimiter cs).opening, x ∉ separators := fun x member =>
    (delimiter cs).not_mem_separators_of_mem_closing
      (List.mem_append.mpr (List.mem_append.mp member).symm)
  have starts : (delimiter cs).opening <+: before ++ c :: after := ⟨_, parts.trans split⟩
  have short := length_le_of_prefix breaks plain starts
  obtain ⟨inner, rfl⟩ :=
    List.prefix_of_prefix_length_le starts (List.prefix_append before (c :: after)) short
  have body : cs.drop (delimiter cs).openingLength = inner ++ c :: after := by
    rw [List.append_assoc] at split
    exact List.append_cancel_left (parts.trans split)
  have size := h.length_bodyExtent
  rw [body] at size
  obtain ⟨front, rfl, whole⟩ := exists_escape_of_isLineBreak single breaks (Nat.zero_le _)
    (show inner.length < _ by rw [size]; simp)
  exact ⟨front, by rw [List.append_assoc], whole⟩

end StringLiteral

open StringLiteral (delimiter IsLiteral isLiteral_take isWhole)

theorem isLiteral_of_mem_lex {text : String} {token : Token} (member : token ∈ lex text)
    (kind : token.kind = .stringLiteral) : IsLiteral token.text.toList := by
  obtain last | found := Lexer.mem_lexemes_of_mem_attach member
  · rw [Token.isEnd, kind] at last
    cases last
  obtain ⟨first, c, rest, -, same⟩ := Lexer.exists_lexeme_of_mem_lexemes found
  unfold Lexer.lexeme at same
  split at same
  · cases same
  · obtain ⟨here, spelled⟩ := Lexer.Lexeme.token.inj same
    obtain ⟨opens, size⟩ := Lexer.tokenExtent_eq_stringLiteral (here.symm.trans kind)
    rw [spelled, size, String.toList_ofList]
    exact isLiteral_take opens

/-- A line break in a literal that does not open with three quotes stands right behind the opening
of an escape. All escapes in front of that one are complete, so the line break is what it covers. -/
theorem line_breaks_escaped {text : String} {token : Token} (member : token ∈ lex text)
    (kind : token.kind = .stringLiteral)
    (single : (delimiter token.text.toList).multiline = false) {before after : List Char} {c : Char}
    (breaks : Text.isLineBreak c) (split : token.text.toList = before ++ c :: after) :
    ∃ front, before = (delimiter token.text.toList).opening ++ front ++
        (delimiter token.text.toList).escape ∧ isWhole (delimiter token.text.toList) 0 front :=
  (isLiteral_of_mem_lex member kind).exists_escape single breaks split

/-- An escaped backslash, and then a line break behind the opening of an escape with a hash sign. -/
theorem line_breaks_escaped_raw :
    ⟨.stringLiteral, "#\"\\#\\\\#\n\"#", [], []⟩ ∈ lex "#\"\\#\\\\#\n\"#" ∧
      (delimiter "#\"\\#\\\\#\n\"#".toList).multiline = false ∧
      ∃ front, "#\"\\#\\\\#".toList = (delimiter "#\"\\#\\\\#\n\"#".toList).opening ++ front ++
        (delimiter "#\"\\#\\\\#\n\"#".toList).escape ∧
          isWhole (delimiter "#\"\\#\\\\#\n\"#".toList) 0 front := by
  have member : ⟨.stringLiteral, "#\"\\#\\\\#\n\"#", [], []⟩ ∈ lex "#\"\\#\\\\#\n\"#" := by
    decide +kernel
  have single : (delimiter "#\"\\#\\\\#\n\"#".toList).multiline = false := by decide +kernel
  have split : "#\"\\#\\\\#\n\"#".toList = "#\"\\#\\\\#".toList ++ '\n' :: "\"#".toList := by
    decide +kernel
  exact ⟨member, single, line_breaks_escaped member rfl single rfl split⟩

/-- A backslash at the end of a line takes the line break into the literal. -/
theorem line_break_in_single_line :
    ¬∀ text, ∀ token ∈ lex text, token.kind = .stringLiteral →
      (delimiter token.text.toList).multiline = false →
        ∀ c ∈ token.text.toList, Text.isLineBreak c = false := by
  intro h
  have found : ⟨.stringLiteral, "\"\\\na", [], []⟩ ∈ lex "\"\\\na" := by decide +kernel
  have broken := h _ _ found rfl (by decide +kernel) '\n' (by decide +kernel)
  cases broken

end SwiftTree
