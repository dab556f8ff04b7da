import SwiftTree.Proofs.Token.Stability.Opening

/-!
# Closing what is open

A comment or a literal that is not closed gets one closing delimiter put behind it. A comment is
closed by that if one level of it is open, and if it does not end in a slash that would open another
level together with the star of the delimiter. A literal is closed by it if no escape is open in
front of the delimiter. There is one exception: hash signs and two quotes, which are the beginning
of a literal that holds a quote, become the opening of a literal with three quotes.
-/

namespace SwiftTree

namespace Comment

/-- Whether a comment ends in a slash that is no part of its delimiters. -/
def endsInSlash : List Char → Bool
  | [] => false
  | [c] => c == '/'
  | c :: d :: cs =>
    if c = '/' ∧ d = '*' then endsInSlash cs
    else if c = '*' ∧ d = '/' then endsInSlash cs
    else endsInSlash (d :: cs)

theorem bodyExtent_append_end : (cs : List Char) → {outer depth : Nat} →
    bodyExtent outer cs = .unclosed depth →
    bodyExtent outer (cs ++ ['*', '/']) =
      if endsInSlash cs then .unclosed (depth + 1)
      else if depth = 1 then .closed (cs.length + 2) else .unclosed (depth - 1)
  | [], outer, depth, h => by
    obtain rfl : outer + 1 = depth := by simpa [bodyExtent] using h
    cases outer <;> rfl
  | [c], outer, depth, h => by
    obtain rfl : outer + 1 = depth := by simpa [bodyExtent_singleton] using h
    by_cases slash : c = '/'
    · subst slash
      rw [List.singleton_append, bodyExtent_cons_cons]
      simp [endsInSlash, bodyExtent_singleton, Extent.add]
    · have plain : ¬(c = '*' ∧ '*' = '/') := by simp
      rw [List.singleton_append, bodyExtent_cons_cons, if_neg fun opens => slash opens.1,
        if_neg plain]
      cases outer <;> simp [endsInSlash, slash, bodyExtent, Extent.add]
  | c :: d :: cs, outer, depth, h => by
    rw [bodyExtent_cons_cons] at h
    simp only [List.cons_append, bodyExtent_cons_cons, endsInSlash, List.length_cons]
    -- a delimiter at the start is passed over, and what is behind it is longer by two
    have behind {outer : Nat} (h : bodyExtent outer cs = .unclosed depth) :
        (bodyExtent outer (cs ++ ['*', '/'])).add 2 =
          if endsInSlash cs then .unclosed (depth + 1)
          else if depth = 1 then .closed (cs.length + 1 + 1 + 2) else .unclosed (depth - 1) := by
      rw [bodyExtent_append_end cs h]
      split
      · rfl
      split <;> rfl
    split at h
    · rename_i opens
      rw [if_pos opens, if_pos opens, behind (Extent.add_eq_unclosed_iff.mp h)]
    rename_i opens
    rw [if_neg opens, if_neg opens]
    split at h
    · rename_i closes
      rw [if_pos closes, if_pos closes]
      split at h
      · cases h
      · rename_i nested
        rw [if_neg nested, behind (Extent.add_eq_unclosed_iff.mp h)]
    · rename_i goes
      have later := bodyExtent_append_end (d :: cs) (Extent.add_eq_unclosed_iff.mp h)
      rw [List.cons_append] at later
      rw [if_neg goes, if_neg goes, later]
      split
      · rfl
      split <;> rfl

theorem exists_eq_of_extent_eq_unclosed {cs : List Char} {depth : Nat}
    (h : extent cs = .unclosed depth) :
    ∃ body, cs = '/' :: '*' :: body ∧ bodyExtent 0 body = .unclosed depth := by
  unfold extent at h
  split at h
  · rename_i body
    exact ⟨body, rfl, Extent.add_eq_unclosed_iff.mp h⟩
  · cases h

/-- What one closing delimiter does to a comment that is not closed. -/
theorem extent_append_end {cs : List Char} {depth : Nat} (h : extent cs = .unclosed depth) :
    extent (cs ++ ['*', '/']) =
      if endsInSlash cs then .unclosed (depth + 1)
      else if depth = 1 then .closed (cs.length + 2) else .unclosed (depth - 1) := by
  obtain ⟨body, rfl, inner⟩ := exists_eq_of_extent_eq_unclosed h
  have opening : endsInSlash ('/' :: '*' :: body) = endsInSlash body := rfl
  have whole : extent ('/' :: '*' :: body ++ ['*', '/']) =
      (bodyExtent 0 (body ++ ['*', '/'])).add 2 := rfl
  rw [whole, opening, bodyExtent_append_end body inner]
  split
  · rfl
  split <;> rfl

end Comment

namespace StringLiteral

namespace Extent

def isClosed : Extent → Bool
  | closed _ => true
  | cut _ => false

@[simp] theorem isClosed_add (extent : Extent) (count : Nat) :
    (extent.add count).isClosed = extent.isClosed := by
  cases extent <;> rfl

theorem add_add (extent : Extent) (first second : Nat) :
    (extent.add first).add second = extent.add (second + first) := by
  cases extent <;> simp [add] <;> omega

theorem isClosed_eq_false {extent : Extent} (h : ∀ length, extent ≠ closed length) :
    extent.isClosed = false := by
  cases extent with
  | closed length => exact absurd rfl (h length)
  | cut length => rfl

end Extent

theorem bodyExtent_eq_drop (d : Delimiter) {skipped : Nat} {cs : List Char}
    (h : skipped ≤ cs.length) :
    bodyExtent d skipped cs = (bodyExtent d 0 (cs.drop skipped)).add skipped := by
  induction cs generalizing skipped with
  | nil =>
    obtain rfl := Nat.le_zero.mp h
    rfl
  | cons c cs ih =>
    cases skipped with
    | zero =>
      rw [List.drop_zero]
      cases bodyExtent d 0 (c :: cs) <;> rfl
    | succ skipped =>
      rw [bodyExtent, ih (Nat.le_of_succ_le_succ h), Extent.add_add, List.drop_succ_cons,
        Nat.add_comm]

theorem bodyExtent_of_stops {d : Delimiter} {rest : List Char} (h : d.Stops rest) :
    bodyExtent d 0 rest = .cut 0 := by
  obtain rfl | ⟨single, halts⟩ := h
  · rfl
  · exact bodyExtent_of_halts single halts

/-- An interpolation that is closed in a first part of the text has the same length whatever
follows. -/
theorem interpolationLength_of_reach {multiline : Bool} {depth : Nat} {part : List Char}
    (complete : interpolationReach multiline depth part ≤ part.length) (more : List Char) :
    interpolationLength multiline depth (part ++ more) =
      interpolationReach multiline depth part := by
  induction part generalizing depth with
  | nil => exact absurd complete (Nat.not_succ_le_zero 0)
  | cons c part ih =>
    simp only [List.cons_append, interpolationLength_cons, interpolationReach,
      List.length_cons] at complete ih ⊢
    grind

/-- An interpolation that is open at the end of a first part goes on in what follows. -/
theorem exists_interpolationLength_of_reach {multiline : Bool} {depth : Nat} {part : List Char}
    (incomplete : part.length < interpolationReach multiline depth part) :
    ∃ inner, ∀ more, interpolationLength multiline depth (part ++ more) =
      interpolationLength multiline inner more + part.length := by
  induction part generalizing depth with
  | nil => exact ⟨depth, fun more => rfl⟩
  | cons c part ih =>
    have later {depth : Nat} (h : part.length + 1 < interpolationReach multiline depth part + 1) :
        ∃ inner, ∀ more, interpolationLength multiline depth (part ++ more) + 1 =
          interpolationLength multiline inner more + (part.length + 1) := by
      obtain ⟨inner, same⟩ := ih (Nat.lt_of_succ_lt_succ h)
      exact ⟨inner, fun more => congrArg (· + 1) (same more)⟩
    simp only [List.cons_append, interpolationLength_cons, interpolationReach,
      List.length_cons] at incomplete ⊢
    split
    · rename_i opens
      rw [if_pos opens] at incomplete
      exact later incomplete
    rename_i opens
    rw [if_neg opens] at incomplete
    split
    · rename_i closes
      rw [if_pos closes] at incomplete
      split
      · rename_i outermost
        rw [if_pos outermost] at incomplete
        exact absurd incomplete (by omega)
      · rename_i nested
        rw [if_neg nested] at incomplete
        exact later incomplete
    rename_i closes
    rw [if_neg closes] at incomplete
    split
    · rename_i breaks
      rw [if_pos breaks] at incomplete
      exact absurd incomplete (Nat.not_lt_zero _)
    · rename_i goes
      rw [if_neg goes] at incomplete
      exact later incomplete

/-- An interpolation takes all of a closing delimiter. -/
theorem interpolationLength_closing {d : Delimiter} {rest : List Char} (stops : d.Stops rest)
    (depth : Nat) :
    interpolationLength d.multiline depth (d.closing ++ rest) = d.closing.length := by
  have plain : ∀ c ∈ d.closing, c ≠ '(' ∧ c ≠ ')' ∧ Text.isLineBreak c = false := by
    intro c member
    obtain rfl | rfl := d.eq_or_eq_of_mem_closing member
    · exact ⟨by simp, by simp, rfl⟩
    · exact ⟨by simp, by simp, rfl⟩
  have ends : interpolationLength d.multiline depth rest = 0 := by
    cases rest with
    | nil => rfl
    | cons b after =>
      obtain none | ⟨single, halts⟩ := stops
      · cases none
      have breaks : Text.isLineBreak b := halts b rfl
      have ordinary : b ≠ '(' ∧ b ≠ ')' := by
        obtain rfl | rfl := Text.isLineBreak_iff.mp breaks <;> simp
      rw [interpolationLength_cons, if_neg ordinary.1, if_neg ordinary.2, single, breaks]
      rfl
  generalize d.closing = mark at plain ⊢
  induction mark with
  | nil => exact ends
  | cons c mark ih =>
    obtain ⟨opens, closes, breaks⟩ := plain c List.mem_cons_self
    rw [List.cons_append, interpolationLength_cons, if_neg opens, if_neg closes, breaks,
      Bool.and_false, if_neg Bool.false_ne_true,
      ih fun c member => plain c (List.mem_cons_of_mem _ member), List.length_cons]

theorem escapedLength_of_reach {multiline : Bool} {part : List Char}
    (complete : reach multiline part ≤ part.length) (more : List Char) :
    escapedLength multiline (part ++ more) = reach multiline part := by
  cases part with
  | nil => exact absurd complete (Nat.not_succ_le_zero 0)
  | cons c part =>
    rw [List.cons_append, escapedLength_cons]
    rw [reach] at complete ⊢
    split
    · rename_i opens
      rw [if_pos opens] at complete
      exact interpolationLength_of_reach complete more
    · rfl

/-- Without a backslash there are no escapes. -/
theorem isWhole_of_forall_mem {d : Delimiter} {cs : List Char} (h : ∀ c ∈ cs, c ≠ '\\') :
    isWhole d 0 cs := by
  induction cs with
  | nil => rfl
  | cons c cs ih =>
    have plain : ¬d.escape <+: c :: cs := fun escapes =>
      h c List.mem_cons_self (List.cons_prefix_cons.mp escapes).1.symm
    rw [isWhole_cons, if_neg plain]
    exact ih fun c member => h c (List.mem_cons_of_mem _ member)

theorem Delimiter.closing_eq_cons (d : Delimiter) : ∃ tail, d.closing = '"' :: tail := by
  unfold closing quotes
  split
  · exact ⟨_, rfl⟩
  · exact ⟨_, rfl⟩

/-- A literal that is cut off right behind the opening of an escape is cut off by the end of the
text: a line break there would be what the escape covers. -/
theorem eq_nil_of_cut_behind_escape {d : Delimiter} {body rest : List Char} (stops : d.Stops rest)
    (bare : body.length = d.hashes)
    (cut : bodyExtent d (d.hashes + escapedLength d.multiline rest) (body ++ rest) =
      .cut body.length) : rest = [] := by
  cases rest with
  | nil => rfl
  | cons b after =>
    have breaks : Text.isLineBreak b := stops.halts b rfl
    have one : escapedLength d.multiline (b :: after) = 1 := by
      rw [escapedLength_cons, if_neg]
      rintro rfl
      cases breaks
    have covered := min_le_length_bodyExtent d (d.hashes + 1) (body ++ b :: after)
    rw [one] at cut
    rw [cut, List.length_append, List.length_cons] at covered
    dsimp only [Extent.length] at covered
    omega

/-- The first quote of a closing delimiter right behind the opening of an escape is what the escape
covers, and the rest of the delimiter is too short to close the literal. -/
theorem isClosed_of_bare_escape {d : Delimiter} {body : List Char} (bare : body.length = d.hashes) :
    (bodyExtent d (d.hashes + escapedLength d.multiline d.closing) (body ++ d.closing)).isClosed =
      false := by
  obtain ⟨tail, closing⟩ := d.closing_eq_cons
  have one : escapedLength d.multiline d.closing = 1 := by
    rw [closing, escapedLength_cons, if_neg (by simp)]
  have behind : (body ++ d.closing).drop (d.hashes + 1) = tail := by
    rw [closing, List.append_cons]
    exact List.drop_left' (by rw [List.length_append, bare]; rfl)
  have inside : d.hashes + 1 ≤ (body ++ d.closing).length := by
    rw [List.length_append, closing, List.length_cons]
    omega
  rw [one, bodyExtent_eq_drop d inside, Extent.isClosed_add, behind]
  refine Extent.isClosed_eq_false fun count found => ?_
  have long := length_closing_le_of_bodyExtent_eq_closed found
  have short := length_bodyExtent_le d 0 tail
  rw [found] at short
  rw [closing, List.length_cons] at long
  dsimp only [Extent.length] at short
  omega

/-- A closing delimiter inside of an open interpolation is part of the interpolation, which ends
where the literal is cut off. -/
theorem isClosed_of_open_interpolation {d : Delimiter} {body tail rest : List Char}
    (stops : d.Stops rest) (left : body.drop d.hashes = '(' :: tail)
    (incomplete : ('(' :: tail).length < interpolationReach d.multiline 0 ('(' :: tail)) :
    (bodyExtent d (d.hashes + escapedLength d.multiline ('(' :: tail ++ (d.closing ++ rest)))
      (body ++ (d.closing ++ rest))).isClosed = false := by
  obtain ⟨depth, same⟩ := exists_interpolationLength_of_reach incomplete
  have size : body.length = d.hashes + ('(' :: tail).length := by
    have length := congrArg List.length left
    rw [List.length_drop, List.length_cons] at length
    rw [List.length_cons]
    omega
  have all : escapedLength d.multiline ('(' :: tail ++ (d.closing ++ rest)) =
      d.closing.length + ('(' :: tail).length := by
    rw [← interpolationLength_closing stops depth, ← same, List.cons_append, escapedLength_cons,
      if_pos rfl]
  have behind : (body ++ (d.closing ++ rest)).drop
      (d.hashes + (d.closing.length + ('(' :: tail).length)) = rest := by
    rw [← List.append_assoc]
    exact List.drop_left' (by rw [List.length_append]; omega)
  rw [all, bodyExtent_eq_drop d (by simp only [List.length_append]; omega), Extent.isClosed_add,
    behind, bodyExtent_of_stops stops]
  rfl

/-- A closing delimiter behind an open escape belongs to the escape, at least its first quote, so it
does not close the literal. -/
theorem isClosed_of_open {d : Delimiter} {body rest : List Char} (stops : d.Stops rest)
    (room : d.hashes ≤ body.length)
    (cut : bodyExtent d (d.hashes + escapedLength d.multiline (body.drop d.hashes ++ rest))
      (body ++ rest) = .cut body.length)
    (incomplete : (body.drop d.hashes).length < reach d.multiline (body.drop d.hashes)) :
    (bodyExtent d (d.hashes + escapedLength d.multiline (body.drop d.hashes ++ (d.closing ++ rest)))
      (body ++ (d.closing ++ rest))).isClosed = false := by
  cases left : body.drop d.hashes with
  | nil =>
    have bare : body.length = d.hashes :=
      Nat.le_antisymm (List.drop_eq_nil_iff.mp left) room
    rw [left, List.nil_append] at cut
    obtain rfl := eq_nil_of_cut_behind_escape stops bare cut
    rw [List.nil_append, List.append_nil]
    exact isClosed_of_bare_escape bare
  | cons c tail =>
    rw [left, reach] at incomplete
    split at incomplete
    · rename_i opens
      subst opens
      exact isClosed_of_open_interpolation stops left incomplete
    · simp at incomplete

/-- An escape whose opening has been read. If it is complete, what is known of the literal behind it
goes on to hold; if it is not, the closing delimiter belongs to it. -/
theorem isClosed_behind_escape {d : Delimiter} {body rest : List Char} (stops : d.Stops rest)
    (room : d.hashes ≤ body.length)
    (later : ∀ skipped, skipped ≤ body.length →
      bodyExtent d skipped (body ++ rest) = .cut body.length →
        (bodyExtent d skipped (body ++ (d.closing ++ rest))).isClosed = isWhole d skipped body)
    (cut : bodyExtent d (d.hashes + escapedLength d.multiline ((body ++ rest).drop d.hashes))
      (body ++ rest) = .cut body.length) :
    (bodyExtent d
      (d.hashes + escapedLength d.multiline ((body ++ (d.closing ++ rest)).drop d.hashes))
      (body ++ (d.closing ++ rest))).isClosed =
        isWhole d (d.hashes + reach d.multiline (body.drop d.hashes)) body := by
  rw [List.drop_append_of_le_length room] at cut ⊢
  by_cases complete : reach d.multiline (body.drop d.hashes) ≤ (body.drop d.hashes).length
  · rw [escapedLength_of_reach complete] at cut ⊢
    rw [List.length_drop] at complete
    exact later _ (by omega) cut
  · have cutOff : isWhole d (d.hashes + reach d.multiline (body.drop d.hashes)) body = false := by
      refine Bool.eq_false_iff.mpr fun whole => complete ?_
      rw [List.length_drop]
      exact Nat.le_sub_of_add_le' (le_length_of_isWhole whole)
    rw [isClosed_of_open stops room cut (Nat.lt_of_not_le complete), cutOff]

/-- A closing delimiter behind the body of a literal that is cut off closes the literal exactly if
no escape is open there. The induction is on the body. -/
theorem isClosed_bodyExtent_append {d : Delimiter} {skipped : Nat} {body rest : List Char}
    (stops : d.Stops rest) (room : skipped ≤ body.length)
    (cut : bodyExtent d skipped (body ++ rest) = .cut body.length) :
    (bodyExtent d skipped (body ++ (d.closing ++ rest))).isClosed = isWhole d skipped body := by
  obtain ⟨quoted, closing⟩ := d.closing_eq_cons
  induction body generalizing skipped with
  | nil =>
    obtain rfl := Nat.le_zero.mp room
    have closes : d.closing <+: '"' :: (quoted ++ rest) := by
      rw [closing]
      exact List.prefix_append ('"' :: quoted) rest
    rw [List.nil_append, closing, List.cons_append, bodyExtent_cons, if_pos closes]
    rfl
  | cons c body ih =>
    cases skipped with
    | succ skipped =>
      obtain ⟨inner, found, size⟩ := Extent.add_eq_cut_iff.mp cut
      obtain rfl := Nat.succ.inj size
      rw [List.cons_append, bodyExtent, Extent.isClosed_add,
        ih (Nat.le_of_succ_le_succ room) found]
      rfl
    | zero =>
      have escape (tail : List Char) (other : ∀ x ∈ tail.head?, x ∉ d.escape) :
          d.escape <+: c :: (body ++ tail) ↔ d.escape <+: c :: body :=
        Lexer.prefix_append_iff other (c :: body)
      have before := escape rest fun x first member =>
        d.not_mem_separators_of_mem_escape member
          ((Lexer.separates_of_halts stops.halts).mem_separators x first)
      have after := escape (d.closing ++ rest) (by
        rw [closing]
        simp [Delimiter.escape])
      simp only [List.cons_append, bodyExtent_cons, before] at cut
      simp only [List.cons_append, bodyExtent_cons, after, isWhole_cons]
      split at cut
      · cases cut
      rename_i closes
      split at cut
      · rename_i escapes
        obtain ⟨inner, found, size⟩ := Extent.add_eq_cut_iff.mp cut
        obtain rfl := Nat.succ.inj size
        have other : ¬d.closing <+: c :: (body ++ (d.closing ++ rest)) := by
          intro marks
          rw [closing] at marks
          have quote := (List.cons_prefix_cons.mp marks).1
          have slash := (List.cons_prefix_cons.mp escapes).1
          exact absurd (quote.trans slash.symm) (by simp)
        have inside : d.hashes ≤ body.length := by
          have short := escapes.length_le
          rw [d.length_escape] at short
          exact Nat.le_of_succ_le_succ short
        rw [if_neg other, if_pos escapes, if_pos escapes, Extent.isClosed_add]
        exact isClosed_behind_escape stops inside (fun _ => ih) found
      rename_i escapes
      rw [if_neg escapes, if_neg escapes]
      split at cut
      · cases cut
      rename_i goes
      obtain ⟨inner, found, size⟩ := Extent.add_eq_cut_iff.mp cut
      obtain rfl := Nat.succ.inj size
      split
      · -- quotes at the end of the body and quotes of the delimiter close the literal together
        rename_i marks
        have part : c :: body <+: d.closing := by
          refine (List.prefix_or_prefix_of_prefix marks
            (List.prefix_append (c :: body) (d.closing ++ rest))).resolve_left fun inside => ?_
          exact closes (inside.trans (List.prefix_append (c :: body) rest))
        refine (isWhole_of_forall_mem fun x member => ?_).symm
        obtain rfl | rfl :=
          d.eq_or_eq_of_mem_closing (part.subset (List.mem_cons_of_mem c member)) <;> simp
      · rw [Extent.isClosed_add]
        exact ih (Nat.zero_le _) found

/-- Hash signs say nothing in a literal with three quotes. -/
theorem isClosed_bodyExtent_hashes (hashes count : Nat) (rest : List Char) :
    (bodyExtent ⟨hashes, true⟩ 0 (List.replicate count '#' ++ rest)).isClosed =
      (bodyExtent ⟨hashes, true⟩ 0 rest).isClosed := by
  induction count with
  | zero => rfl
  | succ count ih =>
    rw [List.replicate_succ, List.cons_append, bodyExtent_cons]
    simp [Delimiter.closing, Delimiter.quotes, Delimiter.escape, List.cons_prefix_cons, ih]

/-- Whether a literal that is not closed consists of hash signs and two quotes. -/
def isDoubled (cs : List Char) : Bool :=
  cs == List.replicate (delimiter cs).hashes '#' ++ ['"', '"']

/-- Whether a literal that is not closed is closed by its closing delimiter, given what follows. -/
def isRemedied (cs rest : List Char) : Bool :=
  if isDoubled cs then (bodyExtent ⟨(delimiter cs).hashes, true⟩ 0 rest).isClosed
  else isWhole (delimiter cs) 0 (cs.drop (delimiter cs).openingLength)

theorem isDoubled_iff {hashes : Nat} {inner : List Char} :
    isDoubled (List.replicate hashes '#' ++ '"' :: inner) ↔ inner = ['"'] := by
  simp [isDoubled, delimiter_eq]

/-- The closing delimiter makes an opening with three quotes out of two quotes. -/
theorem isClosed_of_doubled (hashes : Nat) (rest : List Char) :
    (extent (List.replicate hashes '#' ++ ['"', '"'] ++
      ((Delimiter.mk hashes false).closing ++ rest))).isClosed =
        (bodyExtent ⟨hashes, true⟩ 0 rest).isClosed := by
  have three : List.replicate hashes '#' ++ ['"', '"'] ++
      ((Delimiter.mk hashes false).closing ++ rest) =
        (Delimiter.mk hashes true).opening ++ (List.replicate hashes '#' ++ rest) := by
    simp [Delimiter.closing, Delimiter.opening, Delimiter.quotes]
  have opening (tail : List Char) :
      delimiter ((Delimiter.mk hashes true).opening ++ tail) = ⟨hashes, true⟩ := by
    simp [Delimiter.opening, Delimiter.quotes, delimiter_eq, List.isPrefixOf]
  rw [three, extent, opening, Extent.isClosed_add, ← Delimiter.length_opening, List.drop_left,
    isClosed_bodyExtent_hashes]

/-- A closing delimiter has no bearing on how a literal opens, unless it is put behind two
quotes. -/
theorem delimiter_append_closing {hashes : Nat} {inner rest : List Char} (halts : Text.Halts rest)
    (single : ¬['"', '"'] <+: inner ++ rest) (other : inner ≠ ['"']) :
    ¬['"', '"'] <+: inner ++ ((Delimiter.mk hashes false).closing ++ rest) := by
  match inner with
  | [] =>
    intro three
    have behind : ['"'] <+: List.replicate hashes '#' ++ rest := (List.cons_prefix_cons.mp three).2
    cases hashes with
    | succ hashes => exact absurd (List.cons_prefix_cons.mp behind).1 (by simp)
    | zero =>
      cases rest with
      | nil => simp at behind
      | cons b after =>
        obtain ⟨rfl, -⟩ := List.cons_prefix_cons.mp behind
        cases halts '"' rfl
  | [c] =>
    intro three
    obtain ⟨rfl, -⟩ := List.cons_prefix_cons.mp three
    exact other rfl
  | c :: d :: inner =>
    simp only [List.cons_append, List.cons_prefix_cons, List.nil_prefix] at single ⊢
    exact single

theorem delimiter_append_of_not_isDoubled {cs rest : List Char}
    (opens : (cs.dropWhile (· == '#')).head? = some '"') (halts : Text.Halts rest)
    (same : delimiter (cs ++ rest) = delimiter cs) (doubled : ¬isDoubled cs) :
    delimiter (cs ++ ((delimiter cs).closing ++ rest)) = delimiter cs := by
  obtain ⟨hashes, inner, rfl⟩ := opens_iff.mp opens
  rw [isDoubled_iff] at doubled
  rw [delimiter_eq] at same ⊢
  rw [List.append_assoc, List.cons_append, delimiter_eq, Delimiter.mk.injEq] at same ⊢
  refine ⟨rfl, ?_⟩
  cases three : ['"', '"'].isPrefixOf inner with
  | true =>
    have starts := List.isPrefixOf_iff_prefix.mp three
    exact List.isPrefixOf_iff_prefix.mpr (starts.trans (List.prefix_append _ _))
  | false =>
    rw [three] at same
    rw [Bool.eq_false_iff, ne_eq, List.isPrefixOf_iff_prefix]
    exact delimiter_append_closing halts
      (fun starts => absurd (List.isPrefixOf_iff_prefix.mpr starts) (by simp [same.2])) doubled

/-- What a closing delimiter does to a literal that is cut off. -/
theorem isClosed_extent_append {cs rest : List Char}
    (opens : (cs.dropWhile (· == '#')).head? = some '"')
    (cut : extent (cs ++ rest) = .cut cs.length) :
    (extent (cs ++ ((delimiter cs).closing ++ rest))).isClosed = isRemedied cs rest := by
  obtain ⟨inner, body, size⟩ := Extent.add_eq_cut_iff.mp cut
  have room : (delimiter (cs ++ rest)).openingLength ≤ cs.length := by omega
  have same : delimiter (cs ++ rest) = delimiter cs := by
    have settled := @delimiter_settled cs rest [] (.inl Lexer.separates_nil) room
    rw [List.append_nil] at settled
    exact settled.symm
  rw [same] at body size room
  rw [List.drop_append_of_le_length room] at body
  have length : (cs.drop (delimiter cs).openingLength).length = inner := by
    rw [List.length_drop]
    omega
  have stops := stops_drop_of_bodyExtent_eq_cut body
  rw [← length, List.drop_left] at stops
  rw [isRemedied]
  split
  · rename_i doubled
    obtain ⟨hashes, quoted, rfl⟩ := opens_iff.mp opens
    obtain rfl := isDoubled_iff.mp doubled
    have single : delimiter (List.replicate hashes '#' ++ ['"', '"']) = ⟨hashes, false⟩ :=
      delimiter_eq hashes ['"']
    rw [single]
    exact isClosed_of_doubled hashes rest
  · rename_i doubled
    rw [extent, delimiter_append_of_not_isDoubled opens stops.halts same doubled,
      Extent.isClosed_add, List.drop_append_of_le_length room]
    exact isClosed_bodyExtent_append stops (Nat.zero_le _) (length ▸ body)

end StringLiteral

end SwiftTree
