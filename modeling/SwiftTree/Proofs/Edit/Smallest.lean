import SwiftTree.Proofs.Edit.Span

/-!
# The smallest edit

Of all replacements of one stretch that turn a text into another, the edit between the two texts
replaces the fewest bytes and writes the fewest. Any other one leaves alone a start and an end that
both texts have. Its start is no longer than the one found, and its end either fits behind that
start, and then is no longer than the end found, or covers all that one of the texts has left, and
then so does the end found.
-/

namespace SwiftTree

namespace Text

/-- Whatever two texts both begin with is part of what they have in common there. -/
theorem isPrefix_commonStart {start as bs : List Char} (left : start <+: as)
    (right : start <+: bs) : start <+: commonStart as bs := by
  induction start generalizing as bs with
  | nil => exact List.nil_prefix
  | cons c start ih =>
    obtain ⟨as, rfl⟩ := left
    obtain ⟨bs, rfl⟩ := right
    rw [List.cons_append, List.cons_append, commonStart, if_pos rfl]
    exact List.cons_prefix_cons.mpr
      ⟨rfl, ih (List.prefix_append start as) (List.prefix_append start bs)⟩

theorem isSuffix_commonEnd {finish as bs : List Char} (left : finish <:+ as)
    (right : finish <:+ bs) : finish <:+ commonEnd as bs := by
  rw [← List.reverse_prefix, commonEnd, List.reverse_reverse]
  exact isPrefix_commonStart (List.reverse_prefix.mpr left) (List.reverse_prefix.mpr right)

theorem width_le_of_isPrefix {start cs : List Char} (h : start <+: cs) :
    width start ≤ width cs := by
  obtain ⟨rest, rfl⟩ := h
  rw [width_append]
  exact Nat.le_add_right _ _

theorem width_le_of_isSuffix {finish cs : List Char} (h : finish <:+ cs) :
    width finish ≤ width cs := by
  obtain ⟨rest, rfl⟩ := h
  rw [width_append]
  exact Nat.le_add_left _ _

/-- An end that reaches into the common start covers all that is left of one text. The shorter rest
is then what both rests end with. -/
theorem width_le_of_covered {as bs finish : List Char} (inside : as <:+ finish)
    {start : List Char} (ends : finish <:+ start ++ bs) :
    width as ≤ width (commonEnd as bs) ∨ width bs ≤ width (commonEnd as bs) := by
  obtain short | long :=
    List.suffix_or_suffix_of_suffix (inside.trans ends) (List.suffix_append start bs)
  · exact .inl (width_le_of_isSuffix (isSuffix_commonEnd (List.suffix_refl as) short))
  · exact .inr (width_le_of_isSuffix (isSuffix_commonEnd long (List.suffix_refl bs)))

theorem commonEnd_comm (as bs : List Char) : commonEnd as bs = commonEnd bs as := by
  rw [commonEnd, commonStart_comm, commonEnd]

/-- A start and an end that two texts have are together no longer than the longest start that they
have and the longest end of what follows it. -/
theorem width_common_le {as bs start finish old new : List Char}
    (left : as = start ++ old ++ finish) (right : bs = start ++ new ++ finish) :
    let most := commonStart as bs
    width start + width finish ≤
      width most + width (commonEnd (as.drop most.length) (bs.drop most.length)) := by
  intro most
  obtain ⟨as', has⟩ := commonStart_isPrefix_left as bs
  obtain ⟨bs', hbs⟩ := commonStart_isPrefix_right as bs
  have begins : start <+: most := by
    refine isPrefix_commonStart ?_ ?_
    · rw [left, List.append_assoc]
      exact List.prefix_append _ _
    · rw [right, List.append_assoc]
      exact List.prefix_append _ _
  have endsLeft : finish <:+ most ++ as' := by
    rw [has, left]
    exact List.suffix_append _ _
  have endsRight : finish <:+ most ++ bs' := by
    rw [hbs, right]
    exact List.suffix_append _ _
  have allLeft : width start + width finish ≤ width most + width as' := by
    rw [← width_append most, has, left, width_append, width_append]
    omega
  have allRight : width start + width finish ≤ width most + width bs' := by
    rw [← width_append most, hbs, right, width_append, width_append]
    omega
  have dropLeft : as.drop most.length = as' := by rw [← has, List.drop_left]
  have dropRight : bs.drop most.length = bs' := by rw [← hbs, List.drop_left]
  rw [dropLeft, dropRight]
  obtain fits | covers :=
    List.suffix_or_suffix_of_suffix endsLeft (List.suffix_append most as')
  · obtain fits' | covers' :=
      List.suffix_or_suffix_of_suffix endsRight (List.suffix_append most bs')
    · exact Nat.add_le_add (width_le_of_isPrefix begins)
        (width_le_of_isSuffix (isSuffix_commonEnd fits fits'))
    · have covered := width_le_of_covered covers' endsLeft
      rw [commonEnd_comm] at covered
      omega
  · have covered := width_le_of_covered covers endsRight
    omega

end Text

namespace Edit

/-- The edit turns one text into another, and no other replacement of one stretch that does so is
smaller. -/
structure IsSmallest (edit : Edit) (before after : String) : Prop where
  start : Text.IsBoundary before edit.start
  stop : Text.IsBoundary before edit.stop
  applies : edit.apply before = .ok after
  /-- Any other stretch that can be replaced to the same effect is as wide, and what replaces it
  is as wide as the new text. -/
  least : ∀ start stop left old right new,
    Text.cut? before start stop = some (left, old, right) → left ++ new ++ right = after →
      edit.stop - edit.start ≤ stop - start ∧ edit.newText.utf8ByteSize ≤ new.utf8ByteSize

/-- What the edit between two texts leaves alone are the longest start that they have and the
longest end of what follows it. -/
theorem width_of_between? {file before after : String} {edit : Edit}
    (found : between? file before after = some edit) :
    let start := Text.commonStart before.toList after.toList
    let finish := Text.commonEnd (before.toList.drop start.length) (after.toList.drop start.length)
    edit.start = Text.width start ∧ edit.stop + Text.width finish = before.utf8ByteSize ∧
      edit.start + edit.newText.utf8ByteSize + Text.width finish = after.utf8ByteSize := by
  intro start finish
  have parts (s : String) (begins : start <+: s.toList)
      (ends : finish <:+ s.toList.drop start.length) :
      s.utf8ByteSize = Text.width start + Text.width ((s.toList.drop start.length).take
        ((s.toList.drop start.length).length - finish.length)) + Text.width finish := by
    rw [← Text.width_toList, ← Text.width_append, ← Text.width_append,
      ← Text.eq_start_middle_finish begins ends]
  have old := parts before (Text.commonStart_isPrefix_left _ _) (Text.commonEnd_isSuffix_left _ _)
  have new := parts after (Text.commonStart_isPrefix_right _ _) (Text.commonEnd_isSuffix_right _ _)
  unfold between? at found
  split at found
  · cases found
  · cases found
    refine ⟨rfl, old.symm, ?_⟩
    rw [Text.utf8ByteSize_ofList]
    exact new.symm

theorem between?_eq_none_iff {file before after : String} :
    between? file before after = none ↔ before = after := by
  unfold between?
  split
  · rename_i same
    exact ⟨fun _ => same, fun _ => rfl⟩
  · rename_i different
    exact ⟨nofun, fun same => absurd same different⟩

/-- The edit between two texts may be applied to the first, and gives the second. -/
theorem apply_between? {file before after : String} {edit : Edit}
    (found : between? file before after = some edit) :
    Text.IsBoundary before edit.start ∧ Text.IsBoundary before edit.stop ∧
      edit.apply before = .ok after := by
  have different : before ≠ after := by
    intro same
    rw [between?_eq_none_iff.mpr same] at found
    cases found
  obtain ⟨edit', start, finish, found', -, old, new, hstart, hstop⟩ := between?_spec file different
  obtain rfl : edit = edit' := Option.some.inj (found.symm.trans found')
  have checked : edit.check before = .ok (start, edit.expected, finish) :=
    (check_eq_ok_iff (by omega)).mpr ⟨old, hstart.symm, hstop.symm, .inr rfl⟩
  refine ⟨⟨start, edit.expected ++ finish, ?_, hstart.symm⟩,
    ⟨start ++ edit.expected, finish, old, ?_⟩, ?_⟩
  · rw [old, String.append_assoc]
  · rw [String.utf8ByteSize_append, hstop]
  · rw [apply, checked, new]
    rfl

end Edit

/-- There is an edit between two texts exactly if they differ, and it is the smallest one: its ends
are boundaries between characters of the first text, applying it to the first text gives the second,
and every replacement of one stretch between such boundaries that has the same effect replaces as
many bytes at least and writes as many at least. -/
theorem edit_between_smallest (file before after : String) :
    (Edit.between? file before after = none ↔ before = after) ∧
      ∀ edit, Edit.between? file before after = some edit → edit.IsSmallest before after := by
  refine ⟨Edit.between?_eq_none_iff, fun edit found => ?_⟩
  obtain ⟨begins, ends, applies⟩ := Edit.apply_between? found
  obtain ⟨hstart, hstop, written⟩ := Edit.width_of_between? found
  refine ⟨begins, ends, applies, fun start stop left old right new cut result => ?_⟩
  obtain ⟨whole, rfl, rfl⟩ := Text.cut?_eq_some_iff.mp cut
  have hbefore : before.toList = left.toList ++ old.toList ++ right.toList := by
    rw [whole, String.toList_append, String.toList_append]
  have hafter : after.toList = left.toList ++ new.toList ++ right.toList := by
    rw [← result, String.toList_append, String.toList_append]
  have common := Text.width_common_le hbefore hafter
  rw [Text.width_toList, Text.width_toList] at common
  rw [whole, String.utf8ByteSize_append, String.utf8ByteSize_append, ← whole] at hstop
  rw [← result, String.utf8ByteSize_append, String.utf8ByteSize_append, result] at written
  omega

/-- A repeated letter is written once more: the start of the texts takes all of the first one, and
nothing is left to be their end. -/
theorem edit_between_smallest_repeated :
    ∃ edit, Edit.between? "t" "aéaé" "aéaéaé" = some edit ∧ (edit.start, edit.stop) = (6, 6) ∧
      edit.newText = "aé" ∧ edit.IsSmallest "aéaé" "aéaéaé" := by
  have facts : (Edit.between? "t" "aéaé" "aéaéaé").map
      (fun edit => (edit.start, edit.stop, edit.newText)) = some (6, 6, "aé") := by decide
  obtain ⟨edit, found, values⟩ := Option.map_eq_some_iff.mp facts
  simp only [Prod.mk.injEq] at values
  obtain ⟨hstart, hstop, text⟩ := values
  exact ⟨edit, found, by rw [hstart, hstop], text, (edit_between_smallest "t" _ _).2 edit found⟩

end SwiftTree
