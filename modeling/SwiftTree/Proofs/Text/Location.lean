import SwiftTree.Proofs.Text.Walk

/-!
# Locations are coordinates

A walk through a text passes from one character boundary to the next, and each step leads to a later
location. So the locations of boundaries come in the order of the boundaries.

The location of a boundary is the number of its line and the number of characters in front of it on
that line. The way back from a location counts the same characters, but only up to the line break:
between a carriage return and its line feed there is a boundary that has a location and that no
location leads back to.
-/

namespace SwiftTree

open Text

namespace Location

/-- One location comes before another: on an earlier line, or on the same line in an earlier
column. -/
def Before (a b : Location) : Prop :=
  a.line < b.line ∨ a.line = b.line ∧ a.column < b.column

theorem Before.trans {a b c : Location} (first : a.Before b) (second : b.Before c) :
    a.Before c := by
  unfold Before at *
  omega

/-- Every step of a walk leads to a later location. -/
theorem before_step (here : Location) (c : Char) (rest : List Char) :
    here.Before (here.step c rest) := by
  unfold step Before
  split
  · exact .inl (Nat.lt_succ_self _)
  · exact .inr ⟨rfl, Nat.lt_succ_self _⟩

theorem before_passed (here : Location) (after : List Char) {cs : List Char} (h : cs ≠ []) :
    here.Before (here.passed after cs) := by
  induction cs generalizing here with
  | nil => exact absurd rfl h
  | cons c cs ih =>
    have first := before_step here c (cs ++ after)
    by_cases more : cs = []
    · subst more
      exact first
    · exact first.trans (ih _ more)

end Location

/-- Every character boundary of a text has a location. -/
theorem exists_locate (before after : String) :
    ∃ location, locate (before ++ after) before.utf8ByteSize = some location := by
  rw [locate_eq_walk, String.toList_append, ← width_toList]
  exact ⟨_, Location.walk_width ..⟩

/-- Of two boundaries, the later one has the later location. -/
theorem before_of_locate {text : String} {offset later : Nat} {here there : Location}
    (first : IsBoundary text offset) (second : IsBoundary text later) (order : offset < later)
    (found : locate text offset = some here) (next : locate text later = some there) :
    here.Before there := by
  obtain ⟨front, middle, rest, chars, rfl, rfl⟩ :=
    Text.exists_chars_of_isBoundary first second (Nat.le_of_lt order)
  have some_middle : middle ≠ [] := by
    rintro rfl
    rw [List.append_nil] at order
    exact absurd order (Nat.lt_irrefl _)
  rw [locate_eq_walk, chars, Location.walk_width, Location.passed_append] at next
  rw [locate_eq_walk, chars, List.append_assoc, Location.walk_width] at found
  obtain rfl := Option.some.inj found
  obtain rfl := Option.some.inj next
  exact Location.before_passed _ _ some_middle

theorem Text.lineFrom?_eq_some_iff {ls : List Line} {start found index : Nat} {line : Line} :
    lineFrom? start ls index = some (found, line) ↔
      ls[index]? = some line ∧ found = start + width (charsAll (ls.take index)) := by
  induction ls generalizing start index with
  | nil => simp [lineFrom?]
  | cons first rest ih =>
    cases index with
    | zero => simp [lineFrom?, eq_comm, and_comm]
    | succ index =>
      rw [lineFrom?, ih, List.getElem?_cons_succ, List.take_succ_cons, charsAll_cons, width_append,
        Nat.add_assoc]

/-- All that a location with an offset says. -/
theorem offsetOf?_eq_some_iff {text : String} {here : Location} {offset : Nat} :
    offsetOf? text here = some offset ↔ ∃ index count line,
      here = ⟨index + 1, count + 1⟩ ∧ (lines text.toList)[index]? = some line ∧
        count ≤ line.content.length ∧
        offset = width (charsAll ((lines text.toList).take index)) +
          width (line.content.take count) := by
  obtain ⟨number, column⟩ := here
  unfold offsetOf? line?
  cases number with
  | zero => simp
  | succ index =>
    constructor
    · intro h
      obtain ⟨⟨start, line⟩, found, h⟩ := Option.bind_eq_some_iff.mp h
      obtain ⟨listed, rfl⟩ := lineFrom?_eq_some_iff.mp found
      dsimp only at h
      split at h
      · cases h
      · rename_i inside
        obtain rfl := Option.some.inj h
        refine ⟨index, column - 1, line, ?_, listed, by omega, by rw [Nat.zero_add]⟩
        rw [Nat.sub_add_cancel (by omega)]
    · rintro ⟨_, count, line, same, listed, inside, rfl⟩
      cases same
      refine Option.bind_eq_some_iff.mpr ⟨_, lineFrom?_eq_some_iff.mpr ⟨listed, rfl⟩, ?_⟩
      dsimp only
      rw [if_neg (by omega), Nat.zero_add, Nat.add_sub_cancel]

/-- A location with an offset is the location of that offset. -/
theorem locate_of_offsetOf? {text : String} {here : Location} {offset : Nat}
    (h : offsetOf? text here = some offset) : locate text offset = some here := by
  obtain ⟨index, count, line, rfl, listed, inside, rfl⟩ := offsetOf?_eq_some_iff.mp h
  have splits : line.Splits (line.content.take count)
      (line.content.drop count ++ line.terminator) := by
    refine ⟨?_, fun none => (List.append_eq_nil_iff.mp none).2⟩
    rw [← List.append_assoc, List.take_append_drop, Line.chars]
  rw [locate_eq_walk, Location.walk_splits ⟨1, 1⟩ listed splits, Location.onLine_lineStart,
    List.length_take_of_le inside, Nat.add_comm 1 index]

/-- Where a boundary of a text is: on which line, and after which characters of that line. -/
theorem exists_line_of_boundary (text : String) {before after : List Char}
    (h : text.toList = before ++ after) :
    ∃ index line front back more, (lines text.toList)[index]? = some line ∧
      line.Splits front back ∧ before = charsAll ((lines text.toList).take index) ++ front ∧
      after = back ++ more ∧
      locate text (width before) = some ⟨index + 1, front.length + 1⟩ := by
  simp only [locate_eq_walk]
  exact Location.exists_walk_eq h

/-- The locations of a text are coordinates of its character boundaries. Each boundary, also the
end, has a location, and a later boundary has a later one. The way back leads from the location of a
boundary to the boundary, unless it lies between a carriage return and its line feed; and what a
location leads to has that location. The column counts the characters in front of the boundary on
its line; on a line of ASCII characters it counts bytes. -/
theorem locations_are_coordinates (text : String) :
    (∀ offset, IsBoundary text offset → ∃ here, locate text offset = some here ∧
      ∀ later, IsBoundary text later → offset < later →
        ∃ there, locate text later = some there ∧ here.Before there) ∧
    (∀ before after, text = before ++ after →
      ¬(before.toList.getLast? = some '\r' ∧ after.toList.head? = some '\n') →
      ∃ here, locate text before.utf8ByteSize = some here ∧
        offsetOf? text here = some before.utf8ByteSize) ∧
    (∀ here offset, offsetOf? text here = some offset → locate text offset = some here) ∧
    (∀ before after, text = before ++ after → ∃ here start line head front,
      locate text before.utf8ByteSize = some here ∧ line? text here.line = some (start, line) ∧
      before = head ++ front ∧ head.utf8ByteSize = start ∧ front.toList <+: line.chars ∧
      here.column = front.length + 1 ∧
      ((∀ c ∈ line.chars, c.toNat < 128) → here.column = before.utf8ByteSize - start + 1)) := by
  refine ⟨?_, ?_, fun here offset => locate_of_offsetOf?, ?_⟩
  · intro offset boundary
    obtain ⟨before, after, rfl, rfl⟩ := boundary
    obtain ⟨here, found⟩ := exists_locate before after
    refine ⟨here, found, ?_⟩
    intro later next order
    obtain ⟨before', after', same, rfl⟩ := next
    obtain ⟨there, found'⟩ := exists_locate before' after'
    rw [← same] at found'
    exact ⟨there, found', before_of_locate ⟨before, after, rfl, rfl⟩ ⟨before', after', same, rfl⟩
      order found found'⟩
  · rintro before after rfl outside
    obtain ⟨index, line, front, back, more, listed, splits, parts, behind, found⟩ :=
      exists_line_of_boundary (before ++ after) String.toList_append
    rw [width_toList] at found
    refine ⟨_, found, offsetOf?_eq_some_iff.mpr ⟨index, front.length, line, rfl, listed, ?_⟩⟩
    have content : front <+: line.content := by
      apply splits.prefix_content (terminator_of_mem_lines (List.mem_of_getElem? listed))
      rintro ⟨carriage, feed⟩
      apply outside
      rw [parts, behind, List.getLast?_append, List.head?_append, carriage, feed]
      exact ⟨rfl, rfl⟩
    refine ⟨content.length_le, ?_⟩
    rw [← List.prefix_iff_eq_take.mp content, ← width_append, ← parts, width_toList]
  · rintro before after rfl
    obtain ⟨index, line, front, back, more, listed, splits, parts, behind, found⟩ :=
      exists_line_of_boundary (before ++ after) String.toList_append
    rw [width_toList] at found
    refine ⟨_, _, line, String.ofList (charsAll ((lines (before ++ after).toList).take index)),
      String.ofList front, found, lineFrom?_eq_some_iff.mpr ⟨listed, rfl⟩, ?_, ?_, ?_, ?_, ?_⟩
    · rw [← String.ofList_append, ← parts, String.ofList_toList]
    · rw [utf8ByteSize_ofList, Nat.zero_add]
    · rw [String.toList_ofList, splits.chars]
      exact List.prefix_append _ _
    · rw [String.length_ofList]
    · intro ascii
      have bytes : width front = front.length := by
        apply width_of_ascii
        intro c member
        exact ascii c (splits.chars ▸ List.mem_append_left _ member)
      rw [← width_toList before, parts, width_append, bytes, Nat.zero_add, Nat.add_sub_cancel_left]

-- The boundary inside of a line break has a location, and no way leads back from it.
example : locate "a\r\nb" 2 = some ⟨1, 3⟩ ∧ offsetOf? "a\r\nb" ⟨1, 3⟩ = none := by decide +kernel

end SwiftTree
