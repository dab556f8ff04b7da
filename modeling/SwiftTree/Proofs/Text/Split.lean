import SwiftTree.Text.Width

/-!
# Splitting at byte offsets

A split of a text at a byte offset is a way to write the text as two parts, the first of which has
as many bytes as the offset says. Every character has a byte, so there is one such way at most, and
splitting finds it. Later arguments about positions use this and never the search itself.
-/

namespace SwiftTree.Text

theorem utf8ByteSize_ofList (cs : List Char) : (String.ofList cs).utf8ByteSize = width cs := by
  induction cs with
  | nil => rfl
  | cons c cs ih =>
    rw [String.ofList_cons, String.utf8ByteSize_append, String.utf8ByteSize_singleton, ih,
      width_cons]

theorem width_toList (s : String) : width s.toList = s.utf8ByteSize := by
  rw [← utf8ByteSize_ofList, String.ofList_toList]

/-- Splitting finds the parts of a text of which the first has the given number of bytes. -/
theorem splitChars?_eq_some_iff {offset : Nat} {cs before after : List Char} :
    splitChars? offset cs = some (before, after) ↔
      cs = before ++ after ∧ width before = offset := by
  induction cs generalizing offset before with
  | nil =>
    rw [splitChars?]
    constructor
    · intro h
      split at h
      · cases h
        exact ⟨rfl, by simp [*]⟩
      · cases h
    · rintro ⟨parts, rfl⟩
      obtain ⟨rfl, rfl⟩ := List.nil_eq_append_iff.mp parts
      simp
  | cons c cs ih =>
    have positive := c.utf8Size_pos
    rw [splitChars?]
    constructor
    · intro h
      split at h
      · cases h
        exact ⟨rfl, by simp [*]⟩
      split at h
      · cases h
      · obtain ⟨⟨first, second⟩, found, pair⟩ := Option.map_eq_some_iff.mp h
        cases pair
        obtain ⟨rfl, size⟩ := ih.mp found
        exact ⟨rfl, by rw [width_cons, size]; omega⟩
    · rintro ⟨parts, rfl⟩
      cases before with
      | nil =>
        obtain rfl : c :: cs = after := parts
        simp
      | cons d before =>
        rw [List.cons_append, List.cons.injEq] at parts
        obtain ⟨rfl, rfl⟩ := parts
        have found : splitChars? (width before) (before ++ after) = some (before, after) :=
          ih.mpr ⟨rfl, rfl⟩
        rw [width_cons, if_neg (by omega), if_neg (by omega), Nat.add_sub_cancel_left, found]
        rfl

theorem splitAt?_eq_some_iff {s before after : String} {offset : Nat} :
    splitAt? s offset = some (before, after) ↔
      s = before ++ after ∧ before.utf8ByteSize = offset := by
  unfold splitAt?
  constructor
  · intro h
    obtain ⟨⟨first, second⟩, found, pair⟩ := Option.map_eq_some_iff.mp h
    cases pair
    obtain ⟨chars, size⟩ := splitChars?_eq_some_iff.mp found
    refine ⟨?_, by rw [utf8ByteSize_ofList, size]⟩
    rw [← String.ofList_append, ← chars, String.ofList_toList]
  · rintro ⟨rfl, rfl⟩
    have found : splitChars? before.utf8ByteSize (before ++ after).toList =
        some (before.toList, after.toList) :=
      splitChars?_eq_some_iff.mpr ⟨String.toList_append, width_toList before⟩
    rw [found]
    simp

/-- A byte offset that lies between two characters of a text, or at one of its ends. -/
def IsBoundary (s : String) (offset : Nat) : Prop :=
  ∃ before after, s = before ++ after ∧ before.utf8ByteSize = offset

theorem isBoundary_iff_exists_chars {s : String} {offset : Nat} :
    IsBoundary s offset ↔ ∃ before after, s.toList = before ++ after ∧ width before = offset := by
  constructor
  · rintro ⟨before, after, rfl, rfl⟩
    exact ⟨before.toList, after.toList, String.toList_append, width_toList before⟩
  · rintro ⟨before, after, chars, rfl⟩
    refine ⟨String.ofList before, String.ofList after, ?_, utf8ByteSize_ofList before⟩
    rw [← String.ofList_append, ← chars, String.ofList_toList]

/-- A text can be split at its boundaries only. -/
theorem isBoundary_iff {s : String} {offset : Nat} :
    IsBoundary s offset ↔ (splitAt? s offset).isSome := by
  rw [Option.isSome_iff_exists, IsBoundary, Prod.exists]
  simp only [splitAt?_eq_some_iff]

instance (s : String) (offset : Nat) : Decidable (IsBoundary s offset) :=
  decidable_of_iff _ isBoundary_iff.symm

theorem IsBoundary.le {s : String} {offset : Nat} (h : IsBoundary s offset) :
    offset ≤ s.utf8ByteSize := by
  obtain ⟨before, after, rfl, rfl⟩ := h
  rw [String.utf8ByteSize_append]
  exact Nat.le_add_right _ _

/-- Two boundaries in order cut the characters of a text into three parts. -/
theorem exists_chars_of_isBoundary {s : String} {start stop : Nat} (first : IsBoundary s start)
    (second : IsBoundary s stop) (order : start ≤ stop) :
    ∃ before middle after, s.toList = before ++ middle ++ after ∧ width before = start ∧
      width (before ++ middle) = stop := by
  obtain ⟨front, rest, chars, rfl⟩ := isBoundary_iff_exists_chars.mp first
  obtain ⟨further, after, chars', rfl⟩ := isBoundary_iff_exists_chars.mp second
  obtain ⟨middle, rfl, -⟩ | ⟨middle, rfl, -⟩ :=
    List.append_eq_append_iff.mp (chars.symm.trans chars')
  · exact ⟨front, middle, after, chars', rfl, rfl⟩
  · -- the second boundary comes first only if both are the same
    cases middle with
    | nil => exact ⟨further, [], after, by simpa using chars', by simp, by simp⟩
    | cons c middle =>
      have positive := c.utf8Size_pos
      rw [width_append, width_cons] at order
      omega

theorem exists_cut_of_isBoundary {s : String} {start stop : Nat} (first : IsBoundary s start)
    (second : IsBoundary s stop) (order : start ≤ stop) :
    ∃ before middle after, s = before ++ middle ++ after ∧ before.utf8ByteSize = start ∧
      before.utf8ByteSize + middle.utf8ByteSize = stop := by
  obtain ⟨before, middle, after, chars, rfl, rfl⟩ := exists_chars_of_isBoundary first second order
  refine ⟨String.ofList before, String.ofList middle, String.ofList after, ?_, ?_, ?_⟩
  · rw [← String.ofList_append, ← String.ofList_append, ← chars, String.ofList_toList]
  · exact utf8ByteSize_ofList before
  · rw [utf8ByteSize_ofList, utf8ByteSize_ofList, width_append]

/-- A part of a text stands at a byte offset. -/
def StandsAt (s : String) (offset : Nat) (part : String) : Prop :=
  ∃ before after, s = before ++ (part ++ after) ∧ before.utf8ByteSize = offset

namespace StandsAt

variable {s part first second : String} {offset : Nat}

theorem whole (s : String) : StandsAt s 0 s :=
  ⟨"", "", by simp, rfl⟩

theorem start (h : StandsAt s offset part) : IsBoundary s offset := by
  obtain ⟨before, after, rfl, rfl⟩ := h
  exact ⟨before, part ++ after, rfl, rfl⟩

theorem left (h : StandsAt s offset (first ++ second)) : StandsAt s offset first := by
  obtain ⟨before, after, rfl, rfl⟩ := h
  exact ⟨before, second ++ after, by rw [String.append_assoc], rfl⟩

theorem right (h : StandsAt s offset (first ++ second)) :
    StandsAt s (offset + first.utf8ByteSize) second := by
  obtain ⟨before, after, rfl, rfl⟩ := h
  exact ⟨before ++ first, after, by simp only [String.append_assoc], String.utf8ByteSize_append ..⟩

theorem stop (h : StandsAt s offset part) : IsBoundary s (offset + part.utf8ByteSize) := by
  rw [← String.append_empty (s := part)] at h
  exact h.right.start

end StandsAt

/-- A text is cut into three parts of which the first two have the given numbers of bytes. -/
theorem cut?_eq_some_iff {s before middle after : String} {start stop : Nat} :
    cut? s start stop = some (before, middle, after) ↔
      s = before ++ middle ++ after ∧ before.utf8ByteSize = start ∧
        before.utf8ByteSize + middle.utf8ByteSize = stop := by
  unfold cut?
  constructor
  · intro h
    obtain ⟨⟨head, rest⟩, outer, h⟩ := Option.bind_eq_some_iff.mp h
    obtain ⟨⟨first, second⟩, inner, h⟩ := Option.bind_eq_some_iff.mp h
    cases h
    obtain ⟨rfl, rfl⟩ := splitAt?_eq_some_iff.mp outer
    obtain ⟨rfl, rfl⟩ := splitAt?_eq_some_iff.mp inner
    exact ⟨rfl, rfl, (String.utf8ByteSize_append ..).symm⟩
  · rintro ⟨rfl, rfl, rfl⟩
    have outer : splitAt? (before ++ middle ++ after)
        (before.utf8ByteSize + middle.utf8ByteSize) = some (before ++ middle, after) :=
      splitAt?_eq_some_iff.mpr ⟨rfl, String.utf8ByteSize_append ..⟩
    have inner : splitAt? (before ++ middle) before.utf8ByteSize = some (before, middle) :=
      splitAt?_eq_some_iff.mpr ⟨rfl, rfl⟩
    simp [outer, inner]

theorem between?_eq_some_iff {s middle : String} {start stop : Nat} :
    between? s start stop = some middle ↔
      ∃ before after, s = before ++ middle ++ after ∧ before.utf8ByteSize = start ∧
        before.utf8ByteSize + middle.utf8ByteSize = stop := by
  constructor
  · intro h
    obtain ⟨⟨before, inside, after⟩, cut, rfl⟩ := Option.map_eq_some_iff.mp h
    exact ⟨before, after, cut?_eq_some_iff.mp cut⟩
  · rintro ⟨before, after, parts⟩
    rw [between?, cut?_eq_some_iff.mpr parts, Option.map_some]

/-- A character boundary is the greatest one at or below itself. -/
theorem floorBoundary_width (before after : List Char) :
    floorBoundary (width before) (before ++ after) = width before := by
  induction before with
  | nil =>
    cases after with
    | nil => rfl
    | cons c after => simp [floorBoundary, c.utf8Size_pos]
  | cons c before ih =>
    rw [width_cons, List.cons_append, floorBoundary, if_neg (by omega), Nat.add_sub_cancel_left, ih]

/-- The greatest boundary at or below an offset is a boundary there. -/
theorem exists_floorBoundary_eq (offset : Nat) (cs : List Char) :
    ∃ before after, cs = before ++ after ∧ floorBoundary offset cs = width before ∧
      width before ≤ offset := by
  induction cs generalizing offset with
  | nil => exact ⟨[], [], rfl, rfl, Nat.zero_le _⟩
  | cons c cs ih =>
    unfold floorBoundary
    split
    · exact ⟨[], c :: cs, rfl, rfl, Nat.zero_le _⟩
    · rename_i beyond
      obtain ⟨before, after, chars, floor, below⟩ := ih (offset - c.utf8Size)
      refine ⟨c :: before, after, congrArg (c :: ·) chars, congrArg (c.utf8Size + ·) floor, ?_⟩
      rw [width_cons]
      omega

/-- What stands in front of an occurrence is how the text begins. -/
theorem isPrefix_of_before? {piece cs front : List Char} (h : before? piece cs = some front) :
    front <+: cs := by
  induction cs generalizing front with
  | nil =>
    rw [before?] at h
    split at h
    · cases h
      exact List.nil_prefix
    · cases h
  | cons c cs ih =>
    rw [before?] at h
    split at h
    · cases h
      exact List.nil_prefix
    · obtain ⟨more, found, rfl⟩ := Option.map_eq_some_iff.mp h
      exact List.cons_prefix_cons.mpr ⟨rfl, ih found⟩

/-- A piece is found at a boundary. -/
theorem isBoundary_of_find? {piece : List Char} {before after : String} {offset : Nat}
    (h : find? piece after.toList = some offset) :
    IsBoundary (before ++ after) (before.utf8ByteSize + offset) := by
  obtain ⟨front, found, rfl⟩ := Option.map_eq_some_iff.mp h
  obtain ⟨rest, chars⟩ := isPrefix_of_before? found
  refine isBoundary_iff_exists_chars.mpr ⟨before.toList ++ front, rest, ?_, ?_⟩
  · rw [String.toList_append, List.append_assoc, chars]
  · rw [width_append, width_toList]

/-- What a text begins with occurs first at its start. -/
theorem find?_of_isPrefix {piece cs : List Char} (h : piece <+: cs) : find? piece cs = some 0 := by
  unfold find?
  cases cs with
  | nil =>
    obtain rfl := List.prefix_nil.mp h
    rfl
  | cons c cs =>
    rw [before?, if_pos (List.isPrefixOf_iff_prefix.mpr h)]
    rfl

end SwiftTree.Text
