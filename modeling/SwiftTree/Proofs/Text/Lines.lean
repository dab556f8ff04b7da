import SwiftTree.Text.Lines

/-!
# The lines of a text

The lines of a text, written one after the other, are the text. No line holds a line break except at
its end, and nothing ends the last line. So every boundary of the text is a place on one line.
-/

namespace SwiftTree.Text

theorem lines_ne_nil (cs : List Char) : lines cs ≠ [] := by
  fun_cases lines cs with
  | case5 c cs =>
    unfold consLine
    split <;> exact List.cons_ne_nil _ _
  | _ => exact List.cons_ne_nil _ _

/-- What holds of every line: it holds of a line with nothing on it, however the line ends, and
stays true when a character that breaks no line is put in front. -/
theorem forall_mem_lines {P : Line → Prop}
    (bare : ∀ terminator ∈ [[], ['\n'], ['\r'], ['\r', '\n']], P ⟨[], terminator⟩)
    (cons : ∀ {c line}, isLineBreak c = false → P line → P (line.cons c)) (cs : List Char) :
    ∀ line ∈ lines cs, P line := by
  fun_induction lines cs with
  | case1 => exact List.forall_mem_singleton.mpr (bare _ (by simp))
  | case2 cs ih => exact List.forall_mem_cons.mpr ⟨bare _ (by simp), ih⟩
  | case3 cs _ ih => exact List.forall_mem_cons.mpr ⟨bare _ (by simp), ih⟩
  | case4 cs ih => exact List.forall_mem_cons.mpr ⟨bare _ (by simp), ih⟩
  | case5 c cs joined carriage feed ih =>
    have plain : isLineBreak c = false := by
      simpa [isLineBreak] using ⟨feed, carriage⟩
    obtain ⟨first, rest, split⟩ := List.exists_cons_of_ne_nil (lines_ne_nil cs)
    rw [split, List.forall_mem_cons] at ih
    rw [split, consLine, List.forall_mem_cons]
    exact ⟨cons plain ih.1, ih.2⟩

theorem not_isLineBreak_of_mem_lines {cs : List Char} {line : Line} (member : line ∈ lines cs)
    {c : Char} (h : c ∈ line.content) : isLineBreak c = false := by
  suffices all : ∀ line ∈ lines cs, ∀ c ∈ line.content, isLineBreak c = false from
    all line member c h
  apply forall_mem_lines
  · exact fun _ _ => List.forall_mem_nil _
  · exact fun plain all => List.forall_mem_cons.mpr ⟨plain, all⟩

/-- What may end a line. -/
theorem terminator_of_mem_lines {cs : List Char} {line : Line} (h : line ∈ lines cs) :
    line.terminator ∈ [[], ['\n'], ['\r'], ['\r', '\n']] :=
  forall_mem_lines (P := fun line => line.terminator ∈ [[], ['\n'], ['\r'], ['\r', '\n']])
    (fun _ listed => listed) (fun _ listed => listed) cs line h

/-- Nothing ends the last line. -/
theorem terminator_of_getLast? {cs : List Char} {line : Line}
    (h : (lines cs).getLast? = some line) : line.terminator = [] := by
  fun_induction lines cs generalizing line with
  | case1 =>
    obtain rfl : ⟨[], []⟩ = line := by simpa using h
    rfl
  | case2 cs ih => exact ih (by rwa [List.getLast?_cons_of_ne_nil (lines_ne_nil cs)] at h)
  | case3 cs _ ih => exact ih (by rwa [List.getLast?_cons_of_ne_nil (lines_ne_nil cs)] at h)
  | case4 cs ih => exact ih (by rwa [List.getLast?_cons_of_ne_nil (lines_ne_nil cs)] at h)
  | case5 c cs _ _ _ ih =>
    obtain ⟨first, rest, split⟩ := List.exists_cons_of_ne_nil (lines_ne_nil cs)
    rw [split] at h ih
    cases rest with
    | nil =>
      obtain rfl : first.cons c = line := by simpa [consLine] using h
      exact @ih first rfl
    | cons second rest => exact ih h

/-- A line break ends every other line. -/
theorem terminator_of_mem_dropLast (cs : List Char) :
    ∀ line ∈ (lines cs).dropLast, line.terminator ≠ [] := by
  fun_induction lines cs with
  | case1 => simp
  | case2 cs ih => simpa [List.dropLast_cons_of_ne_nil (lines_ne_nil cs)] using ih
  | case3 cs _ ih => simpa [List.dropLast_cons_of_ne_nil (lines_ne_nil cs)] using ih
  | case4 cs ih => simpa [List.dropLast_cons_of_ne_nil (lines_ne_nil cs)] using ih
  | case5 c cs _ _ _ ih =>
    obtain ⟨first, rest, split⟩ := List.exists_cons_of_ne_nil (lines_ne_nil cs)
    rw [split] at ih ⊢
    cases rest with
    | nil => simp [consLine]
    | cons second rest => simpa [consLine, Line.cons] using ih

def charsAll (lines : List Line) : List Char :=
  lines.flatMap Line.chars

@[simp] theorem charsAll_nil : charsAll [] = [] := rfl

@[simp] theorem charsAll_cons (line : Line) (rest : List Line) :
    charsAll (line :: rest) = line.chars ++ charsAll rest := rfl

theorem charsAll_consLine (c : Char) (lines : List Line) :
    charsAll (consLine c lines) = c :: charsAll lines := by
  cases lines <;> rfl

/-- Cutting a text into lines loses nothing of it. -/
theorem charsAll_lines (cs : List Char) : charsAll (lines cs) = cs := by
  fun_induction lines cs with
  | case1 => rfl
  | case2 cs ih => simp [Line.chars, ih]
  | case3 cs _ ih => simp [Line.chars, ih]
  | case4 cs ih => simp [Line.chars, ih]
  | case5 c cs _ _ _ ih => rw [charsAll_consLine, ih]

/-- A place on a line, given by the characters of the line in front of it and behind it. The end of
the characters of a line is a place on that line only if nothing ends the line. -/
structure Line.Splits (line : Line) (front back : List Char) : Prop where
  chars : line.chars = front ++ back
  last : back = [] → line.terminator = []

theorem Line.Splits.eq_nil_of_singleton {b : Char} {front back : List Char}
    (h : (⟨[], [b]⟩ : Line).Splits front back) : front = [] := by
  obtain ⟨chars, last⟩ := h
  cases front with
  | nil => rfl
  | cons d front =>
    have none : front ++ back = [] := (List.cons.inj chars).2.symm
    exact absurd (last (List.append_eq_nil_iff.mp none).2) (by simp)

/-- Unless a place lies inside of a line break, what is in front of it is part of what stands on the
line. -/
theorem Line.Splits.prefix_content {line : Line} {front back : List Char}
    (h : line.Splits front back)
    (ends : line.terminator ∈ [[], ['\n'], ['\r'], ['\r', '\n']])
    (outside : ¬(front.getLast? = some '\r' ∧ back.head? = some '\n')) :
    front <+: line.content := by
  obtain ⟨chars, last⟩ := h
  obtain ⟨broken, rfl, parts⟩ | ⟨rest, content, -⟩ := List.append_eq_append_iff.mp chars
  · cases broken with
    | nil => simp
    | cons c broken =>
      have filled : back ≠ [] := by
        intro none
        have bare := last none
        rw [parts] at bare
        cases bare
      obtain ⟨d, rest, rfl⟩ := List.exists_cons_of_ne_nil filled
      -- only one line break has two characters
      have both : line.terminator = ['\r', '\n'] := by
        have long : 2 ≤ line.terminator.length := by
          rw [parts]
          simp
          omega
        simp only [List.mem_cons, List.not_mem_nil, or_false] at ends
        rcases ends with none | feed | carriage | both
        · simp [none] at long
        · simp [feed] at long
        · simp [carriage] at long
        · exact both
      rw [both] at parts
      obtain ⟨rfl, tail⟩ := List.cons.inj parts
      cases broken with
      | nil =>
        obtain ⟨rfl, -⟩ := List.cons.inj tail
        exact absurd ⟨List.getLast?_concat, rfl⟩ outside
      | cons e broken => simp at tail
  · exact ⟨rest, content.symm⟩

/-- Every boundary of a text is a place on one of the lines. The induction is on the lines, with
what stands in front of the boundary cut off line by line. -/
theorem exists_splits {ls : List Line} (filled : ls ≠ [])
    (ends : ∀ line, ls.getLast? = some line → line.terminator = []) {before after : List Char}
    (h : charsAll ls = before ++ after) :
    ∃ index line front back more, ls[index]? = some line ∧ line.Splits front back ∧
      before = charsAll (ls.take index) ++ front ∧ after = back ++ more := by
  induction ls generalizing before with
  | nil => exact absurd rfl filled
  | cons line rest ih =>
    have beyond (more : List Char) (front : before = line.chars ++ more)
        (later : charsAll rest = more ++ after) :
        ∃ index other front back further, (line :: rest)[index]? = some other ∧
          other.Splits front back ∧ before = charsAll ((line :: rest).take index) ++ front ∧
          after = back ++ further := by
      cases rest with
      | nil =>
        obtain ⟨rfl, rfl⟩ : more = [] ∧ after = [] := by simpa using later.symm
        have last := ends line rfl
        exact ⟨0, line, line.chars, [], [], rfl, ⟨by simp, fun _ => last⟩, by simp [front], rfl⟩
      | cons next rest =>
        obtain ⟨index, other, front', back, further, found, splits, parts, behind⟩ :=
          ih (List.cons_ne_nil _ _) ends later
        refine ⟨index + 1, other, front', back, further, found, splits, ?_, behind⟩
        rw [List.take_succ_cons, charsAll_cons, List.append_assoc, ← parts, front]
    rw [charsAll_cons] at h
    obtain ⟨back, chars, later⟩ | ⟨more, front, later⟩ := List.append_eq_append_iff.mp h.symm
    · by_cases inside : back = []
      · subst inside
        exact beyond [] (by simpa using chars.symm) (by simpa using later.symm)
      · exact ⟨0, line, before, back, _, rfl, ⟨chars, fun none => absurd none inside⟩, rfl, later⟩
    · exact beyond more front later

end SwiftTree.Text
