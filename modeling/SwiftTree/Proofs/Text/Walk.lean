import SwiftTree.Location
import SwiftTree.Proofs.Text.Lines
import SwiftTree.Proofs.Text.Split

/-!
# Walking through a text

A walk passes through the characters of a text and counts lines and columns on the way. It leads to
the last boundary at or before an offset, and the location there is the number of the line and the
number of characters in front of the boundary on that line. The table of lines leads to the same
location: the starts of the lines increase, so the search finds the line, and on a line of ASCII
characters there are as many bytes as characters.
-/

namespace SwiftTree

open Text

namespace Location

/-- The location after a character, given what follows it. A carriage return that a line feed
follows does not end the line by itself. -/
def step (here : Location) (c : Char) (rest : List Char) : Location :=
  if c = '\n' ∨ (c = '\r' ∧ rest.head? ≠ some '\n') then ⟨here.line + 1, 1⟩
  else ⟨here.line, here.column + 1⟩

/-- The location of a byte offset, counted from a known location at the start of the run. -/
def walk (here : Location) (offset : Nat) : List Char → Option Location
  | [] => if offset = 0 then some here else none
  | c :: cs =>
    if offset < c.utf8Size then some here
    else walk (here.step c cs) (offset - c.utf8Size) cs

/-- Where a walk over some characters leads, given what follows them. -/
def passed (here : Location) (after : List Char) : List Char → Location
  | [] => here
  | c :: cs => passed (here.step c (cs ++ after)) after cs

theorem passed_append (here : Location) (first second after : List Char) :
    here.passed after (first ++ second) =
      (here.passed (second ++ after) first).passed after second := by
  induction first generalizing here with
  | nil => rfl
  | cons c first ih =>
    rw [List.cons_append, passed, passed, List.append_assoc]
    exact ih _

theorem walk_zero (here : Location) (cs : List Char) : here.walk 0 cs = some here := by
  cases cs with
  | nil => rfl
  | cons c cs => rw [walk, if_pos c.utf8Size_pos]

/-- A walk goes on from where the first characters lead. -/
theorem walk_width_add (here : Location) (offset : Nat) (first rest : List Char) :
    here.walk (width first + offset) (first ++ rest) =
      (here.passed rest first).walk offset rest := by
  induction first generalizing here with
  | nil => rw [width_nil, Nat.zero_add, List.nil_append, passed]
  | cons c first ih =>
    have size : width (c :: first) + offset - c.utf8Size = width first + offset := by
      rw [width_cons]
      omega
    rw [List.cons_append, walk, if_neg (by rw [width_cons]; omega), size, passed]
    exact ih _

theorem walk_width (here : Location) (first rest : List Char) :
    here.walk (width first) (first ++ rest) = some (here.passed rest first) := by
  have whole := walk_width_add here 0 first rest
  rwa [Nat.add_zero, walk_zero] at whole

/-- The location after a number of characters on the line with an index, counted from the line of a
known location. -/
def onLine (here : Location) : Nat → Nat → Location
  | 0, count => ⟨here.line, here.column + count⟩
  | index + 1, count => ⟨here.line + (index + 1), count + 1⟩

theorem onLine_lineStart (line index count : Nat) :
    (⟨line, 1⟩ : Location).onLine index count = ⟨line + index, count + 1⟩ := by
  cases index with
  | zero => simp [onLine, Nat.add_comm]
  | succ index => rfl

/-- A line break that a line begins with leads to the start of the next line. -/
theorem walk_lineBreak (here : Location) {terminator cs : List Char}
    (leads : here.passed cs terminator = ⟨here.line + 1, 1⟩) {ls : List Line} {index : Nat}
    {front : List Char}
    (later : Location.walk ⟨here.line + 1, 1⟩ (width (charsAll (ls.take index)) + width front) cs =
      some (Location.onLine ⟨here.line + 1, 1⟩ index front.length)) :
    here.walk (width (charsAll ((⟨[], terminator⟩ :: ls).take (index + 1))) + width front)
      (terminator ++ cs) = some (here.onLine (index + 1) front.length) := by
  have size : width (charsAll ((⟨[], terminator⟩ :: ls).take (index + 1))) + width front =
      width terminator + (width (charsAll (ls.take index)) + width front) := by
    rw [List.take_succ_cons, charsAll_cons, width_append, Line.chars, List.nil_append,
      Nat.add_assoc]
  rw [size, walk_width_add, leads, later, onLine_lineStart, onLine, Nat.add_assoc,
    Nat.add_comm 1 index]

/-- A character that breaks no line moves the column of the first line, and all other lines stay
where they are. -/
theorem walk_consLine (here : Location) {c : Char} {cs : List Char}
    (moves : here.step c cs = ⟨here.line, here.column + 1⟩) {first : Line} {ls : List Line}
    {back : List Char}
    (later : ∀ {index : Nat} {line : Line} {front : List Char},
      (first :: ls)[index]? = some line → line.Splits front back →
        (here.step c cs).walk (width (charsAll ((first :: ls).take index)) + width front) cs =
          some ((here.step c cs).onLine index front.length))
    {index : Nat} {line : Line} {front : List Char}
    (found : (consLine c (first :: ls))[index]? = some line) (splits : line.Splits front back) :
    here.walk (width (charsAll ((consLine c (first :: ls)).take index)) + width front) (c :: cs) =
      some (here.onLine index front.length) := by
  have passes (offset : Nat) :
      here.walk (c.utf8Size + offset) (c :: cs) = (here.step c cs).walk offset cs := by
    rw [walk, if_neg (by omega), Nat.add_sub_cancel_left]
  cases index with
  | zero =>
    obtain rfl := Option.some.inj found
    obtain ⟨chars, last⟩ := splits
    cases front with
    | nil => exact walk_zero here _
    | cons d front =>
      obtain ⟨rfl, inside⟩ := List.cons.inj chars
      have inner := @later 0 first front rfl ⟨inside, last⟩
      simp only [List.take_zero, charsAll_nil, width_nil, Nat.zero_add] at inner ⊢
      rw [width_cons, passes, inner, moves, onLine, onLine, List.length_cons,
        Nat.add_right_comm, Nat.add_assoc]
  | succ index =>
    have inner := @later (index + 1) line front found splits
    have size : width (charsAll ((consLine c (first :: ls)).take (index + 1))) + width front =
        c.utf8Size + (width (charsAll ((first :: ls).take (index + 1))) + width front) := by
      rw [consLine, List.take_succ_cons, List.take_succ_cons, ← consLine, charsAll_consLine,
        width_cons, Nat.add_assoc]
    rw [size, passes, inner, moves]
    rfl

/-- The location of a place on a line. The induction follows the lines; a character of the first
line moves the column, and a line break starts a new line. -/
theorem walk_splits (here : Location) {cs : List Char} {index : Nat} {line : Line}
    {front back : List Char} (found : (lines cs)[index]? = some line)
    (splits : line.Splits front back) :
    here.walk (width (charsAll ((lines cs).take index)) + width front) cs =
      some (here.onLine index front.length) := by
  fun_induction lines cs generalizing here index line front with
  | case1 =>
    obtain ⟨rfl, rfl⟩ : index = 0 ∧ ⟨[], []⟩ = line := by
      cases index with
      | zero => exact ⟨rfl, Option.some.inj found⟩
      | succ index => cases found
    obtain ⟨rfl, -⟩ := List.nil_eq_append_iff.mp splits.chars
    rfl
  | case2 cs ih =>
    cases index with
    | succ index => exact walk_lineBreak here rfl (ih _ found splits)
    | zero =>
      obtain rfl := Option.some.inj found
      obtain ⟨chars, last⟩ := splits
      cases front with
      | nil => exact walk_zero here _
      | cons d front =>
        obtain ⟨rfl, inside⟩ := List.cons.inj chars
        cases front with
        | nil => rfl
        | cons e front =>
          have none : front ++ back = [] := (List.cons.inj inside).2.symm
          exact absurd (last (List.append_eq_nil_iff.mp none).2) (by simp)
  | case3 cs apart ih =>
    have leads : here.passed cs ['\r'] = ⟨here.line + 1, 1⟩ := by
      have single : cs.head? ≠ some '\n' := by
        intro feed
        obtain ⟨rest, same⟩ := List.head?_eq_some_iff.mp feed
        exact apart rest same
      simp [passed, step, single]
    cases index with
    | succ index => exact walk_lineBreak here leads (ih _ found splits)
    | zero =>
      obtain rfl := Option.some.inj found
      obtain rfl := splits.eq_nil_of_singleton
      exact walk_zero here _
  | case4 cs ih =>
    cases index with
    | succ index => exact walk_lineBreak here (by simp [passed, step]) (ih _ found splits)
    | zero =>
      obtain rfl := Option.some.inj found
      obtain rfl := splits.eq_nil_of_singleton
      exact walk_zero here _
  | case5 c cs joined carriage feed ih =>
    have moves : here.step c cs = ⟨here.line, here.column + 1⟩ := by
      unfold step
      rw [if_neg]
      rintro (rfl | ⟨rfl, -⟩)
      · exact feed rfl
      · exact carriage rfl
    obtain ⟨first, rest, split⟩ := List.exists_cons_of_ne_nil (lines_ne_nil cs)
    rw [split] at found ih ⊢
    exact walk_consLine here moves (ih _) found splits

/-- No walk leads past the end. -/
theorem walk_eq_none (here : Location) {offset : Nat} {cs : List Char} (h : width cs < offset) :
    here.walk offset cs = none := by
  induction cs generalizing here offset with
  | nil => exact if_neg (Nat.ne_of_gt h)
  | cons c cs ih =>
    rw [width_cons] at h
    rw [walk, if_neg (by omega)]
    exact ih _ (by omega)

/-- A walk ends at the greatest boundary at or below its offset. -/
theorem walk_floorBoundary (here : Location) {offset : Nat} {cs : List Char}
    (h : offset ≤ width cs) : here.walk (floorBoundary offset cs) cs = here.walk offset cs := by
  induction cs generalizing here offset with
  | nil =>
    obtain rfl := Nat.le_zero.mp h
    rfl
  | cons c cs ih =>
    rw [width_cons] at h
    unfold floorBoundary
    split
    · rename_i inside
      rw [walk_zero, walk, if_pos inside]
    · rename_i beyond
      rw [walk, walk, if_neg (by omega), if_neg beyond, Nat.add_sub_cancel_left]
      exact ih _ (by omega)

/-- The location of a boundary: on which line it lies, and after which characters of that line. -/
theorem exists_walk_eq {cs before after : List Char} (h : cs = before ++ after) :
    ∃ index line front back more, (lines cs)[index]? = some line ∧ line.Splits front back ∧
      before = charsAll ((lines cs).take index) ++ front ∧ after = back ++ more ∧
      (⟨1, 1⟩ : Location).walk (width before) cs = some ⟨index + 1, front.length + 1⟩ := by
  obtain ⟨index, line, front, back, more, listed, splits, parts, behind⟩ :=
    exists_splits (lines_ne_nil cs) (fun _ => terminator_of_getLast?) ((charsAll_lines cs).trans h)
  refine ⟨index, line, front, back, more, listed, splits, parts, behind, ?_⟩
  rw [parts, width_append, walk_splits ⟨1, 1⟩ listed splits, onLine_lineStart, Nat.add_comm 1 index]

end Location

theorem Text.width_of_ascii {cs : List Char} (h : ∀ c ∈ cs, c.toNat < 128) :
    width cs = cs.length := by
  induction cs with
  | nil => rfl
  | cons c cs ih =>
    obtain ⟨first, rest⟩ := List.forall_mem_cons.mp h
    have size : c.utf8Size = 1 := Char.utf8Size_eq_one_iff.mpr (Nat.le_of_lt_succ first)
    rw [width_cons, size, ih rest, List.length_cons, Nat.add_comm]

namespace LineTable

theorem getElem?_startsFrom (offset : Nat) (ls : List Line) (index : Nat) :
    (startsFrom offset ls)[index]? =
      ls[index]?.map fun _ => offset + width (charsAll (ls.take index)) := by
  induction ls generalizing offset index with
  | nil => rfl
  | cons line rest ih =>
    cases index with
    | zero => simp [startsFrom]
    | succ index => simp [startsFrom, ih, width_append, Nat.add_assoc]

theorem length_startsFrom (offset : Nat) (ls : List Line) :
    (startsFrom offset ls).length = ls.length := by
  induction ls generalizing offset with
  | nil => rfl
  | cons line rest ih => exact congrArg (· + 1) (ih _)

/-- The search finds the number of lines, if no line that starts behind the offset comes before one
that does not. -/
theorem search_eq {starts : Array Nat} {offset low high count : Nat} (least : low ≤ count)
    (most : count ≤ high)
    (sorted : ∀ index, low ≤ index → index < high →
      (starts[index]?.any (· ≤ offset) = true ↔ index < count)) :
    search starts offset low high = count := by
  fun_induction search starts offset low high with
  | case1 low high wide middle reached ih =>
    have here := (sorted middle (by omega) (by omega)).mp reached
    exact ih here most fun index above => sorted index (by omega)
  | case2 low high wide middle reached ih =>
    have here := mt (sorted middle (by omega) (by omega)).mpr reached
    exact ih least (by omega) fun index above below => sorted index above (by omega)
  | case3 low high wide => omega

theorem start_mono (ls : List Line) {index other : Nat} (h : index ≤ other) :
    width (charsAll (ls.take index)) ≤ width (charsAll (ls.take other)) := by
  obtain ⟨between, parts⟩ := List.take_prefix_take_left h
  rw [← parts, charsAll, charsAll, List.flatMap_append, width_append]
  exact Nat.le_add_right _ _

theorem start_succ {ls : List Line} {index : Nat} {line : Line} (listed : ls[index]? = some line) :
    width (charsAll (ls.take (index + 1))) =
      width (charsAll (ls.take index)) + width line.chars := by
  rw [List.take_add_one, listed]
  simp [charsAll, width_append]

/-- The lines that start at or before a place are those up to the line of the place. -/
theorem start_le_iff {cs front back : List Char} {index other : Nat} {line : Line}
    (listed : (lines cs)[index]? = some line) (splits : line.Splits front back)
    (inside : other < (lines cs).length) :
    width (charsAll ((lines cs).take other)) ≤
        width (charsAll ((lines cs).take index)) + width front ↔ other < index + 1 := by
  constructor
  · intro before
    apply Nat.lt_of_not_le
    intro behind
    have ended : line.terminator ≠ [] := by
      apply terminator_of_mem_dropLast cs
      refine @List.mem_of_getElem? _ _ index _ ?_
      rw [List.getElem?_dropLast, if_pos (by omega), listed]
    have filled : 0 < width back := by
      cases back with
      | nil => exact absurd (splits.last rfl) ended
      | cons c back =>
        have positive := c.utf8Size_pos
        rw [width_cons]
        omega
    have next := start_mono (lines cs) behind
    rw [start_succ listed, splits.chars, width_append] at next
    omega
  · intro before
    have earlier := start_mono (lines cs) (Nat.le_of_lt_succ before)
    omega

theorem getElem?_starts (text : String) (index : Nat) : (ofText text).starts[index]? =
    (lines text.toList)[index]?.map fun _ => width (charsAll ((lines text.toList).take index)) := by
  simp [ofText, getElem?_startsFrom]

/-- The search leads to the line of a place. -/
theorem search_ofText {text : String} {front back : List Char} {index : Nat} {line : Line}
    (listed : (lines text.toList)[index]? = some line) (splits : line.Splits front back) :
    search (ofText text).starts (width (charsAll ((lines text.toList).take index)) + width front) 0
      (ofText text).starts.size = index + 1 := by
  have size : (ofText text).starts.size = (lines text.toList).length := by
    simp [ofText, length_startsFrom]
  have inside : index < (lines text.toList).length := (List.getElem?_eq_some_iff.mp listed).1
  refine search_eq (Nat.zero_le _) (size ▸ inside) ?_
  intro other _ below
  rw [size] at below
  rw [getElem?_starts, List.getElem?_eq_getElem below, Option.map_some, Option.any_some,
    decide_eq_true_iff, start_le_iff listed splits below]

/-- The table leads from a place to its line, and to its column there. -/
theorem locateBoundary_ofText {text : String} {before after front back : List Char} {index : Nat}
    {line : Line} (chars : text.toList = before ++ after)
    (listed : (lines text.toList)[index]? = some line) (splits : line.Splits front back)
    (parts : before = charsAll ((lines text.toList).take index) ++ front) :
    (ofText text).locateBoundary (width before) = some ⟨index + 1, front.length + 1⟩ := by
  have offset : width before = width (charsAll ((lines text.toList).take index)) + width front := by
    rw [parts, width_append]
  have ascii : (ofText text).ascii[index]? = some (isAscii line) := by
    simp [ofText, listed]
  rw [locateBoundary, offset, search_ofText listed splits, Nat.add_sub_cancel, getElem?_starts,
    listed, ascii]
  cases plain : isAscii line with
  | true =>
    have bytes : width front = front.length := by
      apply width_of_ascii
      intro c mem
      have all := List.all_eq_true.mp plain c (splits.chars ▸ List.mem_append_left back mem)
      exact of_decide_eq_true all
    simp [bytes]
  | false =>
    have text_eq : (ofText text).text = String.ofList (charsAll ((lines text.toList).take index)) ++
        String.ofList front ++ String.ofList after := by
      rw [← String.ofList_append, ← String.ofList_append, ← parts, ← chars, String.ofList_toList]
      rfl
    have cut := between?_eq_some_iff.mpr ⟨_, _, text_eq, utf8ByteSize_ofList _, rfl⟩
    rw [utf8ByteSize_ofList, utf8ByteSize_ofList] at cut
    simp [cut]

end LineTable

/-- The table of lines leads to where a walk leads. -/
theorem locate_eq_walk (text : String) (offset : Nat) :
    locate text offset = (⟨1, 1⟩ : Location).walk offset text.toList := by
  have unfolded : locate text offset = if text.utf8ByteSize < offset then none
      else (LineTable.ofText text).locateBoundary (floorBoundary offset text.toList) := rfl
  rw [unfolded]
  split
  · rename_i past
    rw [Location.walk_eq_none _ (by rwa [width_toList])]
  · rename_i within
    obtain ⟨before, after, chars, floor, -⟩ := exists_floorBoundary_eq offset text.toList
    obtain ⟨index, line, front, back, more, listed, splits, parts, -, leads⟩ :=
      Location.exists_walk_eq chars
    rw [← Location.walk_floorBoundary _ (by rw [width_toList]; omega), floor, leads,
      LineTable.locateBoundary_ofText chars listed splits parts]

end SwiftTree
