import SwiftTree.Documentation
import SwiftTree.Proofs.Text.Lines
import SwiftTree.Proofs.Trivia.Sound

/-!
# Documentation is sound trivia

Whatever the documentation text is, the comments written for it are sound: a line of it holds no
line break, and a block is closed as often as it was opened. Taking documentation away keeps trivia
sound as well, since whole lines go, or comments that no line break has to follow. So sound leading
trivia stays sound when the documentation in it is changed.
-/

namespace SwiftTree

open Lexer

namespace Comment

open Documentation (closing)

theorem toList_closing (depth : Nat) :
    (closing (depth + 1)).toList = ' ' :: '*' :: '/' :: (closing depth).toList := by
  rw [closing, String.toList_append]
  rfl

theorem bodyExtent_closing (depth : Nat) :
    bodyExtent depth (closing (depth + 1)).toList =
      .closed (closing (depth + 1)).toList.length := by
  induction depth with
  | zero => rfl
  | succ depth ih =>
    rw [toList_closing, bodyExtent_cons_cons, bodyExtent_cons_cons]
    simp [ih, Extent.add]

/-- A comment that is not closed is closed by as many ends as there are levels open. -/
theorem bodyExtent_append_closing : (cs : List Char) → {outer depth : Nat} →
    bodyExtent outer cs = .unclosed depth →
    bodyExtent outer (cs ++ (closing depth).toList) =
      .closed (cs.length + (closing depth).toList.length)
  | [], outer, depth, h => by
    obtain rfl : outer + 1 = depth := by simpa [bodyExtent] using h
    simpa using bodyExtent_closing outer
  | [c], outer, depth, h => by
    obtain rfl : outer + 1 = depth := by simpa [bodyExtent_singleton] using h
    have ends := bodyExtent_closing outer
    rw [toList_closing] at ends ⊢
    rw [List.singleton_append, bodyExtent_cons_cons, ends]
    simp [Extent.add, Nat.add_comm]
  | c :: d :: cs, outer, depth, h => by
    rw [bodyExtent_cons_cons] at h
    simp only [List.cons_append, bodyExtent_cons_cons, List.length_cons]
    split at h
    · rename_i opens
      rw [if_pos opens, bodyExtent_append_closing cs (Extent.add_eq_unclosed_iff.mp h)]
      simp only [Extent.add, Extent.closed.injEq]
      omega
    rename_i opens
    rw [if_neg opens]
    split at h
    · rename_i closes
      rw [if_pos closes]
      split at h
      · cases h
      · rename_i nested
        rw [if_neg nested, bodyExtent_append_closing cs (Extent.add_eq_unclosed_iff.mp h)]
        simp only [Extent.add, Extent.closed.injEq]
        omega
    · rename_i goes
      have later := bodyExtent_append_closing (d :: cs) (Extent.add_eq_unclosed_iff.mp h)
      rw [List.cons_append] at later
      rw [if_neg goes, later]
      simp only [Extent.add, Extent.closed.injEq, List.length_cons]
      omega

theorem extent_append_closing {cs : List Char} {depth : Nat} (h : extent cs = .unclosed depth) :
    extent (cs ++ (closing depth).toList) = .closed (cs ++ (closing depth).toList).length := by
  unfold extent at h
  split at h
  · rename_i body
    have closed := bodyExtent_append_closing body (Extent.add_eq_unclosed_iff.mp h)
    simp only [List.cons_append, extent, closed, Extent.add, List.length_cons, List.length_append]
  · cases h

end Comment

namespace Documentation

theorem shapeFrom_cons_cons (depth : Nat) (c d : Char) (cs : List Char) :
    shapeFrom depth (c :: d :: cs) =
      if c = '/' ∧ d = '*' then shapeFrom (depth + 1) cs
      else if c = '*' ∧ d = '/' ∧ 0 < depth then
        if depth = 1 then (if cs.isEmpty then .closed else .closedEarly)
        else shapeFrom (depth - 1) cs
      else shapeFrom depth (d :: cs) := by
  by_cases opens : c = '/' ∧ d = '*'
  · obtain ⟨rfl, rfl⟩ := opens
    cases depth <;> rfl
  rw [if_neg opens]
  by_cases closes : c = '*' ∧ d = '/' ∧ 0 < depth
  · obtain ⟨rfl, rfl, some⟩ := closes
    obtain ⟨outer, rfl⟩ := Nat.exists_eq_succ_of_ne_zero (Nat.ne_of_gt some)
    cases outer <;> rfl
  rw [if_neg closes, shapeFrom]
  · rintro rest rfl ⟨⟩
    exact opens ⟨rfl, rfl⟩
  · rintro outer rest rfl rfl ⟨⟩
    exact closes ⟨rfl, rfl, Nat.zero_lt_succ _⟩

theorem shapeFrom_singleton (depth : Nat) (c : Char) : shapeFrom depth [c] = .unclosed depth := by
  cases depth <;> simp [shapeFrom]

/-- The shape of a text of some length that begins with a comment of some extent. -/
def BlockShape.ofExtent (size : Nat) : Comment.Extent → BlockShape
  | .closed length => if length = size then .closed else .closedEarly
  | .unclosed depth => .unclosed depth

/-- What stands in front counts for the comment and for the text alike. -/
theorem BlockShape.ofExtent_add (size count : Nat) (extent : Comment.Extent) :
    ofExtent (size + count) (extent.add count) = ofExtent size extent := by
  cases extent <;> simp [Comment.Extent.add, ofExtent]

/-- Inside a comment both scans go through the same levels. The scan for the shape counts all of
them, and the scan for the extent only the ones inside of the comment. -/
theorem shapeFrom_eq : (cs : List Char) → (outer : Nat) →
    shapeFrom (outer + 1) cs = .ofExtent cs.length (Comment.bodyExtent outer cs)
  | [], _ => rfl
  | [c], outer => by rw [shapeFrom_singleton, Comment.bodyExtent_singleton]; rfl
  | c :: d :: cs, outer => by
    have size : (c :: d :: cs).length = cs.length + 2 := rfl
    rw [shapeFrom_cons_cons, Comment.bodyExtent_cons_cons]
    by_cases opens : c = '/' ∧ d = '*'
    · rw [if_pos opens, if_pos opens, size, BlockShape.ofExtent_add, shapeFrom_eq cs (outer + 1)]
    rw [if_neg opens, if_neg opens]
    by_cases closes : c = '*' ∧ d = '/'
    · rw [if_pos ⟨closes.1, closes.2, Nat.zero_lt_succ _⟩, if_pos closes]
      cases outer with
      | zero => cases cs <;> simp [BlockShape.ofExtent]
      | succ outer =>
        rw [if_neg (by omega), if_neg (by omega), size, BlockShape.ofExtent_add]
        exact shapeFrom_eq cs outer
    · rw [if_neg (fun both => closes ⟨both.1, both.2.1⟩), if_neg closes]
      exact (shapeFrom_eq (d :: cs) outer).trans (BlockShape.ofExtent_add _ 1 _).symm

/-- The shape of a text that begins with a comment says how far the comment goes. -/
theorem blockShape_eq {text : String} (opens : ['/', '*'] <+: text.toList) :
    blockShape text = .ofExtent text.toList.length (Comment.extent text.toList) := by
  unfold blockShape
  obtain ⟨body, chars⟩ := opens
  rw [← chars]
  exact (shapeFrom_eq body 0).trans (BlockShape.ofExtent_add _ 2 _).symm

section

variable {text : String} (opens : ['/', '*'] <+: text.toList)

include opens

theorem blockShape_eq_closed_iff :
    blockShape text = .closed ↔ Comment.extent text.toList = .closed text.toList.length := by
  rw [blockShape_eq opens]
  cases Comment.extent text.toList <;> simp [BlockShape.ofExtent]

theorem blockShape_eq_unclosed_iff {depth : Nat} :
    blockShape text = .unclosed depth ↔ Comment.extent text.toList = .unclosed depth := by
  rw [blockShape_eq opens]
  cases Comment.extent text.toList with
  | closed length =>
    by_cases all : length = text.toList.length <;> simp [BlockShape.ofExtent, all]
  | unclosed depth => simp [BlockShape.ofExtent]

theorem blockShape_eq_closedEarly_iff :
    blockShape text = .closedEarly ↔ Comment.length text.toList < text.toList.length := by
  have within := Comment.length_le text.toList
  rw [blockShape_eq opens]
  cases found : Comment.extent text.toList with
  | closed size =>
    have all : Comment.length text.toList = size := by rw [Comment.length, found]
    rw [all] at within ⊢
    by_cases whole : size = text.toList.length
    · simp [BlockShape.ofExtent, whole]
    · simp only [BlockShape.ofExtent, if_neg whole, true_iff]
      omega
  | unclosed depth => simp [BlockShape.ofExtent, Comment.length, found]

end

theorem mem_of_mem_dropTrailingBlanks {c : Char} {cs : List Char}
    (h : c ∈ Text.dropTrailingBlanks cs) : c ∈ cs := by
  rw [Text.dropTrailingBlanks, List.mem_reverse] at h
  exact List.mem_reverse.mp ((List.dropWhile_sublist _).mem h)

theorem mem_of_mem_dropBlanks {c : Char} {cs : List Char} (h : c ∈ Text.dropBlanks cs) : c ∈ cs :=
  (List.dropWhile_sublist _).mem h

/-- A documentation comment for one line begins with slashes and holds only what the line holds. -/
theorem lineComment_spec (line : List Char) :
    ['/', '/', '/'] <+: (lineComment line).toList ∧
      ∀ c ∈ (lineComment line).toList, c = '/' ∨ c = ' ' ∨ c ∈ line := by
  have slashes : "///".toList = ['/', '/', '/'] := rfl
  have spaced : "/// ".toList = ['/', '/', '/', ' '] := rfl
  simp only [lineComment, slashes]
  split
  · rename_i marked
    rw [String.toList_ofList]
    refine ⟨?_, fun c member => .inr (.inr ?_)⟩
    · exact List.isPrefixOf_iff_prefix.mp marked
    · exact mem_of_mem_dropTrailingBlanks (mem_of_mem_dropBlanks member)
  split
  · rw [slashes]
    exact ⟨List.prefix_rfl, fun c member => by simp_all⟩
  · rw [String.toList_append, spaced, String.toList_ofList]
    refine ⟨⟨' ' :: Text.dropTrailingBlanks line, rfl⟩, fun c member => ?_⟩
    obtain mark | inside := List.mem_append.mp member
    · have known : c = '/' ∨ c = ' ' := by simpa using mark
      exact known.imp id .inl
    · exact .inr (.inr (mem_of_mem_dropTrailingBlanks inside))

/-- The comments for a documentation text are sound, whatever the text is. -/
theorem sound_of_mem_pieces {text : String} {piece : Piece} (h : piece ∈ pieces text) :
    piece.Sound := by
  have lines {text : String} (member : piece ∈ lineComments text) : piece.Sound := by
    obtain ⟨line, found, rfl⟩ := List.mem_map.mp member
    obtain ⟨opens, holds⟩ := lineComment_spec line.content
    refine ⟨.trans ⟨['/'], rfl⟩ opens, fun c inside => ?_⟩
    obtain rfl | rfl | own := holds c inside
    · rfl
    · rfl
    · exact Text.not_isLineBreak_of_mem_lines found own
  have stars : "/**".toList = ['/', '*', '*'] := rfl
  simp only [pieces, stars, List.isPrefixOf_iff_prefix] at h
  generalize Text.trim text = text at h
  split at h
  · cases h
  split at h
  case isFalse => exact lines h
  rename_i block
  have opens : ['/', '*'] <+: text.toList := .trans ⟨['*'], rfl⟩ block
  split at h
  · rename_i closed
    obtain rfl := List.mem_singleton.mp h
    exact ⟨opens, (blockShape_eq_closed_iff opens).mp closed⟩
  · rename_i depth unclosed
    obtain rfl := List.mem_singleton.mp h
    have closed := Comment.extent_append_closing ((blockShape_eq_unclosed_iff opens).mp unclosed)
    rw [← String.toList_append] at closed
    refine ⟨?_, closed⟩
    rw [String.toList_append]
    exact opens.trans (List.prefix_append _ _)
  · exact lines h

end Documentation

namespace Trivia

theorem splitLines_newline {piece : Piece} (h : piece.isNewline) (rest : Trivia) :
    splitLines (piece :: rest) = ([piece] :: (splitLines rest).1, (splitLines rest).2) := by
  simp [splitLines, h]

/-- A piece that is no line break goes to the first line behind it, or else stays on the line of the
token. -/
theorem splitLines_cons_of_nil {piece : Piece} {rest : Trivia} (inner : piece.isNewline = false)
    (found : (splitLines rest).1 = []) :
    splitLines (piece :: rest) = ([], piece :: (splitLines rest).2) := by
  simp [splitLines, inner, found]

theorem splitLines_cons_of_cons {piece : Piece} {rest line : Trivia} {later : List Trivia}
    (inner : piece.isNewline = false) (found : (splitLines rest).1 = line :: later) :
    splitLines (piece :: rest) = ((piece :: line) :: later, (splitLines rest).2) := by
  simp [splitLines, inner, found]

theorem Sound.of_isNewline {piece : Piece} (h : piece.Sound) (newline : piece.isNewline) :
    Sound [piece] := by
  have kind : piece.kind = .newline := by simpa [Piece.isNewline] using newline
  exact ⟨h, by simp [Piece.runsToBreak, kind], trivial⟩

/-- Each line of sound trivia is sound by itself, since line breaks stay with the lines that they
end. -/
theorem Sound.splitLines {trivia : Trivia} (h : trivia.Sound) :
    (∀ line ∈ trivia.splitLines.1, Sound line) ∧ Sound trivia.splitLines.2 := by
  induction trivia with
  | nil => exact ⟨nofun, trivial⟩
  | cons piece rest ih =>
    obtain ⟨sound, follows, later⟩ := h
    obtain ⟨lines, own⟩ := ih later
    by_cases newline : piece.isNewline
    · rw [splitLines_newline newline]
      exact ⟨List.forall_mem_cons.mpr ⟨.of_isNewline sound newline, lines⟩, own⟩
    have next (runs : piece.runsToBreak) :
        ∃ feed more, (Trivia.splitLines rest).1 = [feed] :: more ∧ feed.isNewline := by
      cases rest with
      | nil => cases follows runs
      | cons feed rest =>
        rw [splitLines_newline (follows runs)]
        exact ⟨feed, _, rfl, follows runs⟩
    cases found : (Trivia.splitLines rest).1 with
    | nil =>
      rw [splitLines_cons_of_nil (by simpa using newline) found]
      refine ⟨nofun, sound, fun runs => ?_, own⟩
      obtain ⟨feed, more, equation, -⟩ := next runs
      rw [equation] at found
      cases found
    | cons line others =>
      rw [found, List.forall_mem_cons] at lines
      rw [splitLines_cons_of_cons (by simpa using newline) found]
      refine ⟨List.forall_mem_cons.mpr ⟨⟨sound, fun runs => ?_, lines.1⟩, lines.2⟩, own⟩
      obtain ⟨feed, more, equation, breaks⟩ := next runs
      rw [equation] at found
      cases found
      exact breaks

theorem dropDocumentation_newline {piece : Piece} (h : piece.isNewline) (after : Bool)
    (rest : Trivia) :
    dropDocumentation after (piece :: rest) = piece :: dropDocumentation false rest := by
  have kind : piece.kind = .newline := by simpa [Piece.isNewline] using h
  simp [dropDocumentation, Piece.isDocumentation, Piece.isWhitespace, kind,
    TriviaKind.isDocumentation]

/-- Line breaks are kept, so what needs one behind it still has it. -/
theorem Sound.dropDocumentation {trivia : Trivia} (h : trivia.Sound) (after : Bool) :
    Sound (trivia.dropDocumentation after) := by
  induction trivia generalizing after with
  | nil => trivial
  | cons piece rest ih =>
    obtain ⟨sound, follows, later⟩ := h
    rw [Trivia.dropDocumentation]
    split
    · exact ih later true
    split
    · exact ih later false
    · refine ⟨sound, fun runs => ?_, ih later false⟩
      cases rest with
      | nil => cases follows runs
      | cons next rest =>
        rw [dropDocumentation_newline (follows runs)]
        exact follows runs

theorem Sound.flatMap {α : Type} {xs : List α} {f : α → Trivia} (h : ∀ x ∈ xs, Sound (f x)) :
    Sound (xs.flatMap f) := by
  induction xs with
  | nil => trivial
  | cons x xs ih =>
    obtain ⟨first, later⟩ := List.forall_mem_cons.mp h
    exact first.append (ih later)

/-- What is left, without documentation, of the lines that end in front of the token. -/
def keptLines (trivia : Trivia) : Trivia :=
  (trivia.splitLines.1.filter fun line => !line.isDocumentationLine).flatMap
    (dropDocumentation false)

/-- What is left, without documentation, of the line that the token stands on. -/
def keptOwn (trivia : Trivia) : Trivia :=
  trivia.splitLines.2.dropDocumentation false

theorem Sound.keptLines {trivia : Trivia} (h : trivia.Sound) : Sound trivia.keptLines :=
  .flatMap fun line member =>
    (h.splitLines.1 line (List.mem_of_mem_filter member)).dropDocumentation false

theorem Sound.keptOwn {trivia : Trivia} (h : trivia.Sound) : Sound trivia.keptOwn :=
  h.splitLines.2.dropDocumentation false

theorem Sound.isSpace_of_mem_indentation {line : Trivia} (h : line.Sound) {c : Char}
    (member : c ∈ line.indentation.toList) : isSpace c := by
  induction line with
  | nil => cases member
  | cons piece rest ih =>
    obtain ⟨sound, -, later⟩ := h
    by_cases blank : piece.isWhitespace
    · rw [indentation, List.takeWhile_cons_of_pos blank, render, String.toList_append,
        List.mem_append] at member
      have kind : piece.kind = .whitespace := by simpa [Piece.isWhitespace] using blank
      simp only [Piece.Sound, kind] at sound
      obtain here | there := member
      · exact sound.2 c here
      · exact ih later there
    · rw [indentation, List.takeWhile_cons_of_neg blank] at member
      cases member

end Trivia

namespace Documentation

open Trivia (Sound)

variable {leading : Trivia} {text : Option String} {newline : String} {startsLine : Bool}

theorem sound_block {indentation : String} {comments : Trivia}
    (blank : ∀ c ∈ indentation.toList, isSpace c) (line : (Piece.newline newline).Sound)
    (sound : ∀ piece ∈ comments, piece.Sound) : Sound (block indentation newline comments) := by
  apply Sound.flatMap
  intro comment member
  have own : Sound [comment, .newline newline] :=
    ⟨sound comment member, fun _ => rfl, line, nofun, trivial⟩
  split
  · exact own
  · rename_i some
    have filled : indentation.toList ≠ [] := by simpa [String.isEmpty_iff] using some
    exact Sound.append ⟨⟨filled, blank⟩, nofun, trivial⟩ own

/-- Leading trivia stays sound when its documentation is changed. -/
theorem sound_setDocumentation (h : leading.Sound) (line : (Piece.newline newline).Sound) :
    Sound (setDocumentation leading text newline startsLine) := by
  have kept := h.keptLines
  have own := h.keptOwn
  have comments : ∀ piece ∈ (text.map pieces).getD [], piece.Sound := by
    cases text with
    | none => nofun
    | some text =>
      rw [Option.map_some, Option.getD_some]
      exact fun piece => sound_of_mem_pieces
  simp only [setDocumentation]
  split
  · exact kept.append own
  · refine ((kept.append ?_).append ?_).append own
    · split
      · trivial
      · exact .of_isNewline line rfl
    · exact sound_block (fun c => own.isSpace_of_mem_indentation) line comments

/-- A first line without documentation stays in front. -/
theorem setDocumentation_of_splitLines {line rest : Trivia}
    (parts : leading.splitLines = (line :: rest.splitLines.1, rest.splitLines.2))
    (plain : line.isDocumentationLine = false) (kept : line.dropDocumentation false = line) :
    setDocumentation leading text newline startsLine =
      line ++ setDocumentation rest text newline startsLine := by
  simp only [setDocumentation, parts, List.filter_cons, plain, Bool.not_false, if_true,
    List.flatMap_cons, kept]
  split
  · rw [List.append_assoc]
  · simp only [List.append_assoc]

theorem setDocumentation_cons_newline {piece : Piece} (h : piece.isNewline) (rest : Trivia) :
    setDocumentation (piece :: rest) text newline startsLine =
      piece :: setDocumentation rest text newline startsLine :=
  setDocumentation_of_splitLines (Trivia.splitLines_newline h rest) rfl
    (Trivia.dropDocumentation_newline h false [])

theorem setDocumentation_cons_comment {comment piece : Piece} (plain : comment.kind = .lineComment)
    (h : piece.isNewline) (rest : Trivia) :
    setDocumentation (comment :: piece :: rest) text newline startsLine =
      comment :: setDocumentation (piece :: rest) text newline startsLine := by
  have inner : comment.isNewline = false := by
    rw [Piece.isNewline, plain]
    rfl
  have undocumented : comment.isDocumentation = false := by
    rw [Piece.isDocumentation, plain]
    rfl
  have kept : Trivia.dropDocumentation false [comment, piece] = [comment, piece] := by
    have later := Trivia.dropDocumentation_newline h false []
    rw [Trivia.dropDocumentation, undocumented, Bool.false_and, if_neg Bool.false_ne_true,
      if_neg Bool.false_ne_true, later]
    rfl
  rw [setDocumentation_cons_newline h]
  refine @setDocumentation_of_splitLines _ _ _ _ [comment, piece] rest ?_ ?_ kept
  · rw [Trivia.splitLines, Trivia.splitLines_newline h, inner]
    rfl
  · simp [Trivia.isDocumentationLine, undocumented]

/-- Where no line begins, documentation is put on lines of its own. -/
theorem setDocumentation_nil :
    setDocumentation [] text newline false =
      if ((text.map pieces).getD []).isEmpty then []
      else .newline newline :: block "" newline ((text.map pieces).getD []) := by
  simp only [setDocumentation, Trivia.splitLines]
  split
  · rfl
  · simp [Trivia.dropDocumentation, Trivia.indentation, Trivia.render]

/-- All comments stand in their block, in order. -/
theorem sublist_block (comments : Trivia) (indentation : String) :
    comments.Sublist (block indentation newline comments) := by
  induction comments with
  | nil => exact .slnil
  | cons comment rest ih =>
    have own : [comment].Sublist ((if indentation.isEmpty then [] else
        [Piece.whitespace indentation]) ++ [comment, .newline newline]) := by simp
    exact own.append ih

/-- The comments for a text stand in the trivia that the text is set in. -/
theorem pieces_sublist_setDocumentation (text : String) :
    (pieces text).Sublist (setDocumentation leading (some text) newline startsLine) := by
  simp only [setDocumentation, Option.map_some, Option.getD_some]
  split
  · rename_i none
    rw [List.isEmpty_iff.mp none]
    exact List.nil_sublist _
  · refine .trans ?_ (List.sublist_append_left _ _)
    exact (sublist_block _ _).trans (List.sublist_append_right _ _)

theorem block_ne_nil {comments : Trivia} (h : comments ≠ []) (indentation : String) :
    block indentation newline comments ≠ [] := by
  obtain ⟨comment, rest, rfl⟩ := List.exists_cons_of_ne_nil h
  simp [block]

theorem setDocumentation_ne_nil (h : (text.map pieces).getD [] ≠ []) :
    setDocumentation leading text newline startsLine ≠ [] := by
  simp only [setDocumentation]
  rw [if_neg (by simpa using h)]
  simp [block_ne_nil h]

theorem pieces_ne_nil {text : String} (h : Text.trim text ≠ "") : pieces text ≠ [] := by
  have lines (text : String) : lineComments text ≠ [] := by
    rw [lineComments, Ne, List.map_eq_nil_iff]
    exact Text.lines_ne_nil text.toList
  unfold pieces
  dsimp only
  rw [if_neg (by simpa [String.isEmpty_iff] using h)]
  split
  · split
    · exact List.cons_ne_nil _ _
    · exact List.cons_ne_nil _ _
    · exact lines _
  · exact lines _

end Documentation

end SwiftTree
