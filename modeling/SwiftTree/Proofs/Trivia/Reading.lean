import SwiftTree.Proofs.Token.Attachment
import SwiftTree.Proofs.Token.Relead
import SwiftTree.Proofs.Trivia.Lines

/-!
# Trivia that is written and read again

Pieces of trivia that were put together are not always the pieces that are read again: neighbouring
blanks become one piece, and so do a carriage return and a line feed. Nothing else happens, so the
kinds of pieces that there are stay the same, and so does the kind of the last one. Comments that
stand on lines of their own are read one by one, each with the kind that its opening gives it.
-/

namespace SwiftTree

open Lexer

namespace Trivia

/-- In front of another text, characters are read as these pieces. -/
def ReadFrom (trivia : Trivia) (cs rest : List Char) : Prop :=
  lexemes false 0 (cs ++ rest) = trivia.map .piece ++ lexemes false 0 rest

theorem readFrom_nil (rest : List Char) : ReadFrom [] [] rest := rfl

theorem ReadFrom.append {as bs : Trivia} {cs ds rest : List Char}
    (first : as.ReadFrom cs (ds ++ rest)) (second : bs.ReadFrom ds rest) :
    (as ++ bs).ReadFrom (cs ++ ds) rest := by
  unfold ReadFrom at first second ⊢
  rw [List.append_assoc, first, second, List.map_append, List.append_assoc]

/-- The pieces that are read are written as the characters. -/
theorem ReadFrom.render {trivia : Trivia} {cs rest : List Char} (h : trivia.ReadFrom cs rest) :
    trivia.render = String.ofList cs := by
  have text := congrArg Lexeme.textAll h
  rw [textAll_append, textAll_pieces, textAll_lexemes, textAll_lexemes, List.drop_zero,
    List.drop_zero, String.ofList_append] at text
  exact (String.append_left_inj _).mp text.symm

/-- Pieces are read as others with the same kinds, and with a last one of the same kind. -/
structure Regrouped (old new : Trivia) : Prop where
  kinds : ∀ piece ∈ new, ∃ other ∈ old, other.kind = piece.kind
  last : new.getLast?.map Piece.kind = old.getLast?.map Piece.kind

namespace Regrouped

variable {old new : Trivia} (h : Regrouped old new)

include h

theorem undocumented (plain : old.Undocumented) : new.Undocumented := by
  intro piece member
  obtain ⟨other, inside, kind⟩ := h.kinds piece member
  rw [Piece.isDocumentation, ← kind]
  exact plain other inside

theorem unbroken (inner : old.Unbroken) : new.Unbroken := by
  intro piece member
  obtain ⟨other, inside, kind⟩ := h.kinds piece member
  rw [Piece.isNewline, ← kind]
  exact inner other inside

theorem endsLine (ends : old.EndsLine) : new.EndsLine := by
  intro piece last
  have same := h.last
  rw [Option.mem_def.mp last, Option.map_some] at same
  obtain ⟨other, final, kind⟩ := Option.map_eq_some_iff.mp same.symm
  rw [Piece.isNewline, ← kind]
  exact ends other final

theorem eq_nil (none : new = []) : old = [] := by
  have same := h.last
  rw [none] at same
  simpa using same.symm

end Regrouped

/-- Pieces become others when a character is put in front: there is one more piece, or the first
piece gets longer. -/
def Extends (kind : TriviaKind) (old new : Trivia) : Prop :=
  ∃ first more, new = first :: more ∧ first.kind = kind ∧
    (old = more ∨ ∃ joined, old = joined :: more ∧ joined.kind = kind)

theorem Regrouped.extend {old read new : Trivia} {piece : Piece} (h : Regrouped old read)
    (extended : Extends piece.kind read new) : Regrouped (piece :: old) new := by
  obtain ⟨first, more, rfl, kind, parts⟩ := extended
  have inside : ∀ other ∈ more, other ∈ read := by
    obtain rfl | ⟨joined, rfl, -⟩ := parts
    · exact fun _ => id
    · exact fun _ => List.mem_cons_of_mem _
  have final : (more.getLast?.map Piece.kind).getD piece.kind =
      (read.getLast?.map Piece.kind).getD piece.kind := by
    obtain rfl | ⟨joined, rfl, same⟩ := parts
    · rfl
    · rw [List.getLast?_cons, ← same]
      cases more.getLast? <;> rfl
  constructor
  · rw [List.forall_mem_cons]
    refine ⟨⟨piece, List.mem_cons_self, kind.symm⟩, fun other member => ?_⟩
    obtain ⟨origin, among, same⟩ := h.kinds other (inside other member)
    exact ⟨origin, List.mem_cons_of_mem _ among, same⟩
  · rw [h.last, ← kind] at final
    rw [List.getLast?_cons, List.getLast?_cons, Option.map_some, Option.map_some,
      ← @Option.getD_map _ _ Piece.kind, ← @Option.getD_map _ _ Piece.kind, final, kind]

end Trivia

namespace Lexer

/-- In front of a text, a character is read as a piece of a kind, or joined with such a piece. -/
def Joins (kind : TriviaKind) (c : Char) (cs : List Char) : Prop :=
  ∃ text later, lexemes false 0 (c :: cs) = .piece ⟨kind, text⟩ :: later ∧
    (later = lexemes false 0 cs ∨ ∃ old, lexemes false 0 cs = .piece ⟨kind, old⟩ :: later)

theorem joins_of_isSpace (c : Char) (cs : List Char) (h : isSpace c) : Joins .whitespace c cs := by
  have here := lexemes_of_triviaExtent? (triviaExtent?_of_isSpace h false cs)
  rw [drop_runLength, List.dropWhile_cons_of_pos h] at here
  refine ⟨_, _, here, ?_⟩
  cases cs with
  | nil => exact .inl rfl
  | cons d cs =>
    by_cases next : isSpace d
    · have there := lexemes_of_triviaExtent? (triviaExtent?_of_isSpace next false cs)
      rw [drop_runLength] at there
      exact .inr ⟨_, there⟩
    · rw [List.dropWhile_cons_of_neg next]
      exact .inl rfl

theorem joins_of_isLineBreak (c : Char) (cs : List Char) (h : Text.isLineBreak c) :
    Joins .newline c cs := by
  obtain ⟨rfl, rest, rfl, joined⟩ | alone := triviaExtent?_of_isLineBreak h cs
  · have feed : triviaExtent? false ('\n' :: rest) = some (.newline, 1) := rfl
    exact ⟨_, _, lexemes_of_triviaExtent? joined, .inr ⟨_, lexemes_of_triviaExtent? feed⟩⟩
  · exact ⟨_, _, lexemes_of_triviaExtent? alone, .inl rfl⟩

/-- The text does not begin with a piece of the kind. -/
def Avoids (kind : TriviaKind) (cs : List Char) : Prop :=
  ∀ piece later, lexemes false 0 cs = .piece piece :: later → piece.kind ≠ kind

end Lexer

namespace Trivia

variable {kind : TriviaKind} {read : Trivia} {cs rest : List Char}

/-- One more character in front. -/
theorem ReadFrom.cons {c : Char} (h : read.ReadFrom cs rest) (joins : Joins kind c (cs ++ rest))
    (meets : read = [] → Avoids kind rest) :
    ∃ new, ReadFrom new (c :: cs) rest ∧ Extends kind read new := by
  obtain ⟨text, later, found, alone | ⟨old, joined⟩⟩ := joins
  · refine ⟨⟨kind, text⟩ :: read, ?_, _, read, rfl, rfl, .inl rfl⟩
    rw [ReadFrom, List.cons_append, found, alone, h]
    rfl
  · rw [h] at joined
    cases read with
    | nil => exact absurd rfl (meets rfl _ _ joined)
    | cons first more =>
      obtain ⟨same, others⟩ := List.cons.inj joined
      refine ⟨⟨kind, text⟩ :: more, ?_, _, more, rfl, rfl, .inr ⟨first, rfl, ?_⟩⟩
      · rw [ReadFrom, List.cons_append, found, ← others]
        rfl
      · rw [Lexeme.piece.inj same]

/-- A run of characters in front, each of which is a piece of the kind or joined with one. -/
theorem ReadFrom.run {old : Trivia} {piece : Piece} {skips : Char → Bool}
    (joins : ∀ c cs, skips c → Joins piece.kind c cs) (h : read.ReadFrom cs rest)
    (regrouped : Regrouped old read) (meets : old = [] → Avoids piece.kind rest)
    {run : List Char} (filled : run ≠ []) (all : ∀ c ∈ run, skips c) :
    ∃ new, ReadFrom new (run ++ cs) rest ∧ Regrouped (piece :: old) new := by
  induction run with
  | nil => exact absurd rfl filled
  | cons c run ih =>
    obtain ⟨first, others⟩ := List.forall_mem_cons.mp all
    cases run with
    | nil =>
      obtain ⟨new, reads, extended⟩ :=
        h.cons (joins c _ first) fun none => meets (regrouped.eq_nil none)
      exact ⟨new, reads, regrouped.extend extended⟩
    | cons d run =>
      obtain ⟨later, reads, same⟩ := ih (List.cons_ne_nil _ _) others
      obtain ⟨new, reads', extended⟩ :=
        reads.cons (joins c _ first) fun none => nomatch same.eq_nil none
      -- the pieces in between are of the kind as well
      obtain ⟨kinds, last⟩ := same.extend extended
      refine ⟨new, reads', fun other member => ?_, last⟩
      obtain ⟨origin, among, kind⟩ := kinds other member
      exact ⟨origin, by simpa using among, kind⟩

theorem ReadFrom.avoids (h : read.ReadFrom cs rest) (filled : read ≠ [])
    (first : ∀ piece ∈ read.head?, piece.kind ≠ kind) : Avoids kind (cs ++ rest) := by
  intro piece later found
  rw [h] at found
  obtain ⟨head, more, rfl⟩ := List.exists_cons_of_ne_nil filled
  have same : head = piece := Lexeme.piece.inj (List.cons.inj found).1
  exact first piece (congrArg some same)

end Trivia

namespace Piece

/-- A comment as it is read: its kind is the one that its text gives it. -/
def reread (piece : Piece) : Piece :=
  ⟨.ofComment piece.text.toList, piece.text⟩

theorem Classified.reread_eq {piece : Piece} (h : piece.Classified)
    (comment : piece.kind.isComment) : piece.reread = piece := by
  rw [reread, ← h comment]

theorem Sound.head?_text {piece : Piece} (h : piece.Sound) (comment : piece.kind.isComment) :
    piece.text.toList.head? = some '/' := by
  obtain ⟨kind, text⟩ := piece
  cases kind with
  | whitespace | newline => cases comment
  | lineComment | docLineComment | blockComment | docBlockComment =>
    obtain ⟨more, chars⟩ := h.1
    rw [← chars]
    rfl

theorem Sound.readFrom {piece : Piece} (h : piece.Sound) (comment : piece.kind.isComment)
    {rest : List Char} (follows : piece.runsToBreak → Text.Halts rest) :
    Trivia.ReadFrom [piece.reread] piece.text.toList rest := by
  obtain ⟨kind, text⟩ := piece
  have own : [reread ⟨kind, text⟩].map Lexeme.piece =
      [.piece ⟨.ofComment text.toList, String.ofList text.toList⟩] := by
    rw [String.ofList_toList]
    rfl
  rw [Trivia.ReadFrom, own, List.singleton_append]
  cases kind with
  | whitespace | newline => cases comment
  | lineComment | docLineComment => exact lexemes_of_slashes h.1 h.2 (follows rfl)
  | blockComment | docBlockComment => exact lexemes_of_slash_star h.1 h.2 rest

end Piece

namespace Trivia

/-- Sound trivia is read again up to the joining of blanks and of line breaks, if nothing is joined
where it ends. The induction is on the pieces, from the last one to the first. -/
theorem Sound.exists_readFrom {trivia : Trivia} (h : trivia.Sound)
    (classified : ∀ piece ∈ trivia, piece.Classified) {rest : List Char}
    (meets : ∀ last ∈ trivia.getLast?, Avoids last.kind rest) :
    ∃ read, read.ReadFrom trivia.render.toList rest ∧ Regrouped trivia read := by
  induction trivia with
  | nil => exact ⟨[], readFrom_nil rest, nofun, rfl⟩
  | cons piece tail ih =>
    obtain ⟨sound, follows, later⟩ := h
    obtain ⟨own, others⟩ := List.forall_mem_cons.mp classified
    have meets' : ∀ last ∈ tail.getLast?, Avoids last.kind rest := by
      intro last final
      refine meets last ?_
      rw [List.getLast?_cons, Option.mem_def.mp final]
      rfl
    obtain ⟨read, reads, regrouped⟩ := ih later others meets'
    have ending (none : tail = []) : Avoids piece.kind rest :=
      meets piece (by rw [none]; rfl)
    rw [render, String.toList_append]
    by_cases comment : piece.kind.isComment
    · have halts (runs : piece.runsToBreak) : Text.Halts ((render tail).toList ++ rest) := by
        cases tail with
        | nil => cases follows runs
        | cons next tail => exact (later.breaks (follows runs) rest).halts
      have first := sound.readFrom comment halts
      rw [own.reread_eq comment] at first
      exact ⟨[piece] ++ read, first.append reads,
        regrouped.extend ⟨piece, read, rfl, rfl, .inl rfl⟩⟩
    · obtain ⟨kind, text⟩ := piece
      cases kind with
      | whitespace => exact reads.run joins_of_isSpace regrouped ending sound.1 sound.2
      | newline => exact reads.run joins_of_isLineBreak regrouped ending sound.1 sound.2
      | lineComment | docLineComment | blockComment | docBlockComment => exact absurd rfl comment

end Trivia

namespace Documentation

open Trivia (ReadFrom)

theorem readFrom_newline {newline : String} (h : newline = "\r\n" ∨ newline = "\n")
    (rest : List Char) : ReadFrom [.newline newline] newline.toList rest := by
  obtain rfl | rfl := h
  · have extent : triviaExtent? false ('\r' :: '\n' :: rest) = some (.newline, 2) := rfl
    exact lexemes_of_triviaExtent? extent
  · have extent : triviaExtent? false ('\n' :: rest) = some (.newline, 1) := rfl
    exact lexemes_of_triviaExtent? extent

theorem readFrom_indentation {indentation : String} {rest : List Char}
    (blank : ∀ c ∈ indentation.toList, isSpace c)
    (stops : ∀ c ∈ rest.head?, isSpace c = false) :
    ReadFrom (if indentation.isEmpty then [] else [.whitespace indentation]) indentation.toList
      rest := by
  split
  · rename_i empty
    rw [String.isEmpty_iff.mp empty]
    exact Trivia.readFrom_nil rest
  · rename_i some
    have filled : indentation.toList ≠ [] := by simpa [String.isEmpty_iff] using some
    obtain ⟨c, tail, chars⟩ := List.exists_cons_of_ne_nil filled
    have length : runLength isSpace (indentation.toList ++ rest) = indentation.toList.length :=
      runLength_append blank stops
    have extent : triviaExtent? false (indentation.toList ++ rest) =
        .some (.whitespace, indentation.toList.length) := by
      rw [← length, chars]
      exact triviaExtent?_of_isSpace (blank c (by simp [chars])) false _
    rw [ReadFrom, lexemes_of_triviaExtent? extent, List.take_left, List.drop_left,
      String.ofList_toList]
    rfl

theorem render_indentation (indentation : String) :
    Trivia.render (if indentation.isEmpty then [] else [.whitespace indentation]) =
      indentation := by
  split
  · rename_i empty
    rw [String.isEmpty_iff.mp empty]
    rfl
  · exact String.append_empty

/-- Comments on lines of their own are read one by one. -/
theorem readFrom_block {indentation newline : String} {comments : Trivia}
    (blank : ∀ c ∈ indentation.toList, isSpace c) (line : newline = "\r\n" ∨ newline = "\n")
    (sound : ∀ comment ∈ comments, comment.Sound ∧ comment.kind.isComment) (rest : List Char) :
    ReadFrom (block indentation newline (comments.map Piece.reread))
      (block indentation newline comments).render.toList rest := by
  induction comments with
  | nil => exact Trivia.readFrom_nil rest
  | cons comment others ih =>
    obtain ⟨⟨own, kind⟩, later⟩ := List.forall_mem_cons.mp sound
    let lines := (block indentation newline others).render.toList
    have halts : Text.Halts (newline.toList ++ lines ++ rest) := by
      obtain rfl | rfl := line <;> rintro c ⟨⟩ <;> rfl
    have stops : ∀ c ∈ (comment.text.toList ++ (newline.toList ++ lines) ++ rest).head?,
        isSpace c = false := by
      rw [List.append_assoc, List.head?_append, own.head?_text kind]
      rintro c ⟨⟩
      rfl
    have ending := (readFrom_newline line (lines ++ rest)).append (ih later)
    have commented := (own.readFrom kind fun _ => halts).append ending
    have whole := (readFrom_indentation blank stops).append commented
    have written : (block indentation newline (comment :: others)).render.toList =
        indentation.toList ++ (comment.text.toList ++ (newline.toList ++ lines)) := by
      rw [block_cons, block_singleton, body, Trivia.render_append, Trivia.render_append,
        Trivia.render_append, render_indentation]
      simp only [Trivia.render, String.append_empty, String.toList_append, List.append_assoc]
      rfl
    rw [written, List.map_cons, block_cons, block_singleton, body, List.append_assoc,
      List.append_assoc]
    exact whole

theorem sound_of_mem_comments {text : Option String} {piece : Piece}
    (h : piece ∈ comments text) : piece.Sound := by
  cases text with
  | none => cases h
  | some words =>
    rw [comments_some] at h
    exact sound_of_mem_pieces h

/-- A block of comments does not begin with a line break. -/
theorem isNewline_of_head?_block {indentation newline : String} {written : Trivia}
    (h : ∀ comment ∈ written, comment.kind.isComment) {piece : Piece}
    (first : piece ∈ (block indentation newline written).head?) : piece.isNewline = false := by
  cases written with
  | nil => cases first
  | cons comment rest =>
    rw [block_cons, block_singleton, body, List.append_assoc, List.append_assoc] at first
    refine unbroken_body (h comment List.mem_cons_self) indentation piece ?_
    rw [body]
    split at first
    · rename_i empty
      obtain rfl : comment = piece := Option.some.inj first
      simp
    · rename_i some
      obtain rfl : Piece.whitespace indentation = piece := Option.some.inj first
      simp [some]

theorem render_block_eq_empty_iff {indentation newline : String} (line : newline ≠ "")
    {written : Trivia} : (block indentation newline written).render = "" ↔ written = [] := by
  cases written with
  | nil => exact ⟨fun _ => rfl, fun _ => rfl⟩
  | cons comment rest =>
    rw [block_cons, block_singleton, Trivia.render_append, Trivia.render_append]
    simp [Trivia.render, Piece.newline, line]

/-- When documentation is taken away from lines, a block of comments and the line of a token, it is
taken away from the block only, if there is none in the rest. -/
theorem cleared_append_block {lines written own : Trivia} {indentation newline : String}
    (ends : lines.EndsLine) (plain : lines.Undocumented)
    (commented : ∀ comment ∈ written, comment.kind.isComment) (inner : own.Unbroken)
    (plain' : own.Undocumented) :
    (lines ++ (block indentation newline written ++ own)).cleared =
      lines ++ (block indentation newline
        (written.filter fun comment => !comment.isDocumentation) ++ own) := by
  have block := endsLine_block indentation newline written
  rw [Trivia.cleared, Trivia.keptLines_append ends, Trivia.keptLines_append block,
    Trivia.keptOwn_append ends, Trivia.keptOwn_append block,
    Trivia.keptLines_of_undocumented ends plain, keptLines_block commented,
    Trivia.keptLines_of_unbroken inner, Trivia.keptOwn_of_unbroken inner plain', List.append_nil,
    List.append_assoc]

variable {leading : Trivia} {text : Option String} {newline : String}

/-- Leading trivia is read again after documentation was set. Taking the documentation away then
leaves what it would have left before exactly if all comments are read as documentation. -/
theorem exists_readFrom_setDocumentation (sound : leading.Sound)
    (classified : ∀ piece ∈ leading, piece.Classified) (line : newline = "\r\n" ∨ newline = "\n")
    (filled : comments text ≠ []) {rest : List Char} (code : ∀ kind, Avoids kind rest) :
    ∃ read, ReadFrom read (setDocumentation leading text newline true).render.toList rest ∧
      (read.cleared.render = leading.cleared.render ↔
        ∀ comment ∈ comments text, comment.reread.isDocumentation) := by
  let lines := leading.keptLines
  let own := leading.keptOwn
  let written := (comments text).map Piece.reread
  have commented : ∀ comment ∈ written, comment.kind.isComment := by
    intro comment member
    obtain ⟨origin, -, rfl⟩ := List.mem_map.mp member
    exact isComment_ofComment _
  -- the line of the token, the documentation and the lines that were kept are read in turn
  obtain ⟨own', ownReads, ownSame⟩ := @Trivia.Sound.exists_readFrom own sound.keptOwn
    (fun piece member => classified piece (Trivia.mem_of_mem_keptOwn member)) rest
    fun last _ => code last.kind
  have blockReads := @readFrom_block own.indentation newline (comments text)
    (fun c => sound.keptOwn.isSpace_of_mem_indentation) line
    (fun comment member => ⟨sound_of_mem_comments member, isComment_of_mem_comments member⟩)
    (own.render.toList ++ rest)
  have meets : ∀ last ∈ lines.getLast?, Avoids last.kind
      ((block own.indentation newline (comments text)).render.toList ++
        (own.render.toList ++ rest)) := by
    intro last final
    refine blockReads.avoids (block_ne_nil (by simpa using filled) _) fun piece first same => ?_
    have breaks : piece.isNewline := by
      rw [Piece.isNewline, same]
      exact leading.endsLine_keptLines last final
    rw [isNewline_of_head?_block commented first] at breaks
    cases breaks
  rw [← List.append_assoc] at meets
  obtain ⟨lines', linesReads, linesSame⟩ := @Trivia.Sound.exists_readFrom lines sound.keptLines
    (fun piece member => classified piece (Trivia.mem_of_mem_keptLines member)) _ meets
  refine ⟨lines' ++ (block own.indentation newline written ++ own'), ?_, ?_⟩
  · have set : setDocumentation leading text newline true =
        lines ++ (block own.indentation newline (comments text) ++ own) := by
      rw [setDocumentation_eq, inserted, if_neg (by simpa using filled)]
      rfl
    rw [set, Trivia.render_append, Trivia.render_append, String.toList_append,
      String.toList_append]
    exact linesReads.append (blockReads.append ownReads)
  · have feed : newline ≠ "" := by obtain rfl | rfl := line <;> decide
    rw [cleared_append_block (linesSame.endsLine leading.endsLine_keptLines)
      (linesSame.undocumented leading.undocumented_keptLines) commented
      (ownSame.unbroken leading.unbroken_keptOwn)
      (ownSame.undocumented leading.undocumented_keptOwn)]
    simp only [Trivia.cleared, Trivia.render_append, linesReads.render, ownReads.render,
      String.ofList_toList]
    have apart (middle : String) : lines.render ++ (middle ++ own.render) =
        lines.render ++ own.render ↔ middle = "" := by
      have cancel := @String.append_left_inj middle "" own.render
      rwa [String.empty_append, ← @String.append_right_inj lines.render] at cancel
    rw [apart, render_block_eq_empty_iff feed]
    simp [written]

end Documentation

end SwiftTree
