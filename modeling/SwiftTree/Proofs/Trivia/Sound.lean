import Mathlib.Data.List.TakeWhile
import SwiftTree.Proofs.Token.Outline
import SwiftTree.Proofs.Token.Stability.Run

/-!
# Sound trivia

Trivia is sound if it can be read as trivia wherever it stands: its comments are closed, and a line
break follows each comment that runs to the end of its line. The trivia of a text is sound, apart
from a comment that only the start of the text makes one. Written in front of any text, sound trivia
is skipped: it adds no token, and what is seen of it is what its pieces say. The pieces themselves
may come out differently, since neighbouring blanks are read as one piece.
-/

namespace SwiftTree

open Lexer

namespace Piece

/-- Whether the piece is a comment that ends where its line ends. -/
def runsToBreak (piece : Piece) : Bool :=
  piece.kind == .lineComment || piece.kind == .docLineComment

/-- The piece is written as its kind says. -/
def Sound (piece : Piece) : Prop :=
  match piece.kind with
  | .whitespace => piece.text.toList ≠ [] ∧ ∀ c ∈ piece.text.toList, isSpace c
  | .newline => piece.text.toList ≠ [] ∧ ∀ c ∈ piece.text.toList, Text.isLineBreak c
  | .lineComment | .docLineComment =>
    ['/', '/'] <+: piece.text.toList ∧ ∀ c ∈ piece.text.toList, Text.isLineBreak c = false
  | .blockComment | .docBlockComment =>
    ['/', '*'] <+: piece.text.toList ∧
      Comment.extent piece.text.toList = .closed piece.text.toList.length

def isSound (piece : Piece) : Bool :=
  let cs := piece.text.toList
  match piece.kind with
  | .whitespace => !cs.isEmpty && cs.all isSpace
  | .newline => !cs.isEmpty && cs.all Text.isLineBreak
  | .lineComment | .docLineComment => ['/', '/'].isPrefixOf cs && cs.all (!Text.isLineBreak ·)
  | .blockComment | .docBlockComment =>
    ['/', '*'].isPrefixOf cs && decide (Comment.extent cs = .closed cs.length)

theorem isSound_iff {piece : Piece} : piece.isSound ↔ piece.Sound := by
  obtain ⟨kind, text⟩ := piece
  cases kind <;> simp [isSound, Sound, List.isPrefixOf_iff_prefix]

instance (piece : Piece) : Decidable piece.Sound :=
  decidable_of_iff _ isSound_iff

/-- How sound pieces begin: with a blank, with a line break, or as comments do. -/
theorem Sound.exists_eq_cons {piece : Piece} (h : piece.Sound) :
    ∃ c tail, piece.text.toList = c :: tail ∧
      (piece.kind = .whitespace ∧ isSpace c ∨ piece.kind = .newline ∧ Text.isLineBreak c ∨
        piece.kind.isComment ∧ ∀ cs, opensComment (c :: (tail ++ cs))) := by
  obtain ⟨kind, text⟩ := piece
  cases kind with
  | whitespace =>
    obtain ⟨c, tail, chars⟩ := List.exists_cons_of_ne_nil h.1
    exact ⟨c, tail, chars, .inl ⟨rfl, h.2 c (by simp [chars])⟩⟩
  | newline =>
    obtain ⟨c, tail, chars⟩ := List.exists_cons_of_ne_nil h.1
    exact ⟨c, tail, chars, .inr (.inl ⟨rfl, h.2 c (by simp [chars])⟩)⟩
  | lineComment | docLineComment | blockComment | docBlockComment =>
    obtain ⟨more, chars⟩ := h.1
    exact ⟨'/', _, chars.symm, .inr (.inr ⟨rfl, fun cs => rfl⟩)⟩

theorem Sound.breaks {piece : Piece} (h : piece.Sound) (newline : piece.isNewline)
    (cs : List Char) : Text.Breaks (piece.text.toList ++ cs) := by
  have kind : piece.kind = .newline := by simpa [isNewline] using newline
  obtain ⟨c, tail, chars, begins⟩ := h.exists_eq_cons
  rw [kind] at begins
  refine ⟨c, tail ++ cs, by rw [chars, List.cons_append], ?_⟩
  simpa [TriviaKind.isComment] using begins

end Piece

namespace Trivia

def Sound : Trivia → Prop
  | [] => True
  | piece :: rest =>
    piece.Sound ∧ (piece.runsToBreak → rest.head?.any Piece.isNewline) ∧ Sound rest

def isSound : Trivia → Bool
  | [] => true
  | piece :: rest =>
    piece.isSound && (!piece.runsToBreak || rest.head?.any Piece.isNewline) && isSound rest

theorem isSound_iff {trivia : Trivia} : trivia.isSound ↔ trivia.Sound := by
  induction trivia with
  | nil => exact ⟨fun _ => trivial, fun _ => rfl⟩
  | cons piece rest ih =>
    rw [Sound, ← ih, ← Piece.isSound_iff, isSound]
    cases piece.runsToBreak <;> simp [and_assoc]

instance (trivia : Trivia) : Decidable trivia.Sound :=
  decidable_of_iff _ isSound_iff

/-- The end of sound trivia is sound. -/
theorem Sound.of_append {as bs : Trivia} (h : Sound (as ++ bs)) : Sound bs := by
  induction as with
  | nil => exact h
  | cons piece as ih => exact ih h.2.2

/-- Sound trivia stays sound with sound trivia behind it. -/
theorem Sound.append {as bs : Trivia} (first : Sound as) (second : Sound bs) :
    Sound (as ++ bs) := by
  induction as with
  | nil => exact second
  | cons piece as ih =>
    obtain ⟨sound, follows, rest⟩ := first
    refine ⟨sound, fun runs => ?_, ih rest⟩
    cases as with
    | nil => cases follows runs
    | cons next as => exact follows runs

end Trivia

namespace Lexer

variable (more : List Lexeme)

theorem drop_runLength (p : Char → Bool) (cs : List Char) :
    cs.drop (runLength p cs) = cs.dropWhile p := by
  induction cs with
  | nil => rfl
  | cons c cs ih =>
    rw [runLength_cons, List.dropWhile_cons]
    split
    · exact ih
    · rfl

theorem take_runLength (p : Char → Bool) (cs : List Char) :
    cs.take (runLength p cs) = cs.takeWhile p := by
  induction cs with
  | nil => rfl
  | cons c cs ih =>
    rw [runLength_cons, List.takeWhile_cons]
    split
    · rw [List.take_succ_cons, ih]
    · rfl

/-- A run of characters ends where it is known to stop. -/
theorem runLength_append {p : Char → Bool} {run rest : List Char} (all : ∀ c ∈ run, p c)
    (stops : ∀ c ∈ rest.head?, p c = false) : runLength p (run ++ rest) = run.length := by
  have none := runLength_eq_zero stops
  unfold runLength at none ⊢
  rw [List.takeWhile_append_of_pos all, List.length_append, none, Nat.add_zero]

/-- A text that begins with a piece of trivia. -/
theorem lexemes_of_triviaExtent? {atStart : Bool} {cs : List Char} {kind : TriviaKind}
    {length : Nat}
    (h : triviaExtent? atStart cs = some (kind, length)) :
    lexemes atStart 0 cs =
      .piece ⟨kind, String.ofList (cs.take length)⟩ :: lexemes false 0 (cs.drop length) := by
  cases cs with
  | nil => cases h
  | cons c cs =>
    rw [lexemes_cons]
    simp only [lexeme, h]

theorem not_breaksLine_of_isSpace {cs : List Char} (h : ∀ c ∈ cs, isSpace c) :
    (⟨.whitespace, String.ofList cs⟩ : Piece).breaksLine = false := by
  have absent : '\n' ∉ cs := fun member => absurd (h _ member) (by decide)
  simp [Piece.breaksLine, Piece.isNewline, absent]

/-- Blanks are joined with blanks that follow, which makes no difference. -/
theorem outline_of_isSpace {c : Char} (h : isSpace c) (cs : List Char) :
    outline (lexemes false 0 (c :: cs) ++ more) =
      (outline (lexemes false 0 cs ++ more)).fill false := by
  have blank (cs : List Char) :
      (⟨.whitespace, String.ofList (cs.take (runLength isSpace cs))⟩ : Piece).breaksLine =
        false := by
    rw [take_runLength]
    exact not_breaksLine_of_isSpace fun c member => List.mem_takeWhile_imp member
  have here := lexemes_of_triviaExtent? (triviaExtent?_of_isSpace h false cs)
  have skipped : (c :: cs).drop (runLength isSpace (c :: cs)) = cs.dropWhile isSpace := by
    rw [drop_runLength, List.dropWhile_cons_of_pos h]
  rw [here, List.cons_append, outline_piece, blank, skipped]
  cases cs with
  | nil => rfl
  | cons d cs =>
    by_cases next : isSpace d
    · have there := lexemes_of_triviaExtent? (triviaExtent?_of_isSpace next false cs)
      rw [there, List.cons_append, outline_piece, blank, Outline.fill_fill, drop_runLength]
      rfl
    · rw [List.dropWhile_cons_of_neg next]

/-- A line break is one character, or a carriage return and a line feed. -/
theorem triviaExtent?_of_isLineBreak {c : Char} (h : Text.isLineBreak c) (cs : List Char) :
    (c = '\r' ∧ ∃ rest, cs = '\n' :: rest ∧ triviaExtent? false (c :: cs) = some (.newline, 2)) ∨
      triviaExtent? false (c :: cs) = some (.newline, 1) := by
  have space : isSpace c = false := by
    obtain rfl | rfl := Text.isLineBreak_iff.mp h <;> rfl
  by_cases joined : c = '\r' ∧ cs.head? = some '\n'
  · obtain ⟨rfl, feed⟩ := joined
    obtain ⟨rest, rfl⟩ := List.head?_eq_some_iff.mp feed
    exact .inl ⟨rfl, rest, rfl, rfl⟩
  · exact .inr (by simp [triviaExtent?, space, joined, h])

/-- Whether a carriage return is joined with a line feed that follows makes no difference. -/
theorem outline_of_isLineBreak {c : Char} (h : Text.isLineBreak c) (cs : List Char) :
    outline (lexemes false 0 (c :: cs) ++ more) =
      (outline (lexemes false 0 cs ++ more)).fill true := by
  obtain ⟨rfl, rest, rfl, joined⟩ | alone := triviaExtent?_of_isLineBreak h cs
  · have feed : triviaExtent? false ('\n' :: rest) = some (.newline, 1) := rfl
    rw [lexemes_of_triviaExtent? joined, lexemes_of_triviaExtent? feed, List.cons_append,
      List.cons_append, outline_piece, outline_piece, Outline.fill_fill]
    rfl
  · rw [lexemes_of_triviaExtent? alone]
    rfl

/-- A run of characters each of which is skipped. -/
theorem outline_of_forall_mem {skips : Char → Bool} {breaks : Bool}
    (one : ∀ c cs, skips c → outline (lexemes false 0 (c :: cs) ++ more) =
      (outline (lexemes false 0 cs ++ more)).fill breaks)
    {run : List Char} (filled : run ≠ []) (all : ∀ c ∈ run, skips c) (cs : List Char) :
    outline (lexemes false 0 (run ++ cs) ++ more) =
      (outline (lexemes false 0 cs ++ more)).fill breaks := by
  induction run with
  | nil => exact absurd rfl filled
  | cons c run ih =>
    rw [List.cons_append, one c _ (all c List.mem_cons_self)]
    cases run with
    | nil => rfl
    | cons d run =>
      rw [ih (List.cons_ne_nil _ _) fun c member => all c (List.mem_cons_of_mem _ member),
        Outline.fill_fill, Bool.or_self]

/-- The kind of a comment is not that of a line break. -/
theorem isNewline_ofComment (cs : List Char) (text : String) :
    (⟨.ofComment cs, text⟩ : Piece).isNewline = false := by
  unfold TriviaKind.ofComment
  split <;> rfl

theorem isComment_ofComment (cs : List Char) : (TriviaKind.ofComment cs).isComment := by
  unfold TriviaKind.ofComment
  split <;> rfl

/-- A comment that runs to the end of its line is read as one piece in front of a line break. -/
theorem lexemes_of_slashes {comment cs : List Char} (opens : ['/', '/'] <+: comment)
    (plain : ∀ c ∈ comment, Text.isLineBreak c = false) (halts : Text.Halts cs) :
    lexemes false 0 (comment ++ cs) =
      .piece ⟨.ofComment comment, String.ofList comment⟩ :: lexemes false 0 cs := by
  have length : runLength (!Text.isLineBreak ·) (comment ++ cs) = comment.length :=
    runLength_append (by simpa using plain) fun c first => by simp [halts c first]
  have here := triviaExtent?_of_slashes false (opens.trans (List.prefix_append comment cs))
  rw [lexemes_of_triviaExtent? here, length, List.take_left, List.drop_left]

theorem outline_of_slashes {comment cs : List Char} (opens : ['/', '/'] <+: comment)
    (plain : ∀ c ∈ comment, Text.isLineBreak c = false) (halts : Text.Halts cs) :
    outline (lexemes false 0 (comment ++ cs) ++ more) =
      (outline (lexemes false 0 cs ++ more)).fill false := by
  have absent : '\n' ∉ comment := fun member => absurd (plain _ member) (by decide)
  rw [lexemes_of_slashes opens plain halts, List.cons_append, outline_piece]
  simp [Piece.breaksLine, isNewline_ofComment, absent]

/-- A comment that is closed is read as one piece in front of any text. -/
theorem lexemes_of_slash_star {comment : List Char} (opens : ['/', '*'] <+: comment)
    (closed : Comment.extent comment = .closed comment.length) (cs : List Char) :
    lexemes false 0 (comment ++ cs) =
      .piece ⟨.ofComment comment, String.ofList comment⟩ :: lexemes false 0 cs := by
  have length : Comment.length (comment ++ cs) = comment.length := by
    have some : 0 < comment.length := Nat.lt_of_lt_of_le Nat.two_pos opens.length_le
    unfold Comment.length
    rw [Comment.extent_append cs some (by rwa [List.append_nil]) (Nat.le_refl _)]
  have here := triviaExtent?_of_slash_star false (opens.trans (List.prefix_append comment cs))
  rw [lexemes_of_triviaExtent? here, length, List.take_left, List.drop_left]

theorem outline_of_slash_star {comment : List Char} (opens : ['/', '*'] <+: comment)
    (closed : Comment.extent comment = .closed comment.length) (cs : List Char) :
    outline (lexemes false 0 (comment ++ cs) ++ more) =
      (outline (lexemes false 0 cs ++ more)).fill (comment.contains '\n') := by
  rw [lexemes_of_slash_star opens closed, List.cons_append, outline_piece]
  simp [Piece.breaksLine, isNewline_ofComment]

end Lexer

/-- A sound piece is skipped, and seen as it says. -/
theorem Piece.Sound.outline_append {piece : Piece} (h : piece.Sound) (more : List Lexeme)
    {cs : List Char} (follows : piece.runsToBreak → Text.Halts cs) :
    outline (lexemes false 0 (piece.text.toList ++ cs) ++ more) =
      (outline (lexemes false 0 cs ++ more)).fill piece.breaksLine := by
  obtain ⟨kind, text⟩ := piece
  cases kind with
  | whitespace =>
    obtain ⟨filled, all⟩ := h
    have plain := not_breaksLine_of_isSpace all
    rw [String.ofList_toList] at plain
    rw [plain]
    exact outline_of_forall_mem more (fun c cs h => outline_of_isSpace more h cs) filled all cs
  | newline =>
    obtain ⟨filled, all⟩ := h
    exact outline_of_forall_mem more (fun c cs h => outline_of_isLineBreak more h cs) filled all cs
  | lineComment | docLineComment =>
    obtain ⟨opens, plain⟩ := h
    have absent : '\n' ∉ text.toList := fun member => absurd (plain _ member) (by decide)
    have unbroken : text.toList.contains '\n' = false := by simpa using absent
    rw [outline_of_slashes more opens plain (follows rfl), breaksLine, unbroken]
    rfl
  | blockComment | docBlockComment =>
    obtain ⟨opens, closed⟩ := h
    exact outline_of_slash_star more opens closed cs

namespace Trivia

theorem Sound.breaks {piece : Piece} {rest : Trivia} (h : Sound (piece :: rest))
    (newline : piece.isNewline) (cs : List Char) :
    Text.Breaks ((render (piece :: rest)).toList ++ cs) := by
  rw [render, String.toList_append, List.append_assoc]
  exact h.1.breaks newline _

/-- Sound trivia does not begin with a hash sign. -/
theorem Sound.not_hash {piece : Piece} {rest : Trivia} (h : Sound (piece :: rest))
    (cs : List Char) : ¬['#', '!'] <+: (render (piece :: rest)).toList ++ cs := by
  obtain ⟨sound, -, -⟩ := h
  obtain ⟨c, tail, chars, begins⟩ := sound.exists_eq_cons
  have plain : c ≠ '#' := by
    rintro rfl
    obtain ⟨-, space⟩ | ⟨-, line⟩ | ⟨-, comment⟩ := begins
    · cases space
    · cases line
    · cases (opensComment_of_ne (by decide) tail).symm.trans (tail.append_nil ▸ comment [])
  rw [render, String.toList_append, chars, List.append_assoc, List.cons_append,
    List.cons_prefix_cons]
  exact fun hash => plain hash.1.symm

/-- Sound trivia is skipped, and seen as its pieces say. -/
theorem Sound.outline_render {trivia : Trivia} (h : Sound trivia) (more : List Lexeme)
    (cs : List Char) :
    outline (lexemes false 0 (trivia.render.toList ++ cs) ++ more) =
      outline (trivia.map .piece ++ (lexemes false 0 cs ++ more)) := by
  induction trivia with
  | nil => rfl
  | cons piece rest ih =>
    obtain ⟨sound, follows, later⟩ := h
    have halts (runs : piece.runsToBreak) : Text.Halts ((render rest).toList ++ cs) := by
      cases rest with
      | nil => cases follows runs
      | cons next rest => exact (later.breaks (follows runs) cs).halts
    rw [render, String.toList_append, List.append_assoc, sound.outline_append more halts,
      ih later]
    rfl

end Trivia

namespace Lexer

/-- Without a hash sign and an exclamation mark, the start of a text is like any other place. -/
theorem lexemes_atStart {cs : List Char} (h : ¬['#', '!'] <+: cs) :
    lexemes true 0 cs = lexemes false 0 cs := by
  cases cs with
  | nil => rfl
  | cons c cs =>
    rw [← and_head?_eq_true_iff] at h
    have trivia : triviaExtent? true (c :: cs) = triviaExtent? false (c :: cs) := by
      simp [triviaExtent?, h]
    rw [lexemes_cons, lexemes_cons, lexeme, lexeme, trivia]

theorem ofComment_of_slashes {cs : List Char} (h : ['/', '/'] <+: cs) :
    TriviaKind.ofComment cs = .lineComment ∨ TriviaKind.ofComment cs = .docLineComment := by
  obtain ⟨more, rfl⟩ := h
  unfold TriviaKind.ofComment
  split <;> simp_all

theorem ofComment_of_slash_star {cs : List Char} (h : ['/', '*'] <+: cs) :
    TriviaKind.ofComment cs = .blockComment ∨ TriviaKind.ofComment cs = .docBlockComment := by
  obtain ⟨more, rfl⟩ := h
  unfold TriviaKind.ofComment
  split <;> simp_all

/-- A line break is read as a run of characters that each break the line. -/
theorem exists_triviaExtent?_of_isLineBreak {c : Char} (h : Text.isLineBreak c) (cs : List Char) :
    ∃ run rest, c :: cs = run ++ rest ∧ run ≠ [] ∧ (∀ d ∈ run, Text.isLineBreak d) ∧
      triviaExtent? false (c :: cs) = some (.newline, run.length) := by
  obtain ⟨rfl, rest, rfl, joined⟩ | alone := triviaExtent?_of_isLineBreak h cs
  · exact ⟨['\r', '\n'], rest, rfl, by decide, by simp [Text.isLineBreak], joined⟩
  · exact ⟨[c], cs, rfl, List.cons_ne_nil _ _, List.forall_mem_singleton.mpr h, alone⟩

theorem halts_dropWhile (cs : List Char) :
    Text.Halts (cs.dropWhile (!Text.isLineBreak ·)) := by
  intro c first
  have stops := List.head?_dropWhile_not (!Text.isLineBreak ·) cs
  rw [Option.mem_def.mp first] at stops
  simpa using stops

theorem sound_of_slashes {cs : List Char} (slashes : ['/', '/'] <+: cs) :
    (⟨.ofComment (cs.takeWhile (!Text.isLineBreak ·)),
      String.ofList (cs.takeWhile (!Text.isLineBreak ·))⟩ : Piece).Sound := by
  have opens : ['/', '/'] <+: cs.takeWhile (!Text.isLineBreak ·) := by
    obtain ⟨more, rfl⟩ := slashes
    exact List.prefix_append ['/', '/'] _
  have plain : ∀ d ∈ cs.takeWhile (!Text.isLineBreak ·), Text.isLineBreak d = false :=
    fun d member => by simpa using List.mem_takeWhile_imp member
  obtain kind | kind := ofComment_of_slashes opens <;> rw [kind] <;>
    exact ⟨by rwa [String.toList_ofList], by rwa [String.toList_ofList]⟩

theorem sound_of_slash_star {cs : List Char} (star : ['/', '*'] <+: cs)
    (ends : cs.drop (Comment.length cs) ≠ [] ∨
      Comment.isUnclosed ⟨.ofComment (cs.take (Comment.length cs)),
        String.ofList (cs.take (Comment.length cs))⟩ = false) :
    (⟨.ofComment (cs.take (Comment.length cs)),
      String.ofList (cs.take (Comment.length cs))⟩ : Piece).Sound ∧
    (⟨.ofComment (cs.take (Comment.length cs)),
      String.ofList (cs.take (Comment.length cs))⟩ : Piece).runsToBreak = false := by
  have size : (cs.take (Comment.length cs)).length = Comment.length cs :=
    List.length_take_of_le (Comment.length_le _)
  have long := two_le_length_comment star
  have opens : ['/', '*'] <+: cs.take (Comment.length cs) :=
    List.prefix_of_prefix_length_le star (List.take_prefix _ _) (by rwa [size])
  have closed := Comment.extent_take (Nat.lt_of_lt_of_le Nat.two_pos long) ends
  have whole : Comment.extent (cs.take (Comment.length cs)) =
      .closed (cs.take (Comment.length cs)).length := by
    rw [closed, size]
  obtain kind | kind := ofComment_of_slash_star opens <;> rw [kind] <;>
    exact ⟨⟨by rwa [String.toList_ofList], by rwa [String.toList_ofList]⟩, rfl⟩

/-- A piece of trivia is sound, unless it is a comment that is left open at the end. -/
theorem sound_of_triviaExtent? {cs : List Char} {kind : TriviaKind} {length : Nat}
    (h : triviaExtent? false cs = some (kind, length))
    (ends : kind.isComment → cs.drop length ≠ [] ∨
      Comment.isUnclosed ⟨kind, String.ofList (cs.take length)⟩ = false) :
    (⟨kind, String.ofList (cs.take length)⟩ : Piece).Sound ∧
      ((⟨kind, String.ofList (cs.take length)⟩ : Piece).runsToBreak →
        Text.Halts (cs.drop length)) := by
  cases cs with
  | nil => cases h
  | cons c cs =>
  by_cases space : isSpace c
  · rw [triviaExtent?_of_isSpace space] at h
    cases h
    refine ⟨⟨?_, ?_⟩, nofun⟩
    · rw [String.toList_ofList, take_runLength, List.takeWhile_cons_of_pos space]
      exact List.cons_ne_nil _ _
    · rw [String.toList_ofList, take_runLength]
      exact fun c member => List.mem_takeWhile_imp member
  by_cases line : Text.isLineBreak c
  · obtain ⟨run, rest, parts, some, breaks, found⟩ := exists_triviaExtent?_of_isLineBreak line cs
    rw [found] at h
    cases h
    rw [parts, List.take_left]
    exact ⟨⟨by rwa [String.toList_ofList], by rwa [String.toList_ofList]⟩, nofun⟩
  by_cases slashes : ['/', '/'] <+: c :: cs
  · rw [triviaExtent?_of_slashes false slashes] at h
    cases h
    rw [drop_runLength, take_runLength]
    exact ⟨sound_of_slashes slashes, fun _ => halts_dropWhile _⟩
  by_cases star : ['/', '*'] <+: c :: cs
  · rw [triviaExtent?_of_slash_star false star] at h
    cases h
    obtain ⟨sound, shut⟩ := sound_of_slash_star star (ends (isComment_ofComment _))
    exact ⟨sound, fun runs => absurd (shut.symm.trans runs) Bool.false_ne_true⟩
  · rw [triviaExtent?_eq_none space line slashes star (by simp)] at h
    cases h

theorem triviaExtent?_of_lexemes {atStart : Bool} {cs : List Char} {piece : Piece}
    {later : List Lexeme} (h : lexemes atStart 0 cs = .piece piece :: later) :
    ∃ kind length, triviaExtent? atStart cs = some (kind, length) ∧
      ⟨kind, String.ofList (cs.take length)⟩ = piece ∧
      lexemes false 0 (cs.drop length) = later := by
  cases cs with
  | nil => cases h
  | cons c cs =>
    rw [lexemes_cons] at h
    obtain ⟨first, others⟩ := List.cons.inj h
    unfold lexeme at first others
    cases found : triviaExtent? atStart (c :: cs) with
    | none =>
      rw [found] at first
      cases first
    | some extent =>
      rw [found] at first others
      exact ⟨extent.1, extent.2, rfl, Lexeme.piece.inj first, others⟩

/-- Where a line break stands in front of a token, it is the first piece of trivia. -/
theorem isNewline_head?_of_breaks {cs : List Char} {trivia : Trivia} {kind : TokenKind}
    {text : String} {later : List Lexeme} (breaking : Text.Breaks cs)
    (h : lexemes false 0 cs = trivia.map .piece ++ .token kind text :: later) :
    trivia.head?.any Piece.isNewline := by
  obtain ⟨c, after, rfl, breaks⟩ := breaking
  obtain ⟨run, more, -, -, -, newline⟩ := exists_triviaExtent?_of_isLineBreak breaks after
  rw [lexemes_of_triviaExtent? newline] at h
  cases trivia with
  | nil => cases h
  | cons next rest =>
    cases (List.cons.inj h).1
    rfl

/-- The trivia in front of a token is sound. -/
theorem sound_of_lexemes {cs : List Char} {trivia : Trivia} {kind : TokenKind} {text : String}
    {later : List Lexeme}
    (h : lexemes false 0 cs = trivia.map .piece ++ .token kind text :: later) : trivia.Sound := by
  induction trivia generalizing cs with
  | nil => trivial
  | cons piece rest ih =>
    obtain ⟨kind', length, found, rfl, others⟩ := triviaExtent?_of_lexemes h
    have filled : cs.drop length ≠ [] := by
      intro empty
      rw [empty] at others
      cases rest <;> cases others
    obtain ⟨sound, runs⟩ := sound_of_triviaExtent? found fun _ => .inl filled
    refine ⟨sound, fun comment => ?_, ih others⟩
    exact isNewline_head?_of_breaks ((runs comment).breaks filled) others

/-- In front of the first token, trivia is read as anywhere else, but for a comment on the first
line that only the start of the text makes one. -/
theorem lexemes_or_of_start {cs : List Char} {trivia : Trivia} {kind : TokenKind} {text : String}
    {later : List Lexeme}
    (h : lexemes true 0 cs = trivia.map .piece ++ .token kind text :: later) :
    lexemes false 0 cs = trivia.map .piece ++ .token kind text :: later ∨
      ∃ comment feed rest, trivia = comment :: feed :: rest ∧ comment.kind = .lineComment ∧
        feed.isNewline ∧ ∃ behind,
          lexemes false 0 behind = (feed :: rest).map .piece ++ .token kind text :: later := by
  by_cases hash : ['#', '!'] <+: cs
  case neg =>
    rw [lexemes_atStart hash] at h
    exact .inl h
  rw [lexemes_of_triviaExtent? (triviaExtent?_of_hash hash)] at h
  cases trivia with
  | nil => cases h
  | cons comment trivia =>
    obtain ⟨first, others⟩ := List.cons.inj h
    have kind : comment.kind = .lineComment := by rw [← Lexeme.piece.inj first]
    have filled : cs.drop (runLength (!Text.isLineBreak ·) cs) ≠ [] := by
      intro empty
      rw [empty] at others
      cases trivia <;> cases others
    rw [drop_runLength] at filled others
    have newline := isNewline_head?_of_breaks ((halts_dropWhile cs).breaks filled) others
    cases trivia with
    | nil => cases newline
    | cons feed rest => exact .inr ⟨comment, feed, rest, rfl, kind, newline, _, others⟩

/-- So the trivia in front of the first token is sound as well, but for such a comment. -/
theorem sound_or_of_lexemes {cs : List Char} {trivia : Trivia} {kind : TokenKind} {text : String}
    {later : List Lexeme}
    (h : lexemes true 0 cs = trivia.map .piece ++ .token kind text :: later) :
    trivia.Sound ∨ ∃ comment feed rest, trivia = comment :: feed :: rest ∧
      comment.kind = .lineComment ∧ feed.isNewline ∧ Trivia.Sound (feed :: rest) := by
  obtain same | ⟨comment, feed, rest, parts, kind, newline, behind, others⟩ :=
    lexemes_or_of_start h
  · exact .inl (sound_of_lexemes same)
  · exact .inr ⟨comment, feed, rest, parts, kind, newline, sound_of_lexemes others⟩

/-- The trivia at the end of a text is skipped in front of a line break and at the end of any other
text, unless a comment is left open. -/
theorem outline_of_pieces {cs : List Char} {trivia : Trivia}
    (h : lexemes false 0 cs = trivia.map .piece)
    (closed : ∀ piece ∈ trivia, Comment.isUnclosed piece = false) {new : List Char}
    (halts : Text.Halts new) (more : List Lexeme) :
    (∀ piece ∈ trivia.head?, piece.Sound) ∧
      outline (lexemes false 0 (cs ++ new) ++ more) =
        outline (trivia.map .piece ++ (lexemes false 0 new ++ more)) := by
  induction trivia generalizing cs with
  | nil =>
    cases cs with
    | nil => exact ⟨by simp, rfl⟩
    | cons c cs =>
      rw [lexemes_cons] at h
      cases h
  | cons piece rest ih =>
    obtain ⟨kind, length, found, rfl, others⟩ := triviaExtent?_of_lexemes h
    rw [List.forall_mem_cons] at closed
    obtain ⟨sound, runs⟩ := sound_of_triviaExtent? found fun _ => .inr closed.1
    refine ⟨by simpa using sound, ?_⟩
    have follows (comment : (⟨kind, String.ofList (cs.take length)⟩ : Piece).runsToBreak) :
        Text.Halts (cs.drop length ++ new) := by
      have here := runs comment
      cases left : cs.drop length with
      | nil => exact halts
      | cons c after =>
        rw [left] at here
        exact here
    have parts : cs ++ new = cs.take length ++ (cs.drop length ++ new) := by
      rw [← List.append_assoc, List.take_append_drop]
    have skipped := sound.outline_append more follows
    rw [String.toList_ofList] at skipped
    rw [parts, skipped, (ih others closed.2).2]
    rfl

end Lexer

end SwiftTree
