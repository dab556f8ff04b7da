import SwiftTree.Proofs.Token.Relexing

/-!
# Seams between tokens

A text can be put together from stretches of tokens that were read elsewhere, each with the trivia
around it. At the seam between two stretches nothing has been read yet: the last token in front of
it may go on behind it, and the trivia there may swallow what follows. Where trivia that can be read
as such stands at a seam, and nothing in front of it is left open, the two sides stay apart. They
also do without trivia, if no token goes on with the first character behind the seam. If all
stretches stand apart, the text is read as their tokens.
-/

namespace SwiftTree

open Lexer

namespace Lexer

theorem words_eq_outline (found : List Lexeme) :
    words found = (outline found).2.map fun seen => ⟨seen.1, seen.2.1, [], []⟩ := by
  induction found with
  | nil => rfl
  | cons first rest ih =>
    cases first with
    | piece trivia => exact ih
    | token kind text =>
      rw [words_token, ih]
      rfl

theorem words_congr_outline {as bs : List Lexeme} (h : outline as = outline bs) :
    words as = words bs := by
  rw [words_eq_outline, h, ← words_eq_outline]

/-- Trivia in front of a text adds no token to it, and keeps it away from what stands in front. -/
structure Fades (trivia : Trivia) (cs : List Char) : Prop where
  begins : ∀ piece ∈ trivia.head?, piece.Sound
  stands : trivia ≠ [] ∨ cs = []
  skipped : words (lexemes false 0 (trivia.render.toList ++ cs)) = words (lexemes false 0 cs)

namespace Fades

variable {trivia : Trivia} {cs : List Char}

/-- Nothing follows, or a sound piece of trivia. -/
theorem eq_nil_or (h : Fades trivia cs) : trivia = [] ∧ cs = [] ∨
    ∃ (piece : Piece) (rest : Trivia), trivia = piece :: rest ∧ piece.Sound ∧
      trivia.render.toList ++ cs = piece.text.toList ++ (rest.render.toList ++ cs) := by
  cases trivia with
  | nil => exact .inl ⟨rfl, h.stands.resolve_left fun some => some rfl⟩
  | cons piece rest =>
    refine .inr ⟨piece, rest, rfl, h.begins piece rfl, ?_⟩
    rw [Trivia.render, String.toList_append, List.append_assoc]

theorem separates (h : Fades trivia cs) : Separates (trivia.render.toList ++ cs) := by
  obtain ⟨rfl, rfl⟩ | ⟨piece, rest, -, sound, text⟩ := h.eq_nil_or
  · exact separates_nil
  obtain ⟨c, tail, chars, begins⟩ := sound.exists_eq_cons
  rw [text, chars, List.cons_append]
  rintro _ ⟨⟩
  exact begins.imp (·.2) (Or.imp (·.2) fun comment => comment.2 _)

theorem halts (h : Fades trivia cs) (newline : ∀ piece ∈ trivia.head?, piece.isNewline) :
    Text.Halts (trivia.render.toList ++ cs) := by
  obtain ⟨rfl, rfl⟩ | ⟨piece, rest, rfl, sound, text⟩ := h.eq_nil_or
  · exact Text.halts_nil
  · rw [text]
    exact (sound.breaks (newline piece rfl) _).halts

/-- A slash in front of the trivia opens a comment only if the trivia begins with one. -/
theorem not_opensComment (h : Fades trivia cs)
    (plain : ∀ piece ∈ trivia.head?, piece.kind.isComment = false) :
    opensComment ('/' :: (trivia.render.toList ++ cs)) = false := by
  obtain ⟨rfl, rfl⟩ | ⟨piece, rest, rfl, sound, text⟩ := h.eq_nil_or
  · simp [Trivia.render, opensComment]
  obtain ⟨c, tail, chars, begins⟩ := sound.exists_eq_cons
  rw [plain piece rfl] at begins
  rw [text, chars, List.cons_append, opensComment_cons_cons]
  obtain ⟨-, space⟩ | ⟨-, line⟩ | ⟨comment, -⟩ := begins
  · simp only [isSpace, Bool.or_eq_true, beq_iff_eq] at space
    obtain ((rfl | rfl) | rfl) | rfl := space <;> rfl
  · obtain rfl | rfl := Text.isLineBreak_iff.mp line <;> rfl
  · cases comment

end Fades

/-- Sound trivia fades in front of every text. -/
theorem fades_of_sound {trivia : Trivia} (filled : trivia ≠ []) (sound : trivia.Sound)
    (cs : List Char) : Fades trivia cs where
  begins piece first := by
    obtain ⟨rest, rfl⟩ := List.head?_eq_some_iff.mp first
    exact sound.1
  stands := .inl filled
  skipped := by
    simpa using words_congr_outline (sound.outline_render [] cs)

/-- At the end of a text, trivia fades that ended two other texts, if the first of them leaves no
comment open and the second begins with a line break. -/
theorem fades_at_end {first second : Trivia}
    (read : lexemes false 0 first.render.toList = first.map .piece)
    (closed : ∀ piece ∈ first, Comment.isUnclosed piece = false)
    (next : lexemes false 0 second.render.toList = second.map .piece)
    (newline : ∀ piece ∈ second.head?, piece.isNewline) : Fades (first ++ second) [] := by
  have sound : ∀ piece ∈ second.head?, piece.Sound := by
    intro piece head
    have line := newline piece head
    obtain ⟨rest, rfl⟩ := List.head?_eq_some_iff.mp head
    obtain ⟨kind, length, found, same, -⟩ := triviaExtent?_of_lexemes next
    rw [← same] at line ⊢
    refine (sound_of_triviaExtent? found fun comment => ?_).1
    obtain rfl : kind = .newline := by simpa [Piece.isNewline] using line
    cases comment
  have halts : Text.Halts second.render.toList := by
    cases second with
    | nil => exact Text.halts_nil
    | cons piece rest =>
      rw [Trivia.render, String.toList_append]
      exact ((sound piece rfl).breaks (newline piece rfl) _).halts
  obtain ⟨begins, skipped⟩ := outline_of_pieces read closed halts []
  refine ⟨?_, .inr rfl, ?_⟩
  · rw [List.head?_append]
    cases first with
    | nil => exact sound
    | cons piece rest => exact begins
  · have words := words_congr_outline skipped
    rw [List.append_nil, List.append_nil, words_append, words_pieces, next, words_pieces] at words
    rw [List.append_nil, Trivia.render_append, String.toList_append, words]
    rfl

end Lexer

namespace Token

def leadingAll (tokens : List Token) : Trivia :=
  tokens.head?.elim [] leading

def trailingAll (tokens : List Token) : Trivia :=
  tokens.getLast?.elim [] trailing

/-- The trivia at the seam between tokens and tokens behind them. -/
def between (left right : List Token) : Trivia :=
  trailingAll left ++ leadingAll right

/-- The lexemes of tokens without the trivia at both ends. -/
def core : List Token → List Lexeme
  | [] => []
  | [token] => [.token token.kind token.text]
  | token :: next :: rest =>
    .token token.kind token.text ::
      ((token.trailing ++ next.leading).map .piece ++ core (next :: rest))

theorem exists_core_eq_cons (token : Token) (rest : List Token) :
    ∃ more, core (token :: rest) = .token token.kind token.text :: more := by
  cases rest with
  | nil => exact ⟨[], rfl⟩
  | cons next rest => exact ⟨_, rfl⟩

theorem core_leading (token : Token) (leading : Trivia) (rest : List Token) :
    core ({ token with leading } :: rest) = core (token :: rest) := by
  cases rest <;> rfl

theorem core_cons_append (token : Token) (rest right : List Token) (h : right ≠ []) :
    core (token :: rest ++ right) =
      core (token :: rest) ++ ((between (token :: rest) right).map .piece ++ core right) := by
  induction rest generalizing token with
  | nil =>
    obtain ⟨first, others, rfl⟩ := List.exists_cons_of_ne_nil h
    rfl
  | cons next rest ih =>
    have last : between (token :: next :: rest) right = between (next :: rest) right := by
      simp [between, trailingAll]
    have later := ih next
    rw [List.cons_append] at later
    rw [List.cons_append, List.cons_append, core, core, later, last]
    simp only [List.cons_append, List.append_assoc]

theorem core_append {left right : List Token} (some : left ≠ []) (more : right ≠ []) :
    core (left ++ right) = core left ++ ((between left right).map .piece ++ core right) := by
  obtain ⟨token, rest, rfl⟩ := List.exists_cons_of_ne_nil some
  exact core_cons_append token rest right more

theorem lexemesAll_eq_core {tokens : List Token} (h : tokens ≠ []) :
    lexemesAll tokens = (leadingAll tokens).map .piece ++
      (core tokens ++ (trailingAll tokens).map .piece) := by
  obtain ⟨token, rest, rfl⟩ := List.exists_cons_of_ne_nil h
  clear h
  induction rest generalizing token with
  | nil => simp [lexemes, leadingAll, trailingAll, core]
  | cons next rest ih =>
    rw [lexemesAll_cons, ih next, lexemes, core]
    simp [leadingAll, trailingAll]

theorem renderAll_eq_core {tokens : List Token} (h : tokens ≠ []) :
    renderAll tokens = (leadingAll tokens).render ++
      (Lexeme.textAll (core tokens) ++ (trailingAll tokens).render) := by
  rw [← textAll_lexemesAll, lexemesAll_eq_core h, textAll_append, textAll_append, textAll_pieces,
    textAll_pieces]

theorem words_core (tokens : List Token) : words (core tokens) = tokens.map bare := by
  obtain rfl | h := Decidable.em (tokens = [])
  · rfl
  · rw [map_bare_eq_words, lexemesAll_eq_core h]
    simp

theorem exists_core_eq_concat {tokens : List Token} {last : Token} (h : last ∈ tokens.getLast?) :
    ∃ others, core tokens = others ++ [.token last.kind last.text] := by
  obtain ⟨before, rfl⟩ := List.getLast?_eq_some_iff.mp h
  obtain rfl | some := Decidable.em (before = [])
  · exact ⟨[], rfl⟩
  · rw [core_append some (List.cons_ne_nil _ _), ← List.append_assoc]
    exact ⟨_, rfl⟩

/-- The text of tokens ends with that of the last of them. -/
theorem getLast?_textAll_core {tokens : List Token} {last : Token} (h : last ∈ tokens.getLast?)
    (filled : last.text ≠ "") (before : String) :
    (before ++ Lexeme.textAll (core tokens)).toList.getLast? = last.text.toList.getLast? := by
  obtain ⟨others, parts⟩ := exists_core_eq_concat h
  have chars : last.text.toList ≠ [] := by simpa using filled
  rw [parts, textAll_append, Lexeme.textAll, Lexeme.textAll, String.append_empty,
    ← String.append_assoc, String.toList_append, Lexeme.text,
    List.getLast?_append_of_ne_nil _ chars]

theorem isBackquote_of_mem_core {tokens : List Token} (h : ∀ token ∈ tokens, token.text ≠ "`")
    {lexeme : Lexeme} (member : lexeme ∈ core tokens) : lexeme.isBackquote = false := by
  cases lexeme with
  | piece trivia => rfl
  | token kind text =>
    have word : (⟨kind, text, [], []⟩ : Token) ∈ words (core tokens) :=
      List.mem_filterMap.mpr ⟨_, member, rfl⟩
    rw [words_core] at word
    obtain ⟨token, among, same⟩ := List.mem_map.mp word
    have plain := h token among
    rw [show token.text = text from congrArg Token.text same] at plain
    simpa [Lexeme.isBackquote] using plain

/-- The characters on both sides of the seam between two stretches do not join. -/
def isCut (left right : List Token) : Bool :=
  left.getLast?.any fun last => right.head?.any fun first =>
    last.text.toList.getLast?.any fun c => first.text.toList.head?.any fun d => !joins c d

/-- Two stretches of tokens without trivia between them, where no token of the first goes on in the
second. -/
structure Abuts (left right : List Token) : Prop where
  empty : between left right = []
  /-- A backquote on its own could find another one on its line. -/
  quotes : ∀ token ∈ left, token.text ≠ "`"
  cut : isCut left right

/-- Two stretches of tokens stand apart if trivia that can be read as such stands between them, and
if nothing in the first one reaches into that trivia. No trivia is needed at the end of the text, and
where nothing goes on from the first stretch to the second. -/
structure Apart (left right : List Token) : Prop where
  /-- No literal is left open. -/
  shut : ∀ last ∈ left.getLast?, last.kind = .stringLiteral →
    StringLiteral.isClosed last.text.toList
  /-- A slash and a comment behind it would be read as another comment. -/
  slash : ∀ last ∈ left.getLast?, last.text.toList.getLast? = some '/' →
    ∀ piece ∈ (between left right).head?, piece.kind.isComment = false
  /-- A backquote on its own could find another one on its line. -/
  quotes : (∀ piece ∈ (between left right).head?, piece.isNewline) ∨
    ∀ token ∈ left, token.text ≠ "`"
  skipped : left = [] ∨ (∀ token ∈ right.head?, token.isEnd) ∨
    between left right ≠ [] ∧ (between left right).Sound ∨ Abuts left right

def isAbutting (left right : List Token) : Bool :=
  (between left right).isEmpty && (left.all fun token => token.text != "`") && isCut left right

theorem isAbutting_iff {left right : List Token} : isAbutting left right ↔ Abuts left right := by
  simp only [isAbutting, Bool.and_eq_true, List.isEmpty_iff, List.all_eq_true, bne_iff_ne, and_assoc]
  constructor
  · rintro ⟨empty, quotes, cut⟩
    exact ⟨empty, quotes, cut⟩
  · intro h
    exact ⟨h.empty, h.quotes, h.cut⟩

def isApart (left right : List Token) : Bool :=
  let gap := between left right
  left.getLast?.all (fun last =>
      (last.kind != .stringLiteral || StringLiteral.isClosed last.text.toList) &&
        (last.text.toList.getLast? != some '/' || gap.head?.all (!·.kind.isComment))) &&
    (gap.head?.all Piece.isNewline || left.all fun token => token.text != "`") &&
    (left.isEmpty || right.head?.all isEnd || !gap.isEmpty && gap.isSound || isAbutting left right)

theorem isApart_iff {left right : List Token} : isApart left right ↔ Apart left right := by
  have all {α : Type} (o : Option α) (p : α → Bool) : o.all p = true ↔ ∀ a ∈ o, p a := by
    cases o <;> simp
  simp only [isApart, Bool.and_eq_true, Bool.or_eq_true, all, List.all_eq_true,
    Trivia.isSound_iff, isAbutting_iff, List.isEmpty_iff, bne_iff_ne, Bool.not_eq_true',
    List.isEmpty_eq_false_iff, or_assoc, ← Decidable.imp_iff_not_or]
  constructor
  · rintro ⟨⟨ends, quotes⟩, skipped⟩
    exact ⟨fun last member => (ends last member).1, fun last member => (ends last member).2,
      quotes, skipped⟩
  · intro h
    exact ⟨⟨fun last member => ⟨h.shut last member, h.slash last member⟩, h.quotes⟩, h.skipped⟩

instance (left right : List Token) : Decidable (Apart left right) :=
  decidable_of_iff _ isApart_iff

-- a brace and a question mark end what stands in front of a word, another word does not
example : Apart (lex "struct S \x7b\x7d").dropLast (lex "let y") ∧
    Apart (lex "var x: Int?").dropLast (lex "let y") ∧
    ¬Apart (lex "let x = a").dropLast (lex "let y") := by decide +kernel

/-- The tokens are read as such at some place, with the given trivia in front of them. -/
def Legible (atStart : Bool) (lead : Trivia) (tokens : List Token) : Prop :=
  ∃ rest later, Lexer.lexemes atStart 0
    ((lead.render ++ Lexeme.textAll (core tokens)).toList ++ rest) =
      lead.map .piece ++ core tokens ++ later

/-- Nothing in a stretch of tokens goes on in a text behind it. -/
structure Ends (left : List Token) (new : List Char) : Prop where
  shut : ∀ last ∈ left.getLast?, last.kind = .stringLiteral →
    StringLiteral.isClosed last.text.toList
  slash : ∀ last ∈ left.getLast?, last.text.toList.getLast? = some '/' →
    opensComment ('/' :: new) = false
  quotes : Text.Halts new ∨ ∀ token ∈ left, token.text ≠ "`"
  cut : ∀ last ∈ left.getLast?, Cut last.text.toList new

theorem Apart.ends_of_fades {left right : List Token} (apart : Apart left right) {cs : List Char}
    (fades : Fades (between left right) cs) :
    Ends left ((between left right).render.toList ++ cs) where
  shut := apart.shut
  slash last final slash := fades.not_opensComment (apart.slash last final slash)
  quotes := apart.quotes.imp fades.halts id
  cut _ _ := .inl fades.separates

theorem head?_textAll_core {tokens : List Token} {first : Token} {c : Char}
    (h : first ∈ tokens.head?) (begins : c ∈ first.text.toList.head?) :
    c ∈ (Lexeme.textAll (core tokens)).toList.head? := by
  obtain ⟨rest, rfl⟩ := List.head?_eq_some_iff.mp h
  obtain ⟨more, core⟩ := exists_core_eq_cons first rest
  obtain ⟨others, chars⟩ := List.head?_eq_some_iff.mp begins
  rw [core, Lexeme.textAll, String.toList_append, Lexeme.text, chars]
  rfl

theorem Apart.ends_of_abuts {left right : List Token} (apart : Apart left right)
    (abuts : Abuts left right) : Ends left (Lexeme.textAll (core right)).toList := by
  have cut := abuts.cut
  simp only [isCut, Option.any_eq_true, Bool.not_eq_true'] at cut
  obtain ⟨last, final, first, begins, c, ends, d, starts, divided⟩ := cut
  have next := head?_textAll_core begins starts
  refine ⟨apart.shut, ?_, .inr abuts.quotes, ?_⟩
  · intro other member slash
    obtain rfl : last = other := Option.some.inj (final.symm.trans member)
    obtain rfl : c = '/' := Option.some.inj (ends.symm.trans slash)
    obtain ⟨rest, chars⟩ := List.head?_eq_some_iff.mp next
    rw [chars]
    exact not_opensComment_of_joins divided rest
  · intro other member
    obtain rfl : last = other := Option.some.inj (final.symm.trans member)
    exact .inr ⟨c, ends, d, next, divided⟩

/-- Tokens that are read at some place are read as well in front of any text that they do not go on
in. -/
theorem Legible.words_append {atStart : Bool} {lead : Trivia} {left : List Token}
    (h : Legible atStart lead left) (filled : left ≠ []) {new : List Char} (ends : Ends left new) :
    words (Lexer.lexemes atStart 0 ((lead.render ++ Lexeme.textAll (core left)).toList ++ new)) =
      left.map bare ++ words (Lexer.lexemes false 0 new) := by
  obtain ⟨rest, later, found⟩ := h
  have covers : Lexeme.textAll (lead.map .piece ++ core left) =
      String.ofList (lead.render ++ Lexeme.textAll (core left)).toList := by
    rw [textAll_append, textAll_pieces, String.ofList_toList]
  obtain ⟨last, final⟩ := Option.ne_none_iff_exists'.mp (mt List.getLast?_eq_none_iff.mp filled)
  obtain ⟨others, parts⟩ := exists_core_eq_concat final
  have nonempty : last.text ≠ "" := by
    have read : .token last.kind last.text ∈ lead.map Lexeme.piece ++ core left ++ later := by
      simp [parts]
    rw [← found] at read
    exact text_ne_empty_of_mem_lexemes read
  have cut : Cut (lead.render ++ Lexeme.textAll (core left)).toList new := by
    have inside := (ends.cut last final).append (lead.render ++ Lexeme.textAll others).toList
    rw [parts, textAll_append]
    simpa [Lexeme.textAll, Lexeme.text, List.append_assoc] using inside
  have settled := lexemes_settled (fun _ => cut) found covers
    (fun slash => ends.slash last final (getLast?_textAll_core final nonempty _ ▸ slash))
    (ends.quotes.imp id fun plain lexeme member => by
      obtain trivia | inside := List.mem_append.mp member
      · obtain ⟨piece, -, rfl⟩ := List.mem_map.mp trivia
        rfl
      · exact isBackquote_of_mem_core plain inside)
    (fun lexeme member => .inl (by
      rw [parts, ← List.append_assoc, List.getLast?_concat] at member
      cases member
      simpa [Lexeme.isShut, Decidable.imp_iff_not_or] using ends.shut last final))
  have begun : (lead.map Lexeme.piece ++ core left).isEmpty = false := by simp [parts]
  rw [begun, Bool.and_false] at settled
  rw [settled]
  simp [words_core]

/-- At a seam, the trivia fades or there is none. -/
def Meets (left right : List Token) : Prop :=
  Fades (between left right) (Lexeme.textAll (core right)).toList ∨ Abuts left right

/-- Tokens that are read at some place are read as well in front of tokens that they stand apart
from. -/
theorem Legible.words_meet {atStart : Bool} {lead : Trivia} {left right : List Token}
    (h : Legible atStart lead left) (filled : left ≠ []) (more : right ≠ [])
    (apart : Apart left right) (meets : Meets left right) :
    words (Lexer.lexemes atStart 0 (lead.render ++ Lexeme.textAll (core (left ++ right))).toList) =
      left.map bare ++ words (Lexer.lexemes false 0 (Lexeme.textAll (core right)).toList) := by
  have text : (lead.render ++ Lexeme.textAll (core (left ++ right))).toList =
      (lead.render ++ Lexeme.textAll (core left)).toList ++
        ((between left right).render.toList ++ (Lexeme.textAll (core right)).toList) := by
    rw [core_append filled more, textAll_append, textAll_append, textAll_pieces]
    simp only [String.toList_append, List.append_assoc]
  rw [text]
  obtain fades | abuts := meets
  · rw [h.words_append filled (apart.ends_of_fades fades), fades.skipped]
  · rw [abuts.empty, Trivia.render, String.toList_empty, List.nil_append]
    exact h.words_append filled (apart.ends_of_abuts abuts)

/-- With their trivia the tokens are what a text consists of. Which of two tokens the trivia between
them belongs to does not matter. -/
def IsReading (tokens : List Token) (text : String) : Prop :=
  lexemesAll tokens = Lexer.lexemes true 0 text.toList ++ [.token .endOfFile ""]

theorem isReading_lex (text : String) : IsReading (lex text) text :=
  lexemesAll_lex text

/-- What a text consists of from some token on, or behind its start, is read everywhere. -/
theorem lexemes_textAll {text : String} {front later : List Lexeme}
    (found : Lexer.lexemes true 0 text.toList = front ++ later)
    (starts : front ≠ [] ∨ ∀ lexeme ∈ later.head?, ∃ kind word, lexeme = .token kind word) :
    Lexer.lexemes false 0 (Lexeme.textAll later).toList = later := by
  have whole : text.toList = (Lexeme.textAll front).toList ++ (Lexeme.textAll later).toList := by
    rw [← String.toList_append, ← textAll_append, ← found, textAll_lexemes, List.drop_zero,
      String.ofList_toList]
  rw [whole] at found
  have here := lexemes_rest found (String.ofList_toList).symm
  obtain some | starts := starts
  · rwa [List.isEmpty_eq_false_iff.mpr some, Bool.and_false] at here
  cases later with
  | nil => rfl
  | cons first later =>
    obtain ⟨kind, word, rfl⟩ := starts first rfl
    exact lexemes_eq_token_cons here

theorem head?_core_append {tokens : List Token} (filled : tokens ≠ []) (more : List Lexeme) :
    ∀ lexeme ∈ (core tokens ++ more).head?, ∃ kind word, lexeme = .token kind word := by
  obtain ⟨token, rest, rfl⟩ := List.exists_cons_of_ne_nil filled
  obtain ⟨others, parts⟩ := exists_core_eq_cons token rest
  rw [parts]
  rintro _ ⟨⟩
  exact ⟨_, _, rfl⟩

/-- A stretch of a text that does not reach to its end is legible, and at the start of the text
together with the trivia in front of it. -/
theorem IsReading.legible {text : String} {before tokens after : List Token}
    (h : IsReading (before ++ (tokens ++ after)) text) (filled : tokens ≠ []) (more : after ≠ []) :
    Legible false [] tokens ∧ (before = [] → Legible true (leadingAll tokens) tokens) := by
  obtain ⟨others, last, parts⟩ : ∃ others last, lexemesAll after = others ++ [last] := by
    obtain ⟨token, rest, rfl⟩ := List.exists_cons_of_ne_nil more
    obtain none | ⟨others, last, parts⟩ := List.eq_nil_or_concat (lexemesAll (token :: rest))
    · simp [lexemes] at none
    · exact ⟨others, last, by rw [parts, List.concat_eq_append]⟩
  let later := (trailingAll tokens).map Lexeme.piece ++ others
  have found : Lexer.lexemes true 0 text.toList =
      lexemesAll before ++ (leadingAll tokens).map Lexeme.piece ++ (core tokens ++ later) := by
    rw [IsReading, lexemesAll_append, lexemesAll_append, lexemesAll_eq_core filled, parts] at h
    have whole : lexemesAll before ++ (leadingAll tokens).map Lexeme.piece ++
        (core tokens ++ later) ++ [last] =
          Lexer.lexemes true 0 text.toList ++ [.token .endOfFile ""] := by
      rw [← h]
      simp only [later, List.append_assoc]
    exact (List.append_inj' whole rfl).1.symm
  constructor
  · refine ⟨(Lexeme.textAll later).toList, later, ?_⟩
    have here := lexemes_textAll found (.inr (head?_core_append filled later))
    rw [textAll_append, String.toList_append] at here
    simpa [Trivia.render] using here
  · rintro rfl
    refine ⟨(Lexeme.textAll later).toList, later, ?_⟩
    have whole := textAll_lexemes true 0 text.toList
    rw [List.drop_zero, String.ofList_toList, found, lexemesAll_nil, List.nil_append,
      textAll_append, textAll_append, textAll_pieces, ← String.append_assoc] at whole
    rw [← String.toList_append, whole, found, lexemesAll_nil, List.nil_append, List.append_assoc]

/-- Trivia at the end of a text, behind something else. -/
theorem IsReading.lexemes_end {text : String} {tokens : List Token} {front : List Lexeme}
    {trivia : Trivia} (h : IsReading tokens text)
    (parts : lexemesAll tokens = front ++ trivia.map .piece ++ [.token .endOfFile ""])
    (some : front ≠ []) : Lexer.lexemes false 0 trivia.render.toList = trivia.map .piece := by
  have found : Lexer.lexemes true 0 text.toList = front ++ trivia.map .piece :=
    (List.append_inj' (h.symm.trans parts) rfl).1
  have here := lexemes_textAll found (.inl some)
  rwa [textAll_pieces] at here

/-- The last stretch of a text is read as its tokens behind the trivia in front of it. -/
structure Faithful (tokens : List Token) : Prop where
  ends : trailingAll tokens = []
  words : words (Lexer.lexemes false 0 (Lexeme.textAll (core tokens)).toList) ++
    [⟨.endOfFile, "", [], []⟩] = tokens.map bare

theorem IsReading.faithful {text : String} {before tokens : List Token}
    (h : IsReading (before ++ tokens) text) (filled : tokens ≠ []) : Faithful tokens := by
  rw [IsReading, lexemesAll_append, lexemesAll_eq_core filled] at h
  have ends : trailingAll tokens = [] := by
    obtain none | ⟨others, piece, parts⟩ := List.eq_nil_or_concat (trailingAll tokens)
    · exact none
    · have final := congrArg List.getLast? h
      rw [parts, List.concat_eq_append, List.map_append, List.getLast?_concat] at final
      simp [← List.append_assoc] at final
  obtain ⟨last, final⟩ := Option.ne_none_iff_exists'.mp (mt List.getLast?_eq_none_iff.mp filled)
  obtain ⟨others, parts⟩ := exists_core_eq_concat final
  rw [ends, List.map_nil, List.append_nil, parts, ← List.append_assoc, ← List.append_assoc] at h
  obtain ⟨found, marks⟩ := List.append_inj' h rfl
  have starts : ∀ lexeme ∈ others.head?, ∃ kind word, lexeme = .token kind word := by
    intro lexeme first
    apply head?_core_append filled []
    rw [List.append_nil, parts, List.head?_append, Option.mem_def.mp first]
    rfl
  rw [List.singleton_inj] at marks
  refine ⟨ends, ?_⟩
  rw [parts, marks, textAll_append, ← words_core, parts, marks, words_append]
  have silent : Lexeme.textAll [.token .endOfFile ""] = "" := rfl
  rw [silent, String.append_empty, lexemes_textAll found.symm (.inr starts)]
  rfl

/-- Tokens that are read as such at some place, and that do not reach to the end. -/
structure Stretch (tokens : List Token) : Prop where
  filled : tokens ≠ []
  inner : ∀ token ∈ tokens, ¬token.isEnd
  legible : Legible false [] tokens

/-- Each stretch stands apart from all that follows it. -/
def Spaced : List (List Token) → List Token → Prop
  | [], _ => True
  | part :: parts, rest => Apart part (parts.flatten ++ rest) ∧ Spaced parts rest

instance decidableSpaced : (parts : List (List Token)) → (rest : List Token) →
    Decidable (Spaced parts rest)
  | [], _ => .isTrue trivial
  | _ :: parts, rest => @instDecidableAnd _ _ _ (decidableSpaced parts rest)

/-- Where only the end of the text is left, the trivia in front of it fades. -/
def Closes (parts : List (List Token)) (rest : List Token) : Prop :=
  (∀ token ∈ rest.head?, token.isEnd) → ∀ last ∈ parts.getLast?,
    Fades (between last rest) (Lexeme.textAll (core rest)).toList

section Stretches

variable {part rest : List Token} {parts : List (List Token)}

theorem Closes.tail (h : Closes (part :: parts) rest) : Closes parts rest := by
  intro atEnd last member
  apply h atEnd last
  cases parts with
  | nil => cases member
  | cons next parts => simpa using member

theorem Closes.cons (h : Closes parts rest) (some : parts ≠ []) : Closes (part :: parts) rest := by
  obtain ⟨next, others, rfl⟩ := List.exists_cons_of_ne_nil some
  intro atEnd last member
  exact h atEnd last (by simpa using member)

theorem Spaced.apart_of_getLast? (h : Spaced parts rest) :
    ∀ last ∈ parts.getLast?, Apart last rest := by
  induction parts with
  | nil => simp
  | cons part parts ih =>
    cases parts with
    | nil =>
      rintro _ ⟨⟩
      exact h.1
    | cons next parts =>
      intro last member
      exact ih h.2 last (by simpa using member)

/-- The trivia behind a stretch that stands apart fades, or there is none. -/
theorem Spaced.meets (spaced : Spaced (part :: parts) rest) (filled : part ≠ [])
    (stretches : ∀ next ∈ parts, Stretch next) (closes : Closes (part :: parts) rest) :
    Meets part (parts.flatten ++ rest) := by
  obtain none | atEnd | ⟨some, sound⟩ | abuts := spaced.1.skipped
  · exact absurd none filled
  · cases parts with
    | nil => exact .inl (closes atEnd part rfl)
    | cons next parts =>
      have here := stretches next List.mem_cons_self
      obtain ⟨token, others, rfl⟩ := List.exists_cons_of_ne_nil here.filled
      exact absurd (atEnd token rfl) (here.inner token List.mem_cons_self)
  · exact .inl (fades_of_sound some sound _)
  · exact .inr abuts

theorem Faithful.append {left right : List Token} (h : Faithful right) (more : right ≠ [])
    (filled : left ≠ []) (legible : Legible false [] left) (apart : Apart left right)
    (meets : Meets left right) : Faithful (left ++ right) where
  ends := by
    rw [trailingAll, List.getLast?_append_of_ne_nil _ more]
    exact h.ends
  words := by
    have words := legible.words_meet filled more apart meets
    rw [Trivia.render, String.empty_append] at words
    rw [words, List.append_assoc, h.words, List.map_append]

/-- Stretches that stand apart are read as their tokens, one after the other. The induction is on
the stretches, from the last one backwards. -/
theorem Faithful.flatten (h : Faithful rest) (more : rest ≠ [])
    (stretches : ∀ next ∈ parts, Stretch next) (spaced : Spaced parts rest)
    (closes : Closes parts rest) : Faithful (parts.flatten ++ rest) := by
  induction parts with
  | nil => exact h
  | cons part parts ih =>
    rw [List.forall_mem_cons] at stretches
    obtain ⟨here, others⟩ := stretches
    rw [List.flatten_cons, List.append_assoc]
    exact (ih others spaced.2 closes.tail).append (List.append_ne_nil_of_right_ne_nil _ more)
      here.filled here.legible spaced.1 (spaced.meets here.filled others closes)

/-- A text of stretches that stand apart is read as their tokens. The first of them must be read at
the start of a text, or stand behind trivia that can be read everywhere. -/
theorem map_bare_lex_flatten (h : Faithful rest) (more : rest ≠ [])
    (stretches : ∀ next ∈ part :: parts, Stretch next) (spaced : Spaced (part :: parts) rest)
    (closes : Closes (part :: parts) rest)
    (start : Legible true (leadingAll part) part ∨
      leadingAll part ≠ [] ∧ (leadingAll part).Sound) :
    (lex (renderAll ((part :: parts).flatten ++ rest))).map bare =
      ((part :: parts).flatten ++ rest).map bare := by
  have whole := h.flatten more stretches spaced closes
  rw [List.forall_mem_cons] at stretches
  obtain ⟨here, others⟩ := stretches
  rw [List.flatten_cons, List.append_assoc] at whole ⊢
  have leading : leadingAll (part ++ (parts.flatten ++ rest)) = leadingAll part := by
    obtain ⟨token, tokens, rfl⟩ := List.exists_cons_of_ne_nil here.filled
    rfl
  rw [map_bare_lex, renderAll_eq_core (List.append_ne_nil_of_left_ne_nil here.filled _), whole.ends,
    leading, Trivia.render, String.append_empty]
  obtain legible | ⟨some, sound⟩ := start
  · have later := h.flatten more others spaced.2 closes.tail
    rw [legible.words_meet here.filled (List.append_ne_nil_of_right_ne_nil _ more) spaced.1
      (spaced.meets here.filled others closes), List.append_assoc, later.words, ← List.map_append]
  · obtain ⟨piece, pieces, equation⟩ := List.exists_cons_of_ne_nil some
    have plain := @Trivia.Sound.not_hash piece pieces (equation ▸ sound)
    rw [← equation] at plain
    rw [String.toList_append, lexemes_atStart (plain _), (fades_of_sound some sound _).skipped,
      whole.words]

end Stretches

end Token

end SwiftTree
