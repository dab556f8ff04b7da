import SwiftTree.Proofs.Token.Closing
import SwiftTree.Proofs.Token.Relead

/-!
# Remedies for what is not closed

A comment or a literal that is not closed is reported where it begins, and the remedy puts its
closing delimiter where it ends. What is read in front of it stays as it is. So the remedy works
exactly if the delimiter closes the comment or the literal. It does not if more than one level of a
comment is open, if the comment ends in half a delimiter, or if the literal ends in an open escape;
and for a literal that is only two quotes so far it depends on what follows.
-/

namespace SwiftTree

namespace Lexer

def Lexeme.diagnostic? (offset : Nat) : Lexeme → Option Diagnostic
  | .piece trivia => pieceDiagnostic? offset trivia
  | .token kind text => textDiagnostic? offset ⟨kind, text, [], []⟩

def lexemeDiagnostics (offset : Nat) : List Lexeme → List Diagnostic
  | [] => []
  | lexeme :: rest =>
    (lexeme.diagnostic? offset).toList ++
      lexemeDiagnostics (offset + lexeme.text.utf8ByteSize) rest

theorem lexemeDiagnostics_append (offset : Nat) (as bs : List Lexeme) :
    lexemeDiagnostics offset (as ++ bs) = lexemeDiagnostics offset as ++
      lexemeDiagnostics (offset + (Lexeme.textAll as).utf8ByteSize) bs := by
  induction as generalizing offset with
  | nil => simp [lexemeDiagnostics, Lexeme.textAll]
  | cons first as ih =>
    rw [List.cons_append, lexemeDiagnostics, lexemeDiagnostics, ih, Lexeme.textAll,
      String.utf8ByteSize_append, Nat.add_assoc, List.append_assoc]

theorem triviaDiagnostics_eq (offset : Nat) (trivia : Trivia) :
    triviaDiagnostics offset trivia = lexemeDiagnostics offset (trivia.map .piece) := by
  induction trivia generalizing offset with
  | nil => rfl
  | cons piece rest ih =>
    rw [triviaDiagnostics, ih]
    rfl

theorem tokenDiagnostics_eq (offset : Nat) (token : Token) :
    tokenDiagnostics offset token = lexemeDiagnostics offset token.lexemes := by
  have text (offset : Nat) : textDiagnostic? offset token =
      (Lexeme.token token.kind token.text).diagnostic? offset := rfl
  rw [tokenDiagnostics, Token.lexemes, lexemeDiagnostics_append, lexemeDiagnostics, textAll_pieces,
    Trivia.utf8ByteSize_render, triviaDiagnostics_eq, triviaDiagnostics_eq, text]
  rfl

/-- Which token a piece of trivia belongs to has no bearing on what is wrong with it. -/
theorem diagnosticsFrom_eq (offset : Nat) (tokens : List Token) :
    diagnosticsFrom offset tokens = lexemeDiagnostics offset (Token.lexemesAll tokens) := by
  induction tokens generalizing offset with
  | nil => rfl
  | cons token rest ih =>
    have size : (Lexeme.textAll token.lexemes).utf8ByteSize = token.width := by
      rw [Token.lexemes, textAll_append, Lexeme.textAll, textAll_pieces, textAll_pieces]
      simp [Lexeme.text, Token.width]
    rw [diagnosticsFrom, Token.lexemesAll_cons, lexemeDiagnostics_append, tokenDiagnostics_eq, ih,
      size]

theorem mem_lexemeDiagnostics_iff {offset : Nat} {lexemes : List Lexeme} {diagnostic : Diagnostic} :
    diagnostic ∈ lexemeDiagnostics offset lexemes ↔
      ∃ read found later, lexemes = read ++ found :: later ∧
        found.diagnostic? (offset + (Lexeme.textAll read).utf8ByteSize) = some diagnostic := by
  constructor
  · intro member
    induction lexemes generalizing offset with
    | nil => cases member
    | cons first rest ih =>
      obtain here | behind := List.mem_append.mp member
      · exact ⟨[], first, rest, rfl, Option.mem_toList.mp here⟩
      · obtain ⟨read, found, later, rfl, wrong⟩ := ih behind
        refine ⟨first :: read, found, later, rfl, ?_⟩
        rwa [Lexeme.textAll, String.utf8ByteSize_append, ← Nat.add_assoc]
  · rintro ⟨read, found, later, rfl, wrong⟩
    rw [lexemeDiagnostics_append, lexemeDiagnostics, wrong]
    exact List.mem_append_right _ (List.mem_append_left _ (Option.mem_toList.mpr rfl))

/-- Each diagnostic of a text is about a lexeme, where the lexeme begins. -/
theorem mem_lexDiagnostics_iff {text : String} {diagnostic : Diagnostic} :
    diagnostic ∈ lexDiagnostics (lex text) ↔
      ∃ read found later, lexemes true 0 text.toList = read ++ found :: later ∧
        found.diagnostic? (Lexeme.textAll read).utf8ByteSize = some diagnostic := by
  have last (offset : Nat) : lexemeDiagnostics offset [.token .endOfFile ""] = [] := rfl
  rw [lexDiagnostics, diagnosticsFrom_eq, lexemesAll_lex, lexemeDiagnostics_append, last,
    List.append_nil, mem_lexemeDiagnostics_iff]
  simp only [Nat.zero_add]

end Lexer

/-- The diagnostic is about a comment or a literal that is not closed. -/
def Diagnostic.IsUnterminated (diagnostic : Diagnostic) : Prop :=
  diagnostic.message = "unterminated '/*' comment" ∨
    diagnostic.message = "unterminated string literal"

namespace Lexer

namespace Lexeme

/-- Whether a lexeme is a comment or a literal that is not closed. -/
def isUnterminated : Lexeme → Bool
  | .piece trivia => Comment.isUnclosed trivia
  | .token kind text => kind == .stringLiteral && !StringLiteral.isClosed text.toList

/-- What closes a comment or a literal. -/
def closing : Lexeme → List Char
  | .piece _ => ['*', '/']
  | .token _ text => (StringLiteral.delimiter text.toList).closing

variable {lexeme : Lexeme} {offset : Nat} {diagnostic : Diagnostic}

theorem offset_of_diagnostic? (h : lexeme.diagnostic? offset = some diagnostic) :
    diagnostic.offset = some offset := by
  cases lexeme with
  | piece trivia =>
    unfold diagnostic? pieceDiagnostic? at h
    dsimp only at h
    split at h
    · cases h
      rfl
    · cases h
  | token kind text =>
    unfold diagnostic? textDiagnostic? at h
    dsimp only at h
    split at h
    · split at h
      · cases h
      · cases h
        rfl
    · split at h
      · cases h
      · cases h
        rfl
    · cases h

/-- What is reported of a comment or a literal that is not closed. -/
theorem exists_diagnostic?_of_isUnterminated (h : lexeme.isUnterminated) (offset : Nat) :
    ∃ diagnostic, lexeme.diagnostic? offset = some diagnostic ∧ diagnostic.IsUnterminated ∧
      diagnostic.fixIts.flatMap FixIt.changes =
        [.insert (offset + lexeme.text.utf8ByteSize) (String.ofList lexeme.closing)] := by
  cases lexeme with
  | piece trivia =>
    refine ⟨_, if_pos h, .inl rfl, ?_⟩
    rfl
  | token kind text =>
    simp only [isUnterminated, Bool.and_eq_true, beq_iff_eq, Bool.not_eq_true'] at h
    obtain ⟨rfl, isOpen⟩ := h
    refine ⟨unclosedString offset text, ?_, .inr rfl, rfl⟩
    rw [diagnostic?, textDiagnostic?, isOpen]
    rfl

/-- An unknown character is reported in other words. -/
theorem isUnterminated_of_diagnostic? (h : lexeme.diagnostic? offset = some diagnostic)
    (unterminated : diagnostic.IsUnterminated) : lexeme.isUnterminated := by
  cases lexeme with
  | piece trivia =>
    unfold diagnostic? pieceDiagnostic? at h
    dsimp only at h
    split at h
    · rename_i unclosed
      exact unclosed
    · cases h
  | token kind text =>
    unfold diagnostic? textDiagnostic? at h
    dsimp only at h
    split at h
    · split at h
      · cases h
      · rename_i isOpen
        simpa [isUnterminated] using isOpen
    · split at h
      · cases h
      · cases h
        obtain same | same := unterminated
        · have third := congrArg (fun message => message.toList[2]?) same
          simp at third
        · have third := congrArg (fun message => message.toList[2]?) same
          simp at third
    · cases h

end Lexeme

/-- Lexemes take up space, so there is one lexeme at each place. -/
theorem append_inj_of_textAll {as bs later rest : List Lexeme} {first second : Lexeme}
    (filled : ∀ lexeme ∈ as ++ first :: later, lexeme.text ≠ "")
    (same : as ++ first :: later = bs ++ second :: rest)
    (size : (Lexeme.textAll as).utf8ByteSize = (Lexeme.textAll bs).utf8ByteSize) :
    first = second := by
  have empty {more : List Lexeme} (among : ∀ lexeme ∈ more, lexeme ∈ as ++ first :: later)
      (none : (Lexeme.textAll more).utf8ByteSize = 0) : more = [] := by
    cases more with
    | nil => rfl
    | cons lexeme more =>
      rw [Lexeme.textAll, String.utf8ByteSize_eq_zero_iff, String.append_eq_empty_iff] at none
      exact absurd none.1 (filled lexeme (among lexeme List.mem_cons_self))
  obtain ⟨more, rfl, behind⟩ | ⟨more, rfl, behind⟩ := List.append_eq_append_iff.mp same
  · rw [textAll_append, String.utf8ByteSize_append] at size
    obtain rfl := @empty more (fun _ member => by simp [behind, member]) (by omega)
    exact (List.cons.inj behind).1
  · rw [textAll_append, String.utf8ByteSize_append] at size
    obtain rfl := @empty more (fun _ member => by simp [member]) (by omega)
    exact (List.cons.inj behind).1.symm

/-- Something that is not closed is reported at the start of a lexeme exactly if the lexeme is
it. -/
theorem exists_isUnterminated_iff {text : String} {read later : List Lexeme} {found : Lexeme}
    (here : lexemes true 0 text.toList = read ++ found :: later) :
    (∃ diagnostic ∈ lexDiagnostics (lex text), diagnostic.IsUnterminated ∧
      diagnostic.offset = some (Lexeme.textAll read).utf8ByteSize) ↔ found.isUnterminated := by
  constructor
  · rintro ⟨diagnostic, member, unterminated, place⟩
    obtain ⟨front, other, rest, there, wrong⟩ := mem_lexDiagnostics_iff.mp member
    rw [Lexeme.offset_of_diagnostic? wrong, Option.some.injEq] at place
    obtain rfl := append_inj_of_textAll (fun lexeme among => text_ne_empty_of_mem_lexemes
      (here ▸ among : lexeme ∈ lexemes true 0 text.toList)) (here.symm.trans there) place.symm
    exact Lexeme.isUnterminated_of_diagnostic? wrong unterminated
  · intro isOpen
    obtain ⟨diagnostic, wrong, unterminated, -⟩ :=
      Lexeme.exists_diagnostic?_of_isUnterminated isOpen (Lexeme.textAll read).utf8ByteSize
    exact ⟨diagnostic, mem_lexDiagnostics_iff.mpr ⟨read, found, later, here, wrong⟩, unterminated,
      Lexeme.offset_of_diagnostic? wrong⟩

open StringLiteral (extent opens_iff)

theorem lexeme_of_opens {cs : List Char} (h : (cs.dropWhile (· == '#')).head? = some '"')
    (atStart : Bool) : (lexeme atStart cs).1 =
      .token .stringLiteral (String.ofList (cs.take (extent cs).length)) := by
  obtain ⟨hashes, body, rfl⟩ := opens_iff.mp h
  cases hashes with
  | zero =>
    have start : isIdentifierStart '"' = false := by decide +kernel
    simp [lexeme, triviaExtent?, isSpace, Text.isLineBreak, tokenExtent, start, punctuationExtent]
  | succ hashes =>
    have start : isIdentifierStart '#' = false := by decide +kernel
    have quote : ((List.replicate hashes '#' ++ '"' :: body).dropWhile (· == '#')).head? =
        some '"' := opens_iff.mpr ⟨hashes, body, rfl⟩
    have plain : ¬['!'] <+: List.replicate hashes '#' ++ '"' :: body := by
      cases hashes <;> simp [List.replicate_succ, List.cons_prefix_cons]
    rw [List.replicate_succ, List.cons_append]
    generalize List.replicate hashes '#' ++ '"' :: body = rest at quote plain ⊢
    have trivia : triviaExtent? atStart ('#' :: rest) = none :=
      triviaExtent?_eq_none (by simp [isSpace]) (by simp [Text.isLineBreak])
        (by simp [List.cons_prefix_cons]) (by simp [List.cons_prefix_cons])
        fun hash => plain (List.cons_prefix_cons.mp hash.2).2
    simp [lexeme, trivia, tokenExtent, start, punctuationExtent, quote]

theorem isUnterminated_of_opens {cs : List Char}
    (h : (cs.dropWhile (· == '#')).head? = some '"') (atStart : Bool) :
    (lexeme atStart cs).1.isUnterminated = !(extent cs).isClosed := by
  rw [lexeme_of_opens h, Lexeme.isUnterminated, String.toList_ofList, StringLiteral.isClosed,
    StringLiteral.extent_take h]
  cases extent cs <;> rfl

theorem isUnterminated_of_slash_star {cs : List Char} (h : ['/', '*'] <+: cs) (atStart : Bool) :
    (lexeme atStart cs).1.isUnterminated ↔ ∃ depth, Comment.extent cs = .unclosed depth := by
  have some := Nat.lt_of_lt_of_le Nat.two_pos (two_le_length_comment h)
  rw [lexeme, triviaExtent?_of_slash_star atStart h]
  dsimp only [Lexeme.isUnterminated, Comment.isUnclosed]
  rw [String.toList_ofList]
  cases found : Comment.extent cs with
  | closed length =>
    have size : Comment.length cs = length := by rw [Comment.length, found]
    rw [size] at some ⊢
    simp [Comment.extent_take_of_closed some found]
  | unclosed depth =>
    have all : Comment.length cs = cs.length := by rw [Comment.length, found]
    simp [all, found]

/-- Whether a comment or a literal that is not closed is closed by its closing delimiter, given what
follows. -/
def isRemedied (content rest : List Char) : Bool :=
  if ['/', '*'].isPrefixOf content then
    Comment.extent content == .unclosed 1 && !Comment.endsInSlash content
  else StringLiteral.isRemedied content rest

/-- A comment that is not closed takes all of the text. -/
theorem eq_nil_of_isUnclosed {atStart : Bool} {content rest : List Char} {trivia : Piece}
    (read : (lexeme atStart (content ++ rest)).1 = .piece trivia)
    (spelled : trivia.text = String.ofList content) (isOpen : Comment.isUnclosed trivia) :
    rest = [] ∧ ∃ depth, Comment.extent content = .unclosed depth := by
  have unclosed : ∃ depth, Comment.extent content = .unclosed depth := by
    rw [Comment.isUnclosed, spelled, String.toList_ofList] at isOpen
    split at isOpen
    · cases isOpen
    · rename_i depth found
      exact ⟨depth, found⟩
  refine ⟨?_, unclosed⟩
  obtain ⟨depth, found⟩ := unclosed
  obtain ⟨body, rfl, -⟩ := Comment.exists_eq_of_extent_eq_unclosed found
  have star : ['/', '*'] <+: '/' :: '*' :: body ++ rest :=
    List.prefix_append ['/', '*'] (body ++ rest)
  obtain ⟨levels, all⟩ := (isUnterminated_of_slash_star star atStart).mp (read ▸ isOpen)
  have size : Comment.length ('/' :: '*' :: body ++ rest) =
      ('/' :: '*' :: body ++ rest).length := by
    rw [Comment.length, all]
  rw [lexeme, triviaExtent?_of_slash_star atStart star, size] at read
  cases read
  have chars := String.ofList_injective spelled
  rw [List.take_length] at chars
  exact List.append_right_eq_self.mp chars

theorem isUnterminated_append_end {content : List Char} {depth : Nat}
    (h : Comment.extent content = .unclosed depth) (atStart : Bool) (rest : List Char) :
    (lexeme atStart (content ++ ['*', '/'])).1.isUnterminated = !isRemedied content rest := by
  obtain ⟨body, rfl, -⟩ := Comment.exists_eq_of_extent_eq_unclosed h
  have star : ['/', '*'] <+: '/' :: '*' :: body := List.prefix_append ['/', '*'] body
  rw [isRemedied, if_pos (List.isPrefixOf_iff_prefix.mpr star), Bool.eq_iff_iff,
    isUnterminated_of_slash_star (star.trans (List.prefix_append _ _)),
    Comment.extent_append_end h, h]
  cases Comment.endsInSlash ('/' :: '*' :: body) with
  | true => simp
  | false => by_cases one : depth = 1 <;> simp [one]

theorem opens_of_lexeme {atStart : Bool} {cs : List Char} {text : String}
    (h : (lexeme atStart cs).1 = .token .stringLiteral text) :
    (cs.dropWhile (· == '#')).head? = some '"' := by
  cases cs with
  | nil => cases h
  | cons c cs =>
    unfold lexeme at h
    split at h
    · cases h
    · exact (tokenExtent_eq_stringLiteral (Lexeme.token.inj h).1).1

/-- A literal that is not closed is cut off where it ends. -/
theorem extent_of_not_isClosed {atStart : Bool} {content rest : List Char}
    (read : (lexeme atStart (content ++ rest)).1 = .token .stringLiteral (String.ofList content))
    (isOpen : StringLiteral.isClosed content = false) :
    (content.dropWhile (· == '#')).head? = some '"' ∧
      extent (content ++ rest) = .cut content.length := by
  have opens := opens_of_lexeme read
  rw [lexeme_of_opens opens] at read
  have taken : (content ++ rest).take (extent (content ++ rest)).length = content :=
    String.ofList_injective (Lexeme.token.inj read).2
  have literal := StringLiteral.isLiteral_take opens
  have same := StringLiteral.extent_take opens
  rw [taken] at literal same
  refine ⟨literal.opens, ?_⟩
  have all := literal.all
  rw [StringLiteral.isClosed] at isOpen
  rw [← same]
  cases found : extent content with
  | closed length =>
    rw [found] at isOpen
    cases isOpen
  | cut length =>
    rw [found] at all
    exact congrArg _ all

theorem isUnterminated_append_closing {content rest : List Char}
    (opens : (content.dropWhile (· == '#')).head? = some '"')
    (cut : extent (content ++ rest) = .cut content.length) (atStart : Bool) :
    (lexeme atStart
      (content ++ ((StringLiteral.delimiter content).closing ++ rest))).1.isUnterminated =
        !isRemedied content rest := by
  have same := StringLiteral.isClosed_extent_append opens cut
  obtain ⟨hashes, body, rfl⟩ := opens_iff.mp opens
  have other : ¬['/', '*'].isPrefixOf (List.replicate hashes '#' ++ '"' :: body) := by
    rw [List.isPrefixOf_iff_prefix]
    cases hashes <;> simp [List.replicate_succ, List.cons_prefix_cons]
  rw [isRemedied, if_neg other, ← same, isUnterminated_of_opens]
  exact opens_iff.mpr ⟨hashes, _, by rw [List.append_assoc, List.cons_append]⟩

/-- How a comment or a literal that is not closed begins, and what becomes of it when its closing
delimiter is put behind it. -/
theorem exists_isOpening_of_isUnterminated {atStart : Bool} {content rest : List Char}
    {found : Lexeme} (read : (lexeme atStart (content ++ rest)).1 = found)
    (spelled : found.text = String.ofList content) (isOpen : found.isUnterminated) :
    ∃ front more, IsOpening front ∧ content = front ++ more ∧
      (lexeme atStart (content ++ (found.closing ++ rest))).1.isUnterminated =
        !isRemedied content rest := by
  cases found with
  | piece trivia =>
    obtain ⟨rfl, depth, unclosed⟩ := eq_nil_of_isUnclosed read spelled isOpen
    obtain ⟨body, rfl, -⟩ := Comment.exists_eq_of_extent_eq_unclosed unclosed
    refine ⟨['/', '*'], body, .comment, rfl, ?_⟩
    rw [List.append_nil]
    exact isUnterminated_append_end unclosed atStart []
  | token kind text =>
    simp only [Lexeme.isUnterminated, Bool.and_eq_true, beq_iff_eq, Bool.not_eq_true'] at isOpen
    obtain ⟨rfl, isOpen⟩ := isOpen
    obtain rfl : text = String.ofList content := spelled
    rw [String.toList_ofList] at isOpen
    obtain ⟨opens, cut⟩ := extent_of_not_isClosed read isOpen
    have closed := isUnterminated_append_closing opens cut atStart
    obtain ⟨hashes, body, rfl⟩ := opens_iff.mp opens
    refine ⟨List.replicate hashes '#' ++ ['"'], body, .literal hashes, by simp, ?_⟩
    rw [Lexeme.closing, String.toList_ofList]
    exact closed

/-- A text without backquotes, put into a line, gives no lone backquote another one. -/
theorem backquotedTail?_insert {part inserted rest : List Char} (plain : ∀ c ∈ inserted, c ≠ '`')
    (h : backquotedTail? (part ++ rest) = none) :
    backquotedTail? (part ++ (inserted ++ rest)) = none := by
  induction part with
  | nil =>
    induction inserted with
    | nil => exact h
    | cons c inserted ih =>
      have other : ¬(c == '`') = true := by simpa using plain c List.mem_cons_self
      rw [List.nil_append] at ih ⊢
      rw [List.cons_append, backquotedTail?, if_neg other,
        ih fun c member => plain c (List.mem_cons_of_mem _ member)]
      split <;> rfl
  | cons c part ih =>
    simp only [List.cons_append, backquotedTail?] at h ⊢
    split at h
    · cases h
    rename_i closes
    rw [if_neg closes]
    split at h
    · rename_i stops
      rw [if_pos stops]
    · rename_i goes
      rw [if_neg goes, ih (Option.map_eq_none_iff.mp h)]
      rfl

theorem Lexeme.backquote_notMem_closing (lexeme : Lexeme) : ∀ c ∈ lexeme.closing, c ≠ '`' := by
  rintro c member rfl
  cases lexeme with
  | piece trivia => simp [closing] at member
  | token kind text =>
    simp only [closing, StringLiteral.Delimiter.closing, StringLiteral.Delimiter.quotes] at member
    split at member <;> simp at member

theorem eq_of_lexemes {text : String} {read later : List Lexeme} {found : Lexeme}
    (here : lexemes true 0 text.toList = read ++ found :: later) :
    text = Lexeme.textAll read ++ found.text ++ Lexeme.textAll later := by
  have all := textAll_lexemes true 0 text.toList
  rw [here, textAll_append, Lexeme.textAll, List.drop_zero, String.ofList_toList] at all
  rw [String.append_assoc, all]

theorem lexeme_of_lexemes {atStart : Bool} {cs : List Char} {first : Lexeme} {later : List Lexeme}
    (h : lexemes atStart 0 cs = first :: later) : (lexeme atStart cs).1 = first := by
  cases cs with
  | nil => cases h
  | cons c cs =>
    rw [lexemes_cons] at h
    exact (List.cons.inj h).1

/-- When its closing delimiter is put behind something that is not closed, what is read in front
stays, and there is a lexeme at the same place. -/
theorem exists_lexemes_remedied {text : String} {read later : List Lexeme} {found : Lexeme}
    (here : lexemes true 0 text.toList = read ++ found :: later) (isOpen : found.isUnterminated) :
    ∃ other rest, lexemes true 0 (Lexeme.textAll read ++ found.text ++
        String.ofList found.closing ++ Lexeme.textAll later).toList = read ++ other :: rest ∧
      other.isUnterminated = !isRemedied found.text.toList (Lexeme.textAll later).toList := by
  have parts : text.toList = (Lexeme.textAll read).toList ++
      (found.text.toList ++ (Lexeme.textAll later).toList) := by
    rw [eq_of_lexemes here, String.toList_append, String.toList_append, List.append_assoc]
  rw [parts] at here
  have covers : Lexeme.textAll read = String.ofList (Lexeme.textAll read).toList :=
    String.ofList_toList.symm
  have first := lexeme_of_lexemes (lexemes_rest here covers)
  obtain ⟨front, more, opening, spelled, remedied⟩ :=
    exists_isOpening_of_isUnterminated first String.ofList_toList.symm isOpen
  rw [String.toList_append, String.toList_append, String.toList_append, String.toList_ofList]
  generalize found.text.toList = content at here first spelled remedied ⊢
  generalize (Lexeme.textAll later).toList = after at here first remedied ⊢
  subst spelled
  have again := @lexemes_reopened front (more ++ after) (more ++ (found.closing ++ after)) opening
    read (found :: later) true (Lexeme.textAll read).toList (by rw [← here]; simp) covers
    fun part none => by
      have inserted := @backquotedTail?_insert (part ++ (front ++ more)) found.closing after
        found.backquote_notMem_closing
      simp only [List.append_assoc] at inserted
      exact inserted none
  obtain ⟨c, tail, rfl, -⟩ := opening.exists_eq_cons
  simp only [List.append_assoc, List.cons_append, lexemes_cons] at again remedied ⊢
  exact ⟨_, _, again, remedied⟩

end Lexer

open Lexer (isRemedied)

/-- A comment or a literal that is not closed is reported where it begins, and the one change that
is proposed puts its closing delimiter where it ends. In the text that this gives, nothing that is
not closed is reported at the same place exactly if the delimiter closes the comment or the literal:
if one level of the comment is open and it does not end in a slash, or if no escape is open at the
end of the literal. -/
theorem remedy_closes_iff {text : String} {diagnostic : Diagnostic}
    (reported : diagnostic ∈ lexDiagnostics (lex text))
    (unterminated : diagnostic.IsUnterminated) :
    ∃ before content after closing, text = before ++ content ++ after ∧
      diagnostic.offset = some before.utf8ByteSize ∧
      diagnostic.fixIts.flatMap FixIt.changes =
        [.insert (before.utf8ByteSize + content.utf8ByteSize) closing] ∧
      ((¬∃ other ∈ lexDiagnostics (lex (before ++ content ++ closing ++ after)),
        other.IsUnterminated ∧ other.offset = diagnostic.offset) ↔
          isRemedied content.toList after.toList) := by
  obtain ⟨read, found, later, here, wrong⟩ := Lexer.mem_lexDiagnostics_iff.mp reported
  have isOpen := Lexer.Lexeme.isUnterminated_of_diagnostic? wrong unterminated
  obtain ⟨same, again, -, change⟩ := Lexer.Lexeme.exists_diagnostic?_of_isUnterminated isOpen
    (Lexer.Lexeme.textAll read).utf8ByteSize
  obtain rfl := Option.some.inj (wrong.symm.trans again)
  have place := Lexer.Lexeme.offset_of_diagnostic? wrong
  obtain ⟨other, rest, there, remedied⟩ := Lexer.exists_lexemes_remedied here isOpen
  refine ⟨Lexer.Lexeme.textAll read, found.text, Lexer.Lexeme.textAll later,
    String.ofList found.closing, Lexer.eq_of_lexemes here, place, change, ?_⟩
  rw [place, Lexer.exists_isUnterminated_iff there, remedied]
  simp

/-- A lone backquote, and then a literal with a hash sign that a line break cuts off inside of an
interpolation. -/
theorem remedy_closes_iff_interpolation :
    ∃ diagnostic ∈ lexDiagnostics (lex "` #\"\\#(a\nb"), diagnostic.IsUnterminated ∧
      ∃ before content after closing, "` #\"\\#(a\nb" = before ++ content ++ after ∧
        diagnostic.offset = some before.utf8ByteSize ∧
        diagnostic.fixIts.flatMap FixIt.changes =
          [.insert (before.utf8ByteSize + content.utf8ByteSize) closing] ∧
        ((¬∃ other ∈ lexDiagnostics (lex (before ++ content ++ closing ++ after)),
          other.IsUnterminated ∧ other.offset = diagnostic.offset) ↔
            isRemedied content.toList after.toList) := by
  have reported : Lexer.unclosedString 2 "#\"\\#(a" ∈ lexDiagnostics (lex "` #\"\\#(a\nb") := by
    decide +kernel
  exact ⟨_, reported, .inr rfl, remedy_closes_iff reported (.inr rfl)⟩

/-- One closing delimiter does not close a comment with two open levels. -/
theorem nested_comment_left_open :
    ¬∀ (before after closing : String) (diagnostic : Diagnostic),
      diagnostic ∈ lexDiagnostics (lex (before ++ after)) → diagnostic.IsUnterminated →
      diagnostic.fixIts.flatMap FixIt.changes = [.insert before.utf8ByteSize closing] →
        ∀ other ∈ lexDiagnostics (lex (before ++ closing ++ after)),
          other.IsUnterminated → other.offset ≠ diagnostic.offset := by
  intro h
  let unclosed (stop : Nat) : Diagnostic :=
    { message := "unterminated '/*' comment"
      offset := some 0
      fixIts := [.insert "insert '*/'" stop "*/"] }
  have reported : unclosed 5 ∈ lexDiagnostics (lex ("/* /*" ++ "")) := by decide +kernel
  have again : unclosed 7 ∈ lexDiagnostics (lex ("/* /*" ++ "*/" ++ "")) := by decide +kernel
  exact h "/* /*" "" "*/" _ reported (.inl rfl) (by decide +kernel) _ again (.inl rfl) rfl

example : ["/* a", "/* /*", "/*/", "\"a", "\"\\", "\"\\(a", "#\"\""].map
    (fun content => isRemedied content.toList []) =
      [true, false, false, true, false, false, false] := by
  decide +kernel

end SwiftTree
