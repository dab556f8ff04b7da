import SwiftTree.Proofs.Grammar.Closing
import SwiftTree.Proofs.Record.Recovery

/-!
# Notes on brackets that are not closed

Each diagnostic of a text that says that a closing bracket is missing has one note, and the note
points at the token that opened the bracket. What is wrong with tokens is said in other words, so
these diagnostics all come from the grammar.
-/

namespace SwiftTree

open Grammar (Bracket Report)

namespace Lexer

/-- The kind of an opening bracket tells its text. -/
theorem take_tokenExtent_of_opening {c : Char} {cs : List Char} {bracket : Bracket}
    (h : (tokenExtent (c :: cs)).1 = bracket.openingKind) :
    String.ofList ((c :: cs).take (tokenExtent (c :: cs)).2) = bracket.opening := by
  rw [tokenExtent] at h ⊢
  split at h
  · unfold wordExtent at h
    dsimp only at h
    split at h <;> cases bracket <;> cases h
  rename_i start
  rw [if_neg start]
  split at h
  · unfold numberExtent at h
    split at h
    · cases bracket <;> cases h
    · dsimp only at h
      split at h <;> cases bracket <;> cases h
  rename_i digit
  rw [if_neg digit]
  unfold punctuationExtent at h ⊢
  split at h
  all_goals first
    | (cases bracket <;> cases h <;> rfl)
    | (split at h <;> cases bracket <;> cases h)

end Lexer

/-- An opening bracket of a text is spelled as such. -/
theorem text_of_opening {text : String} {token : Token} {bracket : Bracket}
    (member : token ∈ lex text) (h : token.kind = bracket.openingKind) :
    token.text = bracket.opening := by
  obtain ends | among := Lexer.mem_lexemes_of_mem_attach member
  · have kind : token.kind = .endOfFile := by simpa [Token.isEnd] using ends
    rw [kind] at h
    cases bracket <;> cases h
  · obtain ⟨first, c, rest, -, found⟩ := Lexer.exists_lexeme_of_mem_lexemes among
    unfold Lexer.lexeme at found
    split at found
    · cases found
    · obtain ⟨kind, text⟩ := Lexer.Lexeme.token.inj found
      rw [text]
      exact Lexer.take_tokenExtent_of_opening (kind ▸ h)

namespace Lexer

theorem missingCloser?_of_mem_diagnosticsFrom {offset : Nat} {tokens : List Token}
    {diagnostic : Diagnostic} (h : diagnostic ∈ diagnosticsFrom offset tokens) :
    missingCloser? diagnostic.message = none := by
  induction tokens generalizing offset with
  | nil => cases h
  | cons token rest ih =>
    obtain here | later := List.mem_append.mp h
    · refine missingCloser?_eq_none (c := 'u') ?_ (by decide)
      obtain comment | literal | ⟨shown, character⟩ := message_of_mem_tokenDiagnostics here
      · rw [comment]
        decide +kernel
      · rw [literal]
        decide +kernel
      · rw [character]
        simp
    · exact ih later

end Lexer

namespace Grammar.Report

/-- Looking up the node that a report is about changes nothing else. -/
theorem exists_resolve_eq (report : Report) (sites : List Site) :
    ∃ node, report.resolve sites = { report.diagnostic with node } := by
  unfold resolve
  split
  · exact ⟨_, rfl⟩
  · split
    · exact ⟨_, rfl⟩
    · exact ⟨_, rfl⟩

theorem resolveAll_eq_map (tree : Tree) (reports : List Report) :
    resolveAll tree reports = reports.map fun report => report.resolve tree.sites := by
  cases reports <;> rfl

end Grammar.Report

/-- The diagnostics of a text are those of its tokens and those of the grammar. -/
theorem diagnostics_parse (identity text : String) :
    (parse identity text).diagnostics = lexDiagnostics (lex text) ++
      (Grammar.parseItems .topLevel .sourceFile (lex text)).reports.toList.map
        fun report => report.resolve (parse identity text).tree.sites := by
  rw [← Report.resolveAll_eq_map]
  rfl

/-- A token that opens a bracket is found among the tokens of a text together with its start. -/
theorem exists_of_opens {text : String} {bracket : Bracket} {opened : Nat}
    (h : Grammar.Opens (lex text) bracket opened) :
    ∃ (i : Nat) (token : Token) (start : Nat), (lex text)[i]? = some token ∧
      (tokenStarts (lex text))[i]? = some start ∧ token.kind = bracket.openingKind ∧
      token.text = bracket.opening ∧ opened = start + token.leading.width := by
  obtain ⟨before, token, after, tokens, kind, rfl⟩ := h
  have here : (lex text)[before.length]? = some token := by
    rw [tokens, List.getElem?_append_right (Nat.le_refl _), Nat.sub_self, List.getElem?_cons_zero]
  have starts : (tokenStarts (lex text))[before.length]? = some (Token.widthAll before) := by
    rw [tokenStarts, Lexer.getElem?_startsFrom, here, Option.map_some, Nat.zero_add, tokens,
      List.take_left]
  exact ⟨before.length, token, Token.widthAll before, here, starts, kind,
    text_of_opening (List.mem_of_getElem? here) kind, rfl⟩

/-- Each diagnostic of a text which says that something is missing at the end of a construct is
about a closing bracket. It has one note, which names the opening bracket and points at a token of
the text that is this bracket and stands in front of the place of the diagnostic. No two of these
diagnostics point at the same token. -/
theorem missing_brackets_noted (identity text : String) :
    (∀ diagnostic ∈ (parse identity text).diagnostics, ∀ closing, diagnostic.Misses closing →
      ∃ (bracket : Bracket) (i : Nat) (token : Token) (start offset : Nat),
        closing = bracket.closing ∧ (lex text)[i]? = some token ∧
        (tokenStarts (lex text))[i]? = some start ∧ token.kind = bracket.openingKind ∧
        token.text = bracket.opening ∧
        diagnostic.notes = [⟨"to match this opening '" ++ bracket.opening ++ "'",
          some (start + token.leading.width), none⟩] ∧
        diagnostic.offset = some offset ∧ start + token.leading.width < offset) ∧
      (parse identity text).diagnostics.Pairwise fun first second =>
        ∀ closing other, first.Misses closing → second.Misses other →
          ∀ note ∈ first.notes, ∀ mark ∈ second.notes, note.offset ≠ mark.offset := by
  have filled : ∀ token ∈ lex text, ¬token.isEnd → token.text ≠ "" :=
    fun _ => text_ne_empty_of_mem_lex
  obtain ⟨explained, apart⟩ := Grammar.accounted_parseItems filled .topLevel .sourceFile
  have lexical {diagnostic : Diagnostic} (member : diagnostic ∈ lexDiagnostics (lex text))
      {closing : String} : ¬diagnostic.Misses closing := by
    intro misses
    have other := Lexer.missingCloser?_of_mem_diagnosticsFrom member
    rw [misses.missingCloser?] at other
    cases other
  rw [diagnostics_parse]
  constructor
  · rw [List.forall_mem_append, List.forall_mem_map]
    refine ⟨fun diagnostic member closing misses => absurd misses (lexical member), ?_⟩
    intro report member closing misses
    obtain ⟨node, same⟩ := report.exists_resolve_eq (parse identity text).tree.sites
    have quoted := misses.missingCloser?
    rw [same] at quoted ⊢
    obtain unrelated | ⟨bracket, opened, blames⟩ := explained report member
    · rw [unrelated.message] at quoted
      cases quoted
    · obtain ⟨offset, place, behind⟩ := blames.behind
      obtain ⟨i, token, start, here, starts, kind, spelled, rfl⟩ := exists_of_opens blames.opens
      rw [blames.message, Option.some.injEq] at quoted
      exact ⟨bracket, i, token, start, offset, quoted.symm, here, starts, kind, spelled,
        blames.notes, place, behind⟩
  · rw [List.pairwise_append, List.pairwise_map]
    refine ⟨?_, ?_, ?_⟩
    · refine List.pairwise_of_forall_mem_list ?_
      exact fun first member _ _ _ _ misses => absurd misses (lexical member)
    · refine apart.imp ?_
      intro first second apart _ _ _ _
      obtain ⟨_, same⟩ := first.exists_resolve_eq (parse identity text).tree.sites
      obtain ⟨_, other⟩ := second.exists_resolve_eq (parse identity text).tree.sites
      rw [same, other]
      exact apart
    · exact fun first member _ _ _ _ misses => absurd misses (lexical member)

example : ((parse "a" "f([1").diagnostics.map fun d => (d.message, d.notes.map Note.offset)) =
    [("expected ']' to end expression", [some 2]),
      ("expected ')' to end expression", [some 1])] := by
  decide +kernel

end SwiftTree
