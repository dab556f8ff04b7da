import SwiftTree.Proofs.Grammar.Recovery
import SwiftTree.Proofs.Parse.Lossless
import SwiftTree.Proofs.Record.Quotation

/-!
# Reports of unexpected code

A diagnostic that speaks of unexpected code refers to the node that holds the code: the grammar set
the node aside at the offset that the diagnostic names, and no other node of its kind that is found
later in the tree starts there. Its message quotes what the node begins with, so its record is
placed where the code stands.
-/

namespace SwiftTree

namespace Lexer

theorem message_of_mem_triviaDiagnostics {offset : Nat} {trivia : Trivia} {diagnostic : Diagnostic}
    (h : diagnostic ∈ triviaDiagnostics offset trivia) :
    diagnostic.message = "unterminated '/*' comment" := by
  induction trivia generalizing offset with
  | nil => cases h
  | cons piece rest ih =>
    obtain here | later := List.mem_append.mp h
    · unfold pieceDiagnostic? at here
      split at here
      · rw [Option.toList_some, List.mem_singleton] at here
        rw [here]
      · cases here
    · exact ih later

/-- The only messages about tokens. -/
theorem message_of_mem_tokenDiagnostics {offset : Nat} {token : Token} {diagnostic : Diagnostic}
    (h : diagnostic ∈ tokenDiagnostics offset token) :
    diagnostic.message = "unterminated '/*' comment" ∨
      diagnostic.message = "unterminated string literal" ∨
      ∃ shown, diagnostic.message = "unexpected character '" ++ shown ++ "'" := by
  obtain leading | rest := List.mem_append.mp h
  · exact .inl (message_of_mem_triviaDiagnostics leading)
  obtain text | trailing := List.mem_append.mp rest
  · refine .inr ?_
    unfold textDiagnostic? at text
    split at text
    · split at text
      · cases text
      · rw [Option.toList_some, List.mem_singleton] at text
        rw [text]
        exact .inl rfl
    · split at text
      · cases text
      · rw [Option.toList_some, List.mem_singleton] at text
        rw [text]
        exact .inr ⟨_, rfl⟩
    · cases text
  · exact .inl (message_of_mem_triviaDiagnostics trailing)

/-- What is wrong with tokens is never said to be unexpected code. -/
theorem not_quotes_of_mem_tokenDiagnostics {offset : Nat} {token : Token} {diagnostic : Diagnostic}
    (h : diagnostic ∈ tokenDiagnostics offset token) :
    ¬quotationStart <+: diagnostic.message.toList := by
  intro quotes
  -- the first thirteen characters differ
  have start : diagnostic.message.toList.take 13 = quotationStart.take 13 := by
    obtain ⟨more, same⟩ := quotes
    rw [← same, List.take_append_of_le_length (by decide +kernel)]
  obtain comment | literal | ⟨shown, character⟩ := message_of_mem_tokenDiagnostics h
  · rw [comment] at start
    exact absurd start (by decide +kernel)
  · rw [literal] at start
    exact absurd start (by decide +kernel)
  · rw [character, String.toList_append, String.toList_append, List.append_assoc,
      List.take_append_of_le_length (by decide +kernel)] at start
    exact absurd start (by decide +kernel)

theorem not_quotes_of_mem_diagnosticsFrom {offset : Nat} {tokens : List Token}
    {diagnostic : Diagnostic} (h : diagnostic ∈ diagnosticsFrom offset tokens) :
    ¬quotationStart <+: diagnostic.message.toList := by
  induction tokens generalizing offset with
  | nil => cases h
  | cons token rest ih =>
    obtain here | later := List.mem_append.mp h
    · exact not_quotes_of_mem_tokenDiagnostics here
    · exact ih later

end Lexer

namespace Grammar.Report

theorem mem_resolveAll_iff {tree : Tree} {reports : List Report} {diagnostic : Diagnostic} :
    diagnostic ∈ resolveAll tree reports ↔
      ∃ report ∈ reports, report.resolve tree.sites = diagnostic := by
  cases reports with
  | nil => simp [resolveAll]
  | cons report rest => rw [resolveAll, List.mem_map]

theorem message_resolve (report : Report) (sites : List Site) :
    (report.resolve sites).message = report.diagnostic.message := by
  unfold resolve
  split
  · rfl
  · split
    · rfl
    · rfl

/-- A report about a node that was set aside refers to it, wherever it is in the tree. -/
theorem resolve_of_covers {tree : Tree} {report : Report} {trail : Trail} {offset : Nat}
    {node : Node} (holds : tree.root.Holds trail offset node) (covers : report.Covers offset node) :
    report.resolve tree.sites = { report.diagnostic with node := some trail } := by
  obtain ⟨first, rest, rfl, text⟩ := covers.tokens
  have positive : 0 < Node.widthAll (List.map .token (first :: rest)) := by
    have size : 0 < first.text.utf8ByteSize := by
      rw [Nat.pos_iff_ne_zero, ne_eq, String.utf8ByteSize_eq_zero_iff]
      exact text
    simp [Node.width, Token.width]
    omega
  unfold resolve
  rw [covers.subject]
  dsimp only
  rw [tree.findComposite?_of_holds holds positive]

end Grammar.Report

/-- Each report of unexpected code on a text is about a node of its tree. -/
theorem exists_covers_parse (identity text : String) {diagnostic : Diagnostic}
    (reported : diagnostic ∈ (parse identity text).diagnostics)
    (quotes : quotationStart <+: diagnostic.message.toList) :
    ∃ (report : Grammar.Report) (trail : Trail) (offset : Nat) (node : Node),
      (parse identity text).tree.root.Holds trail offset node ∧ report.Covers offset node ∧
        diagnostic = { report.diagnostic with node := some trail } := by
  obtain lexical | grammatical := List.mem_append.mp reported
  · exact absurd quotes (Lexer.not_quotes_of_mem_diagnosticsFrom lexical)
  · obtain ⟨report, member, rfl⟩ := Grammar.Report.mem_resolveAll_iff.mp grammatical
    have speaks : report.Quotes := by rwa [Grammar.Report.message_resolve] at quotes
    obtain ⟨node, offset, occurs, covers⟩ := Grammar.grounded_parseItems
      (fun _ => text_ne_empty_of_mem_lex) .topLevel .sourceFile member speaks
    obtain ⟨trail, holds⟩ := (occurs.append _).exists_holds .sourceFile
    rw [Nat.zero_add] at covers
    exact ⟨report, trail, offset, node, holds, covers,
      Grammar.Report.resolve_of_covers holds covers⟩

/-- Each diagnostic of a text that speaks of unexpected code refers to the node that holds the code,
at the offset where that node starts, and its message quotes what the node begins with. If the
quotation can be read off the message, the record of the diagnostic is placed where the text of the
node begins, the quoted code stands there, and the place is not a guess. -/
theorem unexpected_code_located (identity text : String) {diagnostic : Diagnostic}
    (reported : diagnostic ∈ (parse identity text).diagnostics)
    (quotes : quotationStart <+: diagnostic.message.toList) :
    ∃ trail node offset code phrase more,
      diagnostic.node = some trail ∧ (parse identity text).tree.at? trail = some node ∧
      node.kind? = some .unexpectedNodes ∧
      (parse identity text).tree.offsetAt? trail = some offset ∧
      diagnostic.offset = some offset ∧
      diagnostic.message = "unexpected code '" ++ code ++ "' " ++ phrase ∧
      (phrase = "at top level" ∨ ∃ kind : NodeKind, phrase = "in " ++ kind.description) ∧
      code ≠ "" ∧ node.contentText = code ++ more ∧
      ∀ quoted, quotedCode? diagnostic.message = some quoted →
        ∃ record ∈ extractRecords {} (parse identity text).tree (parse identity text).diagnostics,
          record = diagnostic.record {} (parse identity text).tree text ∧
          record.nodeLocation = some record.location ∧
          (∃ before after, text = before ++ quoted ++ after ∧
            before.utf8ByteSize = offset + node.leadingWidth ∧
            locate text before.utf8ByteSize = some record.location) ∧
          (record.position = .exact ∨ record.position = .corrected) := by
  obtain ⟨report, trail, offset, node, holds, covers, same⟩ :=
    exists_covers_parse identity text reported quotes
  have about : diagnostic.node = some trail := by rw [same]
  have start : diagnostic.offset = some offset := by rw [same]; exact covers.offset
  have words : diagnostic.message = report.diagnostic.message := by rw [same]
  obtain ⟨code, phrase, more, message, place, nonempty, content⟩ := covers.message
  rw [← words] at message
  obtain ⟨_, _, shape, -⟩ := covers.tokens
  have kind : node.kind? = some .unexpectedNodes := by rw [shape]; rfl
  have render : (parse identity text).tree.render = text := (parse_lossless identity text).2.2
  refine ⟨trail, node, offset, code, phrase, more, about, holds.1, kind, holds.2, start, message,
    place, nonempty, content, ?_⟩
  intro quoted found
  obtain ⟨others, split⟩ := exists_eq_append_of_quotedCode? (message ▸ found)
  rw [split, String.append_assoc] at content
  obtain ⟨before, after, whole, width, located, here, trusted⟩ :=
    Diagnostic.record_of_quoted holds kind about start found content
  rw [render] at whole located here trusted
  refine ⟨_, ?_, rfl, here, ⟨before, after, whole, width, located⟩, trusted⟩
  rw [extractRecords, List.mem_mergeSort, render]
  exact List.mem_map_of_mem reported

/-- Numbers among the members of a structure are found where they stand, not in the comment above
them, and the semicolon on the next line is not part of the quotation. -/
theorem unexpected_code_located_below_comment :
    ∃ diagnostic trail node, ∃ record : Record,
      diagnostic ∈ (parse "a" "struct S \x7b\n  // 1 2\n  1 2\n  ;\n\x7d").diagnostics ∧
      quotationStart <+: diagnostic.message.toList ∧
      diagnostic.message = "unexpected code '1 2' in struct" ∧ diagnostic.node = some trail ∧
      (parse "a" "struct S \x7b\n  // 1 2\n  1 2\n  ;\n\x7d").tree.at? trail = some node ∧
      node.contentText = "1 2\n  ;" ∧
      record = diagnostic.record {} (parse "a" "struct S \x7b\n  // 1 2\n  1 2\n  ;\n\x7d").tree
        "struct S \x7b\n  // 1 2\n  1 2\n  ;\n\x7d" ∧
      record.nodeLocation = some record.location ∧ record.location = ⟨3, 3⟩ ∧
      (record.position = .exact ∨ record.position = .corrected) := by
  let text := "struct S \x7b\n  // 1 2\n  1 2\n  ;\n\x7d"
  let tree := (parse "a" text).tree
  have facts : (parse "a" text).diagnostics.map (fun d => (d.message,
      (d.node.bind tree.at?).map Node.contentText, (d.record {} tree text).location)) =
        [("unexpected code '1 2' in struct", some "1 2\n  ;", ⟨3, 3⟩)] := by decide +kernel
  obtain ⟨diagnostic, only, values⟩ := List.map_eq_singleton_iff.mp facts
  obtain ⟨message, content, location⟩ :
      diagnostic.message = "unexpected code '1 2' in struct" ∧
        (diagnostic.node.bind tree.at?).map Node.contentText = some "1 2\n  ;" ∧
        (diagnostic.record {} tree text).location = ⟨3, 3⟩ := by simpa using values
  have reported : diagnostic ∈ (parse "a" text).diagnostics := by
    rw [only]
    exact List.mem_cons_self
  have quotes : quotationStart <+: diagnostic.message.toList := by
    rw [message, ← List.isPrefixOf_iff_prefix]
    decide +kernel
  obtain ⟨trail, node, _, _, _, _, about, found, -, -, -, -, -, -, -, located⟩ :=
    unexpected_code_located "a" text reported quotes
  obtain ⟨record, -, same, here, -, trusted⟩ := located "1 2" (by rw [message]; decide +kernel)
  rw [about, Option.bind_some, found, Option.map_some, Option.some.injEq] at content
  exact ⟨diagnostic, trail, node, record, reported, quotes, message, about, found, content, same,
    here, same ▸ location, trusted⟩

end SwiftTree
