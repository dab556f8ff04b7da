import SwiftTree.Proofs.Record.Recovery

/-!
# Reading quoted code back

A message about unexpected code puts the code between single quotes and goes on with a blank.
Reading the code back looks for the first quote in front of a blank, and the code itself may have
one: in a string literal, in a comment between its tokens, or as stray characters. So the code is
read back exactly if it has none, and a record covers what was read back, not always the code.
-/

namespace SwiftTree

namespace Text

/-- In front of the first occurrence of a piece there is no other. -/
theorem not_isInfix_of_before? {piece cs front : List Char} (filled : piece ≠ [])
    (h : before? piece cs = some front) : ¬piece <:+: front := by
  induction cs generalizing front with
  | nil =>
    rw [before?] at h
    split at h
    · obtain rfl := Option.some.inj h
      rw [List.infix_nil]
      exact filled
    · cases h
  | cons c cs ih =>
    rw [before?] at h
    split at h
    · obtain rfl := Option.some.inj h
      rw [List.infix_nil]
      exact filled
    · rename_i other
      obtain ⟨more, found, rfl⟩ := Option.map_eq_some_iff.mp h
      intro occurs
      obtain here | later := List.infix_cons_iff.mp occurs
      · apply other
        rw [List.isPrefixOf_iff_prefix]
        exact here.trans (List.cons_prefix_cons.mpr ⟨rfl, isPrefix_of_before? found⟩)
      · exact ih found later

/-- A piece of two different characters is found first behind a text in which it does not occur: it
cannot begin with the last character of the text. -/
theorem before?_of_not_isInfix {a b : Char} (apart : a ≠ b) {cs : List Char}
    (h : ¬[a, b] <:+: cs) (after : List Char) :
    before? [a, b] (cs ++ ([a, b] ++ after)) = some cs := by
  induction cs with
  | nil =>
    have starts : [a, b].isPrefixOf (a :: b :: after) = true :=
      List.isPrefixOf_iff_prefix.mpr (List.prefix_append [a, b] after)
    exact if_pos starts
  | cons c cs ih =>
    rw [List.infix_cons_iff, not_or] at h
    have other : ¬[a, b].isPrefixOf (c :: (cs ++ ([a, b] ++ after))) = true := by
      rw [List.isPrefixOf_iff_prefix, List.cons_prefix_cons]
      rintro ⟨rfl, next⟩
      cases cs with
      | nil => exact apart (List.cons_prefix_cons.mp next).1.symm
      | cons d cs =>
        obtain ⟨rfl, -⟩ := List.cons_prefix_cons.mp next
        exact h.1 (List.prefix_append [a, b] cs)
    rw [List.cons_append, before?, if_neg other, ih h.2, Option.map_some]

end Text

/-- Code is read back from a message about it exactly if no quote in it stands in front of a
blank. -/
theorem quotedCode?_quotation_self_iff {code : String} (filled : code ≠ "") (phrase : String) :
    quotedCode? ("unexpected code '" ++ code ++ "' " ++ phrase) = some code ↔
      ¬['\'', ' '] <:+: code.toList := by
  rw [quotedCode?_quotation_iff]
  constructor
  · rintro ⟨-, found⟩
    exact Text.not_isInfix_of_before? (List.cons_ne_nil _ _) found
  · intro free
    exact ⟨filled, Text.before?_of_not_isInfix (by decide) free phrase.toList⟩

/-- Each diagnostic of a text that speaks of unexpected code refers to the node that holds the code,
and quotes the content of the tokens that were set aside, with which the node begins. The code is
read back from the message exactly if no quote in it stands in front of a blank. Whatever is read
back begins the code, and the span of the record is its place in the text: from where the code
starts to where the quotation ends. So the span covers the code if the code is read back. -/
theorem quotation_read_back_iff (identity text : String) {diagnostic : Diagnostic}
    (reported : diagnostic ∈ (parse identity text).diagnostics)
    (quotes : quotationStart <+: diagnostic.message.toList) :
    ∃ trail node offset recovered added phrase,
      diagnostic.node = some trail ∧ (parse identity text).tree.at? trail = some node ∧
      (parse identity text).tree.offsetAt? trail = some offset ∧
      node.leaves = recovered ++ added ∧ recovered ≠ [] ∧
      diagnostic.message = "unexpected code '" ++ Token.content recovered ++ "' " ++ phrase ∧
      (phrase = "at top level" ∨ ∃ kind : NodeKind, phrase = "in " ++ kind.description) ∧
      (quotedCode? diagnostic.message = some (Token.content recovered) ↔
        ¬['\'', ' '] <:+: (Token.content recovered).toList) ∧
      ∀ (options : RecordOptions), options.reposition = true →
        ∀ quoted, quotedCode? diagnostic.message = some quoted →
          ∃ record ∈
            extractRecords options (parse identity text).tree (parse identity text).diagnostics,
          ∃ before after more first last,
            record = diagnostic.record options (parse identity text).tree text ∧
            text = before ++ quoted ++ after ∧ Token.content recovered = quoted ++ more ∧
            before.utf8ByteSize = offset + node.leadingWidth ∧
            record.span = ⟨first, some last⟩ ∧
            locate text before.utf8ByteSize = some first ∧
            locate text (before ++ quoted).utf8ByteSize = some last := by
  obtain ⟨report, trail, offset, node, holds, covers, same⟩ :=
    exists_covers_parse identity text reported quotes
  have about : diagnostic.node = some trail := by rw [same]
  have start : diagnostic.offset = some offset := by rw [same]; exact covers.offset
  have words : diagnostic.message = report.diagnostic.message := by rw [same]
  have render : (parse identity text).tree.render = text := (parse_lossless identity text).2.2
  obtain ⟨token, taken, added, phrase, rfl, nonempty, place, message⟩ := covers.recovered
  rw [← words] at message
  let node := Node.composite .unexpectedNodes (List.map .token (token :: taken ++ added))
  have leaves : node.leaves = token :: taken ++ added := by
    rw [Node.leaves_composite, Node.leavesAll_map_token]
  refine ⟨trail, node, offset, token :: taken, added, phrase, about, holds.1, holds.2, leaves,
    List.cons_ne_nil _ _, message, place, ?_, ?_⟩
  · rw [message]
    exact quotedCode?_quotation_self_iff (Token.content_ne_empty nonempty taken) phrase
  · intro options moves quoted found
    obtain ⟨more, split⟩ := exists_eq_append_of_quotedCode? (message ▸ found)
    obtain ⟨others, goes⟩ := Token.exists_content_append (List.cons_ne_nil token taken) added
    have content : node.contentText = quoted ++ (more ++ others) := by
      rw [Node.contentText_eq_content, leaves, goes, split, String.append_assoc]
    obtain ⟨before, after, whole, width, located, ends, -⟩ :=
      Diagnostic.covers_of_quoted moves holds rfl about start found content
    rw [render] at whole located ends
    obtain ⟨last, stops⟩ := exists_locate (before ++ quoted) after
    rw [← whole] at stops
    refine ⟨_, ?_, before, after, more, _, last, rfl, whole, split, width, ?_, located, stops⟩
    · rw [extractRecords, List.mem_mergeSort, render]
      exact List.mem_map_of_mem reported
    · rw [stops] at ends
      exact congrArg (Span.mk _) ends.symm

/-- Quotes among the members of a structure are read back with the code around them, if no blank is
behind them. -/
theorem quotation_read_back_iff_quotes :
    ∃ diagnostic, ∃ record : Record, ∃ before after : String,
      diagnostic ∈ (parse "a" "struct S \x7b\n  1 \"it's\" 'b'\n\x7d").diagnostics ∧
      quotationStart <+: diagnostic.message.toList ∧
      diagnostic.message = "unexpected code '1 \"it's\" 'b'' in struct" ∧
      quotedCode? diagnostic.message = some "1 \"it's\" 'b'" ∧
      record = diagnostic.record {} (parse "a" "struct S \x7b\n  1 \"it's\" 'b'\n\x7d").tree
        "struct S \x7b\n  1 \"it's\" 'b'\n\x7d" ∧
      "struct S \x7b\n  1 \"it's\" 'b'\n\x7d" = before ++ "1 \"it's\" 'b'" ++ after ∧
      record.span = ⟨⟨2, 3⟩, some ⟨2, 15⟩⟩ := by
  let text := "struct S \x7b\n  1 \"it's\" 'b'\n\x7d"
  let tree := (parse "a" text).tree
  have facts : (parse "a" text).diagnostics.map (fun d => (d.message,
      (d.record {} tree text).span)) =
        [("unexpected character '\\''", ⟨⟨2, 12⟩, none⟩),
          ("unexpected character '\\''", ⟨⟨2, 14⟩, none⟩),
          ("unexpected code '1 \"it's\" 'b'' in struct", ⟨⟨2, 3⟩, some ⟨2, 15⟩⟩)] := by
    decide +kernel
  obtain ⟨diagnostic, reported, values⟩ : ∃ d ∈ (parse "a" text).diagnostics,
      (d.message, (d.record {} tree text).span) =
        ("unexpected code '1 \"it's\" 'b'' in struct", ⟨⟨2, 3⟩, some ⟨2, 15⟩⟩) := by
    apply List.mem_map.mp
    rw [facts]
    exact .tail _ (.tail _ (.head _))
  obtain ⟨message, span⟩ := Prod.mk.inj values
  have quotes : quotationStart <+: diagnostic.message.toList := by
    rw [message, ← List.isPrefixOf_iff_prefix]
    decide +kernel
  have found : quotedCode? diagnostic.message = some "1 \"it's\" 'b'" := by
    rw [message]
    decide +kernel
  obtain ⟨_, _, _, _, _, _, -, -, -, -, -, -, -, -, covered⟩ :=
    quotation_read_back_iff "a" text reported quotes
  obtain ⟨record, -, before, after, _, _, _, same, whole, -⟩ := covered {} rfl _ found
  exact ⟨diagnostic, record, before, after, reported, quotes, message, found, same, whole,
    same ▸ span⟩

/-- The string literal has a quote in front of a blank. The message quotes all of the code, but only
what is in front of that quote is read back, and the record ends there. -/
theorem quotation_breaks_off :
    (parse "a" ") \"a' b\"").diagnostics.map (fun d => (d.message,
        (d.node.bind (parse "a" ") \"a' b\"").tree.at?).map Node.contentText,
        quotedCode? d.message)) =
      [("unexpected code ') \"a' b\"' at top level", some ") \"a' b\"", some ") \"a")] ∧
    (extractRecords {} (parse "a" ") \"a' b\"").tree (parse "a" ") \"a' b\"").diagnostics).map
        Record.span = [⟨⟨1, 1⟩, some ⟨1, 5⟩⟩] ∧
    locate ") \"a' b\"" (") \"a' b\"" : String).utf8ByteSize = some ⟨1, 9⟩ := by
  decide +kernel

end SwiftTree
