import Mathlib.Data.Option.Basic
import SwiftTree.Proofs.Node.Measure
import SwiftTree.Proofs.Text.Location

/-!
# Records show quoted code where it stands

A message about unexpected code quotes what its node begins with, and the record of the diagnostic
is placed where the text of the node begins. Trivia in front of the node has no part in this: the
search for the quotation starts after it, and finds the quotation there at once.
-/

namespace SwiftTree

namespace Text

/-- What stands in front of the first occurrence of a piece is no longer than what stands in front
of any other. -/
theorem exists_before?_eq_some (piece before after : List Char) :
    ∃ first, before? piece (before ++ (piece ++ after)) = some first ∧ first <+: before := by
  induction before with
  | nil =>
    refine ⟨[], ?_, List.nil_prefix⟩
    cases text : piece ++ after with
    | nil =>
      obtain ⟨rfl, -⟩ := List.append_eq_nil_iff.mp text
      rfl
    | cons c cs =>
      have starts : piece.isPrefixOf (c :: cs) :=
        List.isPrefixOf_iff_prefix.mpr (text ▸ List.prefix_append piece after)
      rw [List.nil_append, before?, if_pos starts]
  | cons c before ih =>
    obtain ⟨first, found, starts⟩ := ih
    rw [List.cons_append, before?]
    split
    · exact ⟨[], rfl, List.nil_prefix⟩
    · rw [found]
      exact ⟨c :: first, rfl, List.cons_prefix_cons.mpr ⟨rfl, starts⟩⟩

end Text

/-- What a message says that quotes some code: the quotation is not empty, and it is what stands
behind the opening words, up to the first quote in front of a blank or else up to a quote at the end
of the message. -/
theorem quotedCode?_eq_some_iff {message quoted : String} :
    quotedCode? message = some quoted ↔
      quoted ≠ "" ∧ ∃ rest, message.toList = quotationStart ++ rest ∧
        (Text.before? ['\'', ' '] rest = some quoted.toList ∨
          Text.before? ['\'', ' '] rest = none ∧ rest = quoted.toList ++ ['\'']) := by
  constructor
  · intro h
    unfold quotedCode? at h
    dsimp only at h
    obtain ⟨_, starts, h⟩ := Option.bind_eq_some_iff.mp h
    obtain ⟨rest, chars⟩ := List.isPrefixOf_iff_prefix.mp ((Option.guard_eq_some' _).mp starts)
    rw [← chars, List.drop_left] at h
    have shown {cs : List Char}
        (h : (guard (!cs.isEmpty) : Option Unit).bind (fun _ => some (String.ofList cs)) =
          some quoted) : cs = quoted.toList ∧ quoted ≠ "" := by
      obtain ⟨_, filled, h⟩ := Option.bind_eq_some_iff.mp h
      obtain rfl := Option.some.inj h
      simpa using (Option.guard_eq_some' _).mp filled
    cases found : Text.before? ['\'', ' '] rest with
    | some front =>
      rw [found] at h
      obtain ⟨rfl, filled⟩ := shown h
      exact ⟨filled, rest, chars.symm, .inl found⟩
    | none =>
      rw [found] at h
      by_cases last : rest.getLast? = some '\''
      · rw [if_pos last] at h
        obtain ⟨same, filled⟩ := shown h
        refine ⟨filled, rest, chars.symm, .inr ⟨found, ?_⟩⟩
        rw [← same, List.dropLast_append_getLast? _ last]
      · rw [if_neg last] at h
        cases h
  · rintro ⟨filled, rest, chars, found⟩
    have starts : quotationStart.isPrefixOf (quotationStart ++ rest) = true :=
      List.isPrefixOf_iff_prefix.mpr (List.prefix_append _ _)
    have nonempty : (!quoted.toList.isEmpty) = true := by simpa using filled
    unfold quotedCode? guard
    dsimp only
    rw [chars, if_pos starts, List.drop_left]
    obtain found | ⟨absent, rfl⟩ := found
    · rw [found]
      simp only [Option.pure_def, Option.bind_eq_bind, Option.bind_some, if_pos nonempty,
        String.ofList_toList]
    · rw [absent]
      simp only [Option.pure_def, Option.bind_eq_bind, Option.bind_some, List.getLast?_concat,
        List.dropLast_concat, if_true, if_pos nonempty, String.ofList_toList]

/-- The characters of a message about unexpected code. -/
theorem toList_quotation (code phrase : String) :
    ("unexpected code '" ++ code ++ "' " ++ phrase).toList =
      quotationStart ++ (code.toList ++ (['\'', ' '] ++ phrase.toList)) := by
  have quote : "' ".toList = ['\'', ' '] := by decide +kernel
  have start : "unexpected code '".toList = quotationStart := rfl
  rw [String.toList_append, String.toList_append, String.toList_append, quote, start,
    List.append_assoc, List.append_assoc]

/-- What is quoted in a message about unexpected code is what stands in front of the first quote
before a blank. -/
theorem quotedCode?_quotation_iff {code phrase quoted : String} :
    quotedCode? ("unexpected code '" ++ code ++ "' " ++ phrase) = some quoted ↔
      quoted ≠ "" ∧ Text.before? ['\'', ' '] (code.toList ++ (['\'', ' '] ++ phrase.toList)) =
        some quoted.toList := by
  obtain ⟨first, found, -⟩ :=
    Text.exists_before?_eq_some ['\'', ' '] code.toList phrase.toList
  rw [quotedCode?_eq_some_iff, toList_quotation]
  constructor
  · rintro ⟨filled, rest, chars, quotes⟩
    obtain rfl := List.append_cancel_left chars
    obtain quotes | ⟨absent, -⟩ := quotes
    · exact ⟨filled, quotes⟩
    · rw [found] at absent
      cases absent
  · rintro ⟨filled, quotes⟩
    exact ⟨filled, _, rfl, .inl quotes⟩

/-- What is found quoted is something that the code begins with. -/
theorem exists_eq_append_of_quotedCode? {code phrase quoted : String}
    (h : quotedCode? ("unexpected code '" ++ code ++ "' " ++ phrase) = some quoted) :
    ∃ more, code = quoted ++ more := by
  obtain ⟨-, quotes⟩ := quotedCode?_quotation_iff.mp h
  obtain ⟨first, found, ⟨more, split⟩⟩ :=
    Text.exists_before?_eq_some ['\'', ' '] code.toList phrase.toList
  obtain rfl := Option.some.inj (quotes.symm.trans found)
  refine ⟨String.ofList more, ?_⟩
  rw [← String.toList_inj, String.toList_append, String.toList_ofList, split]

namespace Diagnostic

variable {diagnostic : Diagnostic} {options : RecordOptions}

/-- The place of a diagnostic that quotes what its node begins with: where the text of the node
begins. -/
theorem place_of_quoted {extent : Extent} {offset : Nat} {before quoted : String} (after : String)
    (moves : options.reposition = true) (start : diagnostic.offset = some offset)
    (kind : extent.node.kind? = some .unexpectedNodes) (inside : offset ≤ extent.start)
    (size : before.utf8ByteSize = extent.start)
    (quotes : quotedCode? diagnostic.message = some quoted) :
    ∃ quality, diagnostic.place options (before ++ (quoted ++ after)) (some extent) =
      (extent.start, quality) ∧ (quality = .exact ∨ quality = .corrected) := by
  have boundary : Text.floorBoundary (max offset extent.start)
      (before ++ (quoted ++ after)).toList = extent.start := by
    rw [Nat.max_eq_right inside, ← size, ← Text.width_toList, String.toList_append]
    exact Text.floorBoundary_width before.toList _
  have split : Text.splitAt? (before ++ (quoted ++ after)) extent.start =
      some (before, quoted ++ after) := Text.splitAt?_eq_some_iff.mpr ⟨rfl, size⟩
  have found : Text.find? quoted.toList (quoted ++ after).toList = some 0 := by
    rw [String.toList_append]
    exact Text.find?_of_isPrefix (List.prefix_append _ _)
  have corrected : correctedOffset? (before ++ (quoted ++ after)) offset extent.start
      diagnostic.message = if extent.start = offset then none else some extent.start := by
    unfold correctedOffset?
    dsimp only
    rw [quotes, boundary, split]
    simp only [Option.bind_eq_bind, Option.bind_some, found, Nat.add_zero]
  have reported : diagnostic.reported? (some extent) = some offset := by
    rw [reported?, start]
    rfl
  unfold place
  rw [reported]
  simp only [kind, moves, if_true, Option.getD_some, corrected]
  by_cases same : extent.start = offset
  · rw [if_pos same, same]
    exact ⟨.exact, rfl, .inl rfl⟩
  · rw [if_neg same]
    exact ⟨.corrected, rfl, .inr rfl⟩

/-- A diagnostic at the code that it quotes ends where the code ends. -/
theorem end?_of_quoted {quoted : String} (before after : String) (extent : Option Extent)
    (quotes : quotedCode? diagnostic.message = some quoted) :
    diagnostic.end? (before ++ (quoted ++ after)) extent before.utf8ByteSize =
      some (before.utf8ByteSize + quoted.utf8ByteSize) := by
  have split : Text.splitAt? (before ++ (quoted ++ after)) before.utf8ByteSize =
      some (before, quoted ++ after) := Text.splitAt?_eq_some_iff.mpr ⟨rfl, rfl⟩
  have starts : quoted.toList.isPrefixOf (quoted ++ after).toList = true := by
    rw [String.toList_append, List.isPrefixOf_iff_prefix]
    exact List.prefix_append _ _
  simp only [end?, quotes, split, starts, Option.bind_eq_bind, Option.bind_some, if_true,
    Option.some_or]

/-- The record of a diagnostic that quotes what its node begins with covers the quotation: it starts
where the text of the node begins, which is where the quoted code is, and ends behind that. -/
theorem covers_of_quoted {tree : Tree} {node : Node} {trail : Trail} {offset : Nat}
    {quoted more : String} (moves : options.reposition = true)
    (holds : tree.root.Holds trail offset node) (kind : node.kind? = some .unexpectedNodes)
    (about : diagnostic.node = some trail) (start : diagnostic.offset = some offset)
    (quotes : quotedCode? diagnostic.message = some quoted)
    (content : node.contentText = quoted ++ more) :
    ∃ before after, tree.render = before ++ quoted ++ after ∧
      before.utf8ByteSize = offset + node.leadingWidth ∧
      locate tree.render before.utf8ByteSize =
        some (diagnostic.record options tree tree.render).location ∧
      locate tree.render (before ++ quoted).utf8ByteSize =
        (diagnostic.record options tree tree.render).span.stop ∧
      (diagnostic.record options tree tree.render).nodeLocation =
        some (diagnostic.record options tree tree.render).location ∧
      ((diagnostic.record options tree tree.render).position = .exact ∨
        (diagnostic.record options tree tree.render).position = .corrected) := by
  obtain ⟨before, after, text, size⟩ := holds.exists_render_split
  have whole : tree.render = before ++ node.leading.render ++
      (quoted ++ (more ++ node.trailing.render ++ after)) := by
    rw [Tree.render, text, Node.render_eq_contentText, content]
    simp only [String.append_assoc]
  have width : (before ++ node.leading.render).utf8ByteSize = offset + node.leadingWidth := by
    rw [String.utf8ByteSize_append, size, Trivia.utf8ByteSize_render, Node.leadingWidth]
  obtain ⟨extent, covered, same, starts⟩ : ∃ extent, tree.extent? trail = some extent ∧
      extent.node = node ∧ extent.start = offset + node.leadingWidth :=
    ⟨_, Tree.extent?_of_holds holds, rfl, rfl⟩
  obtain ⟨location, located⟩ :=
    exists_locate (before ++ node.leading.render)
      (quoted ++ (more ++ node.trailing.render ++ after))
  obtain ⟨quality, placed, trusted⟩ :=
    place_of_quoted (more ++ node.trailing.render ++ after) moves start (same ▸ kind)
      (starts ▸ Nat.le_add_right _ _) (width.trans starts.symm) quotes
  have ends := end?_of_quoted (before ++ node.leading.render)
    (more ++ node.trailing.render ++ after) (some extent) quotes
  have stop : (before ++ node.leading.render ++ quoted).utf8ByteSize =
      offset + node.leadingWidth + quoted.utf8ByteSize := by
    rw [String.utf8ByteSize_append, width]
  refine ⟨before ++ node.leading.render, more ++ node.trailing.render ++ after, ?_, width, ?_⟩
  · rw [whole]
    simp only [String.append_assoc]
  · rw [whole, stop, width]
    rw [width] at located ends
    unfold record
    rw [starts] at placed
    simp only [about, Option.bind_some, covered, placed, starts, locateClipped, located, ends,
      Bool.false_eq_true, if_false]
    exact ⟨trivial, trivial, trivial, trusted⟩

/-- The record of a diagnostic that quotes what its node begins with stands where the text of the
node begins, which is where the quoted code is. -/
theorem record_of_quoted {diagnostic : Diagnostic} {tree : Tree} {node : Node} {trail : Trail}
    {offset : Nat} {quoted more : String} (holds : tree.root.Holds trail offset node)
    (kind : node.kind? = some .unexpectedNodes) (about : diagnostic.node = some trail)
    (start : diagnostic.offset = some offset)
    (quotes : quotedCode? diagnostic.message = some quoted)
    (content : node.contentText = quoted ++ more) :
    ∃ before after, tree.render = before ++ quoted ++ after ∧
      before.utf8ByteSize = offset + node.leadingWidth ∧
      locate tree.render before.utf8ByteSize =
        some (diagnostic.record {} tree tree.render).location ∧
      (diagnostic.record {} tree tree.render).nodeLocation =
        some (diagnostic.record {} tree tree.render).location ∧
      ((diagnostic.record {} tree tree.render).position = .exact ∨
        (diagnostic.record {} tree tree.render).position = .corrected) := by
  have moves : ({} : RecordOptions).reposition = true := rfl
  obtain ⟨before, after, whole, width, located, -, here, trusted⟩ :=
    covers_of_quoted moves holds kind about start quotes content
  exact ⟨before, after, whole, width, located, here, trusted⟩

end Diagnostic

end SwiftTree
