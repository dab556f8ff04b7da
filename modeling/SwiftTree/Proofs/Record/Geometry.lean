import SwiftTree.Proofs.Record.Position

/-!
# Records are placed soundly

Every diagnostic gets a record, whatever offsets it names and whatever node it refers to. The record
is placed on a line of the text, at the location of some offset. If it has an end, that comes after
its start: an end is where quoted code ends that stands at the offset, or where a node of the tree
ends behind the offset, and both are boundaries of the text. The lines that are shown around it are
lines of the text, one after the other.

Records come in the order of their locations, and those at the same location in the order of their
diagnostics.
-/

namespace SwiftTree

open Text (IsBoundary StandsAt width lines lineCount)

namespace Location

theorem le_refl (a : Location) : a.le a = true := by
  simp [le]

theorem le_trans {a b c : Location} (first : a.le b = true) (second : b.le c = true) :
    a.le c = true := by
  simp only [le, Bool.or_eq_true, Bool.and_eq_true, decide_eq_true_eq, beq_iff_eq] at *
  omega

theorem le_total (a b : Location) : (a.le b || b.le a) = true := by
  simp only [le, Bool.or_eq_true, Bool.and_eq_true, decide_eq_true_eq, beq_iff_eq]
  omega

end Location

variable {text : String}

/-- What is located at an offset is located at a boundary at or before it. -/
theorem exists_boundary_of_locate {offset : Nat} {here : Location}
    (h : locate text offset = some here) :
    ∃ floor, floor ≤ offset ∧ IsBoundary text floor ∧ locate text floor = some here := by
  rw [locate_eq_walk] at h
  have within : offset ≤ width text.toList := by
    by_contra past
    rw [Location.walk_eq_none _ (by omega)] at h
    cases h
  obtain ⟨front, rest, chars, floor, below⟩ := Text.exists_floorBoundary_eq offset text.toList
  refine ⟨width front, below, Text.isBoundary_iff_exists_chars.mpr ⟨front, rest, chars, rfl⟩, ?_⟩
  rw [locate_eq_walk, ← floor, Location.walk_floorBoundary _ within, h]

/-- Every location of a text is on one of its lines. -/
theorem line_of_locate {offset : Nat} {here : Location} (h : locate text offset = some here) :
    1 ≤ here.line ∧ here.line ≤ lineCount text := by
  obtain ⟨floor, -, boundary, found⟩ := exists_boundary_of_locate h
  obtain ⟨front, rest, chars, rfl⟩ := Text.isBoundary_iff_exists_chars.mp boundary
  obtain ⟨index, line, _, _, _, listed, -, -, -, located⟩ := exists_line_of_boundary text chars
  obtain rfl := Option.some.inj (found.symm.trans located)
  obtain ⟨inside, -⟩ := List.getElem?_eq_some_iff.mp listed
  exact ⟨Nat.le_add_left 1 index, inside⟩

/-- A clipped offset has the location of an offset of the text. -/
theorem exists_locate_of_clipped (text : String) (offset : Nat) :
    ∃ place, place ≤ text.utf8ByteSize ∧
      locate text place = some (locateClipped text offset).1 := by
  cases found : locate text offset with
  | some here =>
    obtain ⟨floor, -, boundary, same⟩ := exists_boundary_of_locate found
    refine ⟨floor, boundary.le, ?_⟩
    rw [same, locateClipped, found]
  | none =>
    obtain ⟨last, located⟩ := exists_locate text ""
    rw [String.append_empty] at located
    refine ⟨text.utf8ByteSize, Nat.le_refl _, ?_⟩
    rw [locateClipped, found, located, endLocation, located, Option.getD_some]

/-- An offset is clipped only if it has no location. -/
theorem locate_of_not_clipped {offset : Nat} (h : (locateClipped text offset).2 = false) :
    locate text offset = some (locateClipped text offset).1 := by
  unfold locateClipped at h ⊢
  split at h
  · rename_i here found
    rw [found]
  · cases h

/-- A boundary behind an offset has a later location than the offset, also if that is inside of a
character. -/
theorem before_of_locate_of_lt {offset later : Nat} {here there : Location}
    (found : locate text offset = some here) (boundary : IsBoundary text later)
    (order : offset < later) (next : locate text later = some there) : here.Before there := by
  obtain ⟨floor, below, first, same⟩ := exists_boundary_of_locate found
  exact before_of_locate first boundary (Nat.lt_of_le_of_lt below order) same next

/-- An extent is the place of the text of its node, without the trivia around it. -/
theorem Tree.standsAt_of_extent? {tree : Tree} {trail : Trail} {extent : Extent}
    (h : tree.extent? trail = some extent) :
    StandsAt tree.render extent.start extent.node.contentText ∧
      extent.stop = extent.start + extent.node.contentText.utf8ByteSize := by
  obtain ⟨node, found, -⟩ := Option.bind_eq_some_iff.mp h
  obtain ⟨offset, holds⟩ := Node.exists_holds found
  rw [extent?_of_holds holds] at h
  obtain rfl := Option.some.inj h
  obtain ⟨before, after, text, size⟩ := holds.exists_render_split
  refine ⟨⟨before ++ node.leading.render, node.trailing.render ++ after, ?_, ?_⟩, ?_⟩
  · rw [Tree.render, text, Node.render_eq_contentText]
    simp only [String.append_assoc]
  · rw [String.utf8ByteSize_append, size, Trivia.utf8ByteSize_render, Node.leadingWidth]
  · rw [Node.contentStop_eq, Node.contentText_eq_content, Nat.add_assoc]

namespace Diagnostic

variable {diagnostic : Diagnostic}

/-- All that the end of a diagnostic says: either quoted code stands at the offset and ends there,
or the node of the diagnostic ends there, behind the offset. -/
theorem end?_cases {extent : Option Extent} {offset stop : Nat}
    (h : diagnostic.end? text extent offset = some stop) :
    (∃ quoted, quotedCode? diagnostic.message = some quoted ∧ StandsAt text offset quoted ∧
      stop = offset + quoted.utf8ByteSize) ∨
    ∃ covered, extent = some covered ∧ stop = covered.stop ∧ offset < stop := by
  obtain quotation | ⟨-, node⟩ := Option.or_eq_some_iff.mp h
  · obtain ⟨quoted, quotes, quotation⟩ := Option.bind_eq_some_iff.mp quotation
    obtain ⟨⟨before, rest⟩, split, checked⟩ := Option.bind_eq_some_iff.mp quotation
    dsimp only at checked
    split at checked
    · rename_i starts
      obtain ⟨rfl, size⟩ := Text.splitAt?_eq_some_iff.mp split
      obtain ⟨more, chars⟩ := List.isPrefixOf_iff_prefix.mp starts
      refine .inl ⟨quoted, quotes, ⟨before, String.ofList more, ?_, size⟩,
        (Option.some.inj checked).symm⟩
      rw [← String.toList_inj, String.toList_append, String.toList_append, String.toList_append,
        String.toList_ofList, chars]
    · cases checked
  · obtain ⟨found, order⟩ := Option.filter_eq_some_iff.mp node
    obtain ⟨covered, same, rfl⟩ := Option.map_eq_some_iff.mp found
    exact .inr ⟨covered, same, rfl, of_decide_eq_true order⟩

/-- A diagnostic that ends anywhere ends at a boundary behind its offset. -/
theorem lt_of_end? {tree : Tree} {trail : Option Trail} {offset stop : Nat}
    (h : diagnostic.end? tree.render (trail.bind tree.extent?) offset = some stop) :
    offset < stop ∧ IsBoundary tree.render stop := by
  obtain ⟨quoted, quotes, stands, rfl⟩ | ⟨extent, covered, rfl, order⟩ := end?_cases h
  · obtain ⟨filled, -⟩ := quotedCode?_eq_some_iff.mp quotes
    have size : quoted.utf8ByteSize ≠ 0 := by
      rw [ne_eq, String.utf8ByteSize_eq_zero_iff]
      exact filled
    exact ⟨by omega, stands.stop⟩
  · obtain ⟨trail, -, covered⟩ := Option.bind_eq_some_iff.mp covered
    obtain ⟨stands, ends⟩ := Tree.standsAt_of_extent? covered
    refine ⟨order, ?_⟩
    rw [ends]
    exact stands.stop

end Diagnostic

theorem filter_range'_eq (count first last : Nat) :
    (List.range' 1 count).filter (fun number => first ≤ number && number ≤ last) =
      List.range' (max 1 first) (min count last + 1 - max 1 first) := by
  induction count with
  | zero =>
    have none : min 0 last + 1 - max 1 first = 0 := by omega
    rw [none]
    rfl
  | succ count ih =>
    rw [List.range'_1_concat, List.filter_append, ih]
    by_cases inside : first ≤ 1 + count ∧ 1 + count ≤ last
    · have size : min (count + 1) last + 1 - max 1 first =
          (min count last + 1 - max 1 first) + 1 := by omega
      have next : max 1 first + (min count last + 1 - max 1 first) = 1 + count := by omega
      rw [size, List.range'_1_concat, next]
      simp [inside]
    · have size : min (count + 1) last + 1 - max 1 first =
          min count last + 1 - max 1 first := by omega
      have outside : (decide (first ≤ 1 + count) && decide (1 + count ≤ last)) = false := by
        simpa using inside
      rw [size, List.filter_singleton, outside]
      simp

theorem map_number_contextLines (text : String) (line radius : Nat) :
    (contextLines text line radius).map ContextLine.number =
      List.range' (max 1 (line - radius))
        (min (lineCount text) (line + radius) + 1 - max 1 (line - radius)) := by
  rw [← filter_range'_eq, lineCount, ← List.zipIdx_map_snd 1 (lines text.toList), List.filter_map]
  simp only [contextLines, List.map_map]
  rfl

theorem mem_map_number_contextLines {text : String} {line : Nat} (radius : Nat) (low : 1 ≤ line)
    (high : line ≤ lineCount text) :
    line ∈ (contextLines text line radius).map ContextLine.number := by
  rw [map_number_contextLines, List.mem_range'_1]
  omega

theorem lineText?_of_mem_contextLines {text : String} {line radius : Nat} {shown : ContextLine}
    (h : shown ∈ contextLines text line radius) :
    Text.lineText? text shown.number = some shown.text := by
  obtain ⟨⟨found, number⟩, member, rfl⟩ := List.mem_map.mp h
  obtain ⟨low, listed⟩ :=
    List.mk_mem_zipIdx_iff_le_and_getElem?_sub.mp (List.mem_filter.mp member).1
  obtain ⟨index, rfl⟩ := Nat.exists_eq_add_of_le' low
  have line : Text.lineFrom? 0 (lines text.toList) index = some (_, found) :=
    Text.lineFrom?_eq_some_iff.mpr ⟨by simpa using listed, rfl⟩
  simp only [Text.lineText?, Text.line?, line, Option.map_some]

/-- What a record says about its place holds in a text, with a number of lines shown on each side of
the reported one. -/
structure Record.Sound (text : String) (radius : Nat) (record : Record) : Prop where
  line : 1 ≤ record.location.line ∧ record.location.line ≤ lineCount text
  located : ∃ offset, offset ≤ text.utf8ByteSize ∧ locate text offset = some record.location
  start : record.span.start = record.location
  stop : ∀ stop, record.span.stop = some stop →
    record.span.start.Before stop ∧ ∃ offset, locate text offset = some stop
  /-- The lines shown are consecutive lines of the text. -/
  numbers : record.contextLines.map ContextLine.number =
    List.range' (max 1 (record.location.line - radius))
      (min (lineCount text) (record.location.line + radius) + 1 -
        max 1 (record.location.line - radius))
  texts : ∀ shown ∈ record.contextLines, Text.lineText? text shown.number = some shown.text
  reported : record.location.line ∈ record.contextLines.map ContextLine.number

/-- Only a record that was not clipped has an end. -/
theorem Diagnostic.stop_record {options : RecordOptions} {tree : Tree} {diagnostic : Diagnostic}
    {stop : Location} (h : (diagnostic.record options tree text).span.stop = some stop) :
    let extent := diagnostic.node.bind tree.extent?
    let offset := (diagnostic.place options text extent).1
    locate text offset = some (diagnostic.record options tree text).location ∧
      (diagnostic.end? text extent offset).bind (locate text) = some stop := by
  intro extent offset
  change (if (locateClipped text offset).2 = true then none
    else (diagnostic.end? text extent offset).bind (locate text)) = some stop at h
  split at h
  · cases h
  · rename_i inside
    exact ⟨locate_of_not_clipped (Bool.eq_false_iff.mpr inside), h⟩

theorem Diagnostic.sound_record (options : RecordOptions) (tree : Tree) (diagnostic : Diagnostic) :
    (diagnostic.record options tree tree.render).Sound tree.render options.radius := by
  obtain ⟨offset, inside, located⟩ := exists_locate_of_clipped tree.render
    (diagnostic.place options tree.render (diagnostic.node.bind tree.extent?)).1
  have line := line_of_locate located
  refine ⟨line, ⟨offset, inside, located⟩, rfl, ?_, map_number_contextLines _ _ _,
    fun shown => lineText?_of_mem_contextLines, mem_map_number_contextLines _ line.1 line.2⟩
  intro stop ends
  obtain ⟨exact, ends⟩ := stop_record ends
  obtain ⟨finish, found, next⟩ := Option.bind_eq_some_iff.mp ends
  obtain ⟨order, boundary⟩ := lt_of_end? found
  exact ⟨before_of_locate_of_lt exact boundary order next, finish, next⟩

section Sorting

variable (options : RecordOptions) (tree : Tree) (diagnostics : List Diagnostic)

theorem pairwise_extractRecords :
    (extractRecords options tree diagnostics).Pairwise
      (fun first second => first.location.le second.location) := by
  apply List.pairwise_mergeSort
  · exact fun _ _ _ => Location.le_trans
  · exact fun _ _ => Location.le_total _ _

theorem extractRecords_perm :
    (extractRecords options tree diagnostics).Perm
      (diagnostics.map (Diagnostic.record options tree tree.render)) :=
  List.mergeSort_perm _ _

/-- Sorting leaves the records at one location in their order. -/
theorem filter_extractRecords (location : Location) :
    (extractRecords options tree diagnostics).filter (fun record => record.location = location) =
      (diagnostics.map (Diagnostic.record options tree tree.render)).filter
        (fun record => record.location = location) := by
  let here (record : Record) : Bool := record.location = location
  let records := diagnostics.map (Diagnostic.record options tree tree.render)
  have tied : (records.filter here).Pairwise
      (fun first second => first.location.le second.location) := by
    apply List.pairwise_of_forall_mem_list
    intro first member second next
    have same : first.location = location := of_decide_eq_true (List.mem_filter.mp member).2
    have equal : second.location = location := of_decide_eq_true (List.mem_filter.mp next).2
    rw [same, equal]
    exact Location.le_refl location
  have kept : (records.filter here).Sublist (extractRecords options tree diagnostics) := by
    apply List.sublist_mergeSort
    · exact fun _ _ _ => Location.le_trans
    · exact fun _ _ => Location.le_total _ _
    · exact tied
    · exact List.filter_sublist
  have among : (records.filter here).Sublist
      ((extractRecords options tree diagnostics).filter here) := by
    simpa only [List.filter_filter, Bool.and_self] using kept.filter here
  have size := ((extractRecords_perm options tree diagnostics).filter here).length_eq
  exact (among.eq_of_length size.symm).symm

end Sorting

/-- Each diagnostic about a tree gets one record, whatever offsets and nodes it names. The records
come in the order of their locations, and those at the same location in the order of their
diagnostics. Every record is sound: it is on a line of the text, at the location of an offset of the
text; its span starts there and ends, if at all, at a later place; and the lines shown with it are
consecutive lines of the text with the reported one among them. -/
theorem records_sound (options : RecordOptions) (tree : Tree) (diagnostics : List Diagnostic) :
    (extractRecords options tree diagnostics).Perm
      (diagnostics.map (Diagnostic.record options tree tree.render)) ∧
    (extractRecords options tree diagnostics).Pairwise
      (fun first second => first.location.le second.location) ∧
    (∀ location,
      (extractRecords options tree diagnostics).filter (fun record => record.location = location) =
        (diagnostics.map (Diagnostic.record options tree tree.render)).filter
          (fun record => record.location = location)) ∧
    ∀ record ∈ extractRecords options tree diagnostics,
      record.Sound tree.render options.radius := by
  refine ⟨extractRecords_perm options tree diagnostics,
    pairwise_extractRecords options tree diagnostics,
    filter_extractRecords options tree diagnostics, ?_⟩
  intro record extracted
  rw [(extractRecords_perm options tree diagnostics).mem_iff] at extracted
  obtain ⟨diagnostic, -, rfl⟩ := List.mem_map.mp extracted
  exact diagnostic.sound_record options tree

end SwiftTree
