import SwiftTree.Proofs.Edit.Verification

/-!
# What a write verifies

Writing one text over another in a file comes down to one edit of the stretch in which the two
texts differ, and only that stretch of the file is compared with what it should be. So a file that
was changed in the meantime is refused if the stretch was changed, and it is written over if only
the rest was: what stands around the stretch is then kept as it is found.
-/

namespace SwiftTree

namespace Text

theorem commonStart_isPrefix_left (as bs : List Char) : commonStart as bs <+: as := by
  induction as generalizing bs with
  | nil => simp [commonStart]
  | cons a as ih =>
    cases bs with
    | nil => simp [commonStart]
    | cons b bs =>
      rw [commonStart]
      split
      · exact List.cons_prefix_cons.mpr ⟨rfl, ih bs⟩
      · exact List.nil_prefix

theorem commonStart_comm (as bs : List Char) : commonStart as bs = commonStart bs as := by
  induction as generalizing bs with
  | nil => cases bs <;> simp [commonStart]
  | cons a as ih =>
    cases bs with
    | nil => simp [commonStart]
    | cons b bs =>
      rw [commonStart, commonStart, ih]
      by_cases same : a = b
      · simp [same]
      · simp [same, Ne.symm same]

theorem commonStart_isPrefix_right (as bs : List Char) : commonStart as bs <+: bs :=
  commonStart_comm as bs ▸ commonStart_isPrefix_left bs as

theorem commonEnd_isSuffix_left (as bs : List Char) : commonEnd as bs <:+ as := by
  rw [← List.reverse_prefix, commonEnd, List.reverse_reverse]
  exact commonStart_isPrefix_left _ _

theorem commonEnd_isSuffix_right (as bs : List Char) : commonEnd as bs <:+ bs := by
  rw [← List.reverse_prefix, commonEnd, List.reverse_reverse]
  exact commonStart_isPrefix_right _ _

/-- A text that begins and ends with given runs, the second after the first, is these two with what
stands between them. -/
theorem eq_start_middle_finish {cs start finish : List Char} (hstart : start <+: cs)
    (hfinish : finish <:+ cs.drop start.length) :
    cs = start ++ (cs.drop start.length).take ((cs.drop start.length).length - finish.length) ++
      finish := by
  obtain ⟨rest, rfl⟩ := hstart
  rw [List.drop_left] at hfinish ⊢
  obtain ⟨middle, rfl⟩ := hfinish
  rw [List.length_append, Nat.add_sub_cancel, List.take_left, List.append_assoc]

end Text

namespace Edit

/-- The edit between two texts replaces a stretch of the first by one of the second, between a start
and an end that both have. -/
theorem between?_spec (file : String) {before after : String} (different : before ≠ after) :
    ∃ (edit : Edit) (start finish : String), between? file before after = some edit ∧
      edit.file = file ∧ before = start ++ edit.expected ++ finish ∧
      after = start ++ edit.newText ++ finish ∧ edit.start = start.utf8ByteSize ∧
      edit.stop = start.utf8ByteSize + edit.expected.utf8ByteSize := by
  let start := Text.commonStart before.toList after.toList
  let finish := Text.commonEnd (before.toList.drop start.length) (after.toList.drop start.length)
  have joined (s : String) (hstart : start <+: s.toList)
      (hfinish : finish <:+ s.toList.drop start.length) :
      s = String.ofList start ++ String.ofList ((s.toList.drop start.length).take
        ((s.toList.drop start.length).length - finish.length)) ++ String.ofList finish := by
    rw [← String.ofList_append, ← String.ofList_append,
      ← Text.eq_start_middle_finish hstart hfinish, String.ofList_toList]
  refine ⟨_, String.ofList start, String.ofList finish, if_neg different, rfl, ?_, ?_, ?_, ?_⟩
  · exact joined before (Text.commonStart_isPrefix_left _ _) (Text.commonEnd_isSuffix_left _ _)
  · exact joined after (Text.commonStart_isPrefix_right _ _) (Text.commonEnd_isSuffix_right _ _)
  · exact (Text.utf8ByteSize_ofList start).symm
  · rw [Text.utf8ByteSize_ofList, Text.utf8ByteSize_ofList]

section Stretch

variable {edit : Edit}

/-- An edit changes a text that holds, where the edit starts, what it expects there. -/
theorem apply_of_expected (changes : edit.expected ≠ edit.newText)
    (extent : edit.stop = edit.start + edit.expected.utf8ByteSize) {left : String}
    (size : left.utf8ByteSize = edit.start) (right : String) :
    edit.apply (left ++ edit.expected ++ right) = .ok (left ++ edit.newText ++ right) ∧
      left ++ edit.newText ++ right ≠ left ++ edit.expected ++ right := by
  have checked : edit.check (left ++ edit.expected ++ right) = .ok (left, edit.expected, right) :=
    (check_eq_ok_iff (by omega)).mpr ⟨rfl, size, by omega, .inr rfl⟩
  obtain ⟨applied, unchanged⟩ := apply_of_check checked
  exact ⟨applied, mt unchanged.mp changes⟩

/-- An edit leaves every other text as it is. -/
theorem eq_of_apply_elsewhere {content made : String}
    (elsewhere : ¬∃ left right, content = left ++ edit.expected ++ right ∧
      left.utf8ByteSize = edit.start) (applied : edit.apply content = .ok made) :
    made = content := by
  obtain ⟨⟨left, current, right⟩, checked⟩ := exists_apply_iff_exists_check.mp ⟨made, applied⟩
  obtain ⟨again, unchanged⟩ := apply_of_check checked
  obtain ⟨whole, size, -, known⟩ := (check_eq_ok_iff (forwards_of_check checked)).mp checked
  obtain there | rfl := known
  · exact (Except.ok.inj (applied.symm.trans again)).trans (unchanged.mpr there)
  · exact absurd ⟨left, right, whole, size⟩ elsewhere

end Stretch

end Edit

/-- A write replaces the stretch in which two texts differ, and verifies no more than this stretch.
A file is changed exactly if it holds, where the stretch starts, what the first text holds there,
and if the disk does not fail; what stands around the stretch in the file is then kept, whatever it
is. Every other file is left as it is and the write is not reported as applied. -/
theorem write_verifies_replaced_span {σ Temporary : Type} {disk : Disk (StateM σ) Temporary}
    {holds : σ → String → Option Content} {staged : σ → Temporary → Option String}
    {faults : DiskError → Prop} (lawful : disk.Lawful holds staged faults) {s : σ}
    {file content before after : String} (held : holds s file = some (.text content))
    (different : before ≠ after) :
    ∃ (edit : Edit) (start finish : String), Edit.between? file before after = some edit ∧
      before = start ++ edit.expected ++ finish ∧ after = start ++ edit.newText ++ finish ∧
      edit.start = start.utf8ByteSize ∧
      ∀ result later, (writeChange disk file before after).run s = (result, later) →
        (∀ left right, content = left ++ edit.expected ++ right → left.utf8ByteSize = edit.start →
          result = .ok (.applied edit.newText.utf8ByteSize) ∧
            holds later file = some (.text (left ++ edit.newText ++ right)) ∨
          (∃ fault, faults fault ∧ result = .error (.disk fault)) ∧
            holds later file = some (.text content)) ∧
        ((¬∃ left right, content = left ++ edit.expected ++ right ∧
            left.utf8ByteSize = edit.start) →
          (∀ count, result ≠ .ok (.applied count)) ∧
            holds later file = some (.text content)) := by
  obtain ⟨edit, start, finish, found, rfl, hbefore, hafter, hstart, hstop⟩ :=
    Edit.between?_spec file different
  have changes : edit.expected ≠ edit.newText := by
    intro same
    exact different (by rw [hbefore, hafter, same])
  have extent : edit.stop = edit.start + edit.expected.utf8ByteSize := by rw [hstart, hstop]
  refine ⟨edit, start, finish, found, hbefore, hafter, hstart, ?_⟩
  intro result later run
  rw [writeChange, found] at run
  have outcome := Edit.ensures_applyToFile lawful held
  cases result with
  | error error =>
    obtain ⟨same, cause⟩ := outcome.of_error error later run
    rw [← same] at held
    refine ⟨?_, fun _ => ⟨nofun, held⟩⟩
    rintro left right rfl size
    obtain ⟨applied, -⟩ := Edit.apply_of_expected changes extent size right
    obtain ⟨text, same, refused⟩ | ⟨bytes, same, -⟩ | ⟨fault, known, rfl⟩ := cause
    · rw [← Content.text.inj same, applied] at refused
      cases refused
    · cases same
    · exact .inr ⟨⟨fault, known, rfl⟩, held⟩
  | ok result =>
    obtain ⟨text, made, same, applied, written, reported⟩ := outcome.of_ok result later run
    obtain rfl := Content.text.inj same
    refine ⟨?_, fun elsewhere => ?_⟩
    · rintro left right rfl size
      obtain ⟨again, differs⟩ := Edit.apply_of_expected changes extent size right
      obtain rfl := Except.ok.inj (again.symm.trans applied)
      obtain ⟨-, -, unchanged⟩ | ⟨rfl, -⟩ := reported
      · exact absurd unchanged differs
      · exact .inl ⟨rfl, written⟩
    · obtain rfl := Edit.eq_of_apply_elsewhere elsewhere applied
      obtain ⟨rfl, -⟩ | ⟨-, differs⟩ := reported
      · exact ⟨nofun, written⟩
      · exact absurd rfl differs

/-- A file that holds other code around the name that is to be changed. -/
theorem write_verifies_replaced_span_renamed :
    ∃ (volume later : Volume) (edit : Edit),
      volume.store.read? "t" = some (.text "var a = 2\n") ∧ "let a = 1\n" ≠ "let b = 1\n" ∧
      Edit.between? "t" "let a = 1\n" "let b = 1\n" = some edit ∧ edit.expected = "a" ∧
      (writeChange Volume.disk "t" "let a = 1\n" "let b = 1\n").run volume =
        (.ok (.applied edit.newText.utf8ByteSize), later) ∧
      later.store.read? "t" = some (.text ("var " ++ edit.newText ++ " = 2\n")) := by
  let volume : Volume := { store := .ofFiles [("t", .text "var a = 2\n")] }
  have held : volume.store.read? "t" = some (.text "var a = 2\n") := by decide
  have different : "let a = 1\n" ≠ "let b = 1\n" := by decide
  obtain ⟨edit, -, -, found, -, -, -, written⟩ :=
    write_verifies_replaced_span (Volume.lawful_disk fun _ => none) held different
  have facts : (Edit.between? "t" "let a = 1\n" "let b = 1\n").map
      (fun edit => (edit.expected, edit.start)) = some ("a", 4) := by decide
  obtain ⟨expected, hstart⟩ : edit.expected = "a" ∧ edit.start = 4 := by simpa [found] using facts
  obtain ⟨changed, -⟩ := written _ _ rfl
  obtain ⟨applied, holds⟩ | ⟨⟨fault, ⟨operation, none⟩, -⟩, -⟩ := changed "var " " = 2\n"
    (by rw [expected]; rfl) (by rw [hstart]; rfl)
  · exact ⟨volume, _, edit, held, different, found, expected, Prod.ext applied rfl, holds⟩
  · cases none

/-- A file that no longer holds the text that is to be written over may be written over all the
same, and then holds a mixture of both. -/
theorem stale_file_written_over :
    ¬∀ (volume : Volume) (file content before after : String),
      volume.store.read? file = some (.text content) → content ≠ before →
        ∀ result later, (writeChange Volume.disk file before after).run volume = (result, later) →
          (∀ count, result ≠ .ok (.applied count)) ∧
            later.store.read? file = some (.text content) := by
  intro refused
  obtain ⟨-, kept⟩ := refused { store := .ofFiles [("t", .text "var a = 2\n")] } "t"
    "var a = 2\n" "let a = 1\n" "let b = 1\n" (by decide) (by decide) _ _ rfl
  exact absurd kept (by decide)

end SwiftTree
