import SwiftTree.Edit
import SwiftTree.Proofs.Edit.Disk
import SwiftTree.Proofs.Text.Split

/-!
# Edits are made whole or not at all

An edit fits a text if its ends are boundaries of the text in order, and if the bytes between them
are those of the expected text or of the new one. An edit that fits is applied, and puts the bytes
of the new text in place of the ones between its ends; every other edit is refused. A file is
changed only by an edit that fits the text it holds, and then it holds the text that the edit makes
of it. If the disk fails at any point on the way, the file is left as it was.
-/

namespace SwiftTree

namespace Text

/-- The parts that a text is made of are its bytes between the offsets at which they meet. -/
theorem extract_bytes_of_parts {before middle : String} {start stop : Nat}
    (first : before.utf8ByteSize = start)
    (second : before.utf8ByteSize + middle.utf8ByteSize = stop) (after : String) :
    (before ++ middle ++ after).toByteArray.extract 0 start = before.toByteArray ∧
      (before ++ middle ++ after).toByteArray.extract start stop = middle.toByteArray ∧
      (before ++ middle ++ after).toByteArray.extract stop
        (before ++ middle ++ after).utf8ByteSize = after.toByteArray := by
  subst first second
  simp only [String.toByteArray_append, String.utf8ByteSize_append]
  refine ⟨?_, ?_, ?_⟩
  · rw [ByteArray.append_assoc]
    exact ByteArray.extract_append_eq_left rfl
  · have past : (before.toByteArray ++ (middle.toByteArray ++ after.toByteArray)).extract
        (before.utf8ByteSize + 0) (before.utf8ByteSize + middle.utf8ByteSize) =
          (middle.toByteArray ++ after.toByteArray).extract 0 middle.utf8ByteSize :=
      ByteArray.extract_append_size_add
    rw [ByteArray.append_assoc]
    exact past.trans (ByteArray.extract_append_eq_left rfl)
  · exact ByteArray.extract_append_eq_right (by simp) (by simp)

end Text

namespace Edit

/-- The edit may be applied to a text. -/
structure Fits (edit : Edit) (content : String) : Prop where
  forwards : edit.start ≤ edit.stop
  within : edit.stop ≤ content.utf8ByteSize
  start : Text.IsBoundary content edit.start
  stop : Text.IsBoundary content edit.stop
  /-- The new text is there already, or else the text that is to be replaced. -/
  known : content.toByteArray.extract edit.start edit.stop = edit.newText.toByteArray ∨
    content.toByteArray.extract edit.start edit.stop = edit.expected.toByteArray

/-- An edit may be applied to a text exactly if the text holds, where the edit starts, the text that
is expected there or the one that would replace it. -/
theorem check_eq_ok_iff {edit : Edit} {content before current after : String}
    (forwards : edit.start ≤ edit.stop) :
    edit.check content = .ok (before, current, after) ↔
      content = before ++ current ++ after ∧ before.utf8ByteSize = edit.start ∧
        before.utf8ByteSize + current.utf8ByteSize = edit.stop ∧
        (current = edit.newText ∨ current = edit.expected) := by
  unfold check
  constructor
  · intro h
    split at h
    · cases h
    split at h
    · cases h
    · rename_i found
      obtain ⟨whole, first, second⟩ := Text.cut?_eq_some_iff.mp found
      split at h
      · rename_i known
        cases h
        exact ⟨whole, first, second, known⟩
      · cases h
  · rintro ⟨rfl, first, second, known⟩
    have found : Text.cut? (before ++ current ++ after) edit.start edit.stop =
        some (before, current, after) := Text.cut?_eq_some_iff.mpr ⟨rfl, first, second⟩
    have within : ¬(edit.stop < edit.start ∨
        (before ++ current ++ after).utf8ByteSize < edit.stop) := by
      rw [String.utf8ByteSize_append, String.utf8ByteSize_append]
      omega
    rw [if_neg within, found]
    exact if_pos known

/-- A text is cut only at ends that are in order. -/
theorem forwards_of_check {edit : Edit} {content : String} {parts : String × String × String}
    (checked : edit.check content = .ok parts) : edit.start ≤ edit.stop := by
  unfold check at checked
  split at checked
  · cases checked
  · omega

/-- An edit passes its check exactly if it fits. -/
theorem fits_iff_exists_check {edit : Edit} {content : String} :
    edit.Fits content ↔ ∃ parts, edit.check content = .ok parts := by
  constructor
  · rintro ⟨forwards, -, start, stop, known⟩
    obtain ⟨before, middle, after, rfl, first, second⟩ :=
      Text.exists_cut_of_isBoundary start stop forwards
    rw [(Text.extract_bytes_of_parts first second after).2.1, String.toByteArray_inj,
      String.toByteArray_inj] at known
    exact ⟨_, (check_eq_ok_iff forwards).mpr ⟨rfl, first, second, known⟩⟩
  · rintro ⟨⟨before, current, after⟩, checked⟩
    have forwards := forwards_of_check checked
    obtain ⟨rfl, first, second, known⟩ := (check_eq_ok_iff forwards).mp checked
    have stop : Text.IsBoundary (before ++ current ++ after) edit.stop :=
      ⟨before ++ current, after, rfl, by rw [String.utf8ByteSize_append, second]⟩
    refine ⟨forwards, stop.le, ⟨before, current ++ after, String.append_assoc .., first⟩, stop, ?_⟩
    rw [(Text.extract_bytes_of_parts first second after).2.1, String.toByteArray_inj,
      String.toByteArray_inj]
    exact known

/-- Applying an edit is its check, with the new text between the two outer parts. -/
theorem apply_eq (edit : Edit) (content : String) :
    edit.apply content = (edit.check content).map fun parts =>
      parts.1 ++ edit.newText ++ parts.2.2 := by
  unfold apply
  cases edit.check content <;> rfl

theorem exists_apply_iff_exists_check {edit : Edit} {content : String} :
    (∃ result, edit.apply content = .ok result) ↔ ∃ parts, edit.check content = .ok parts := by
  rw [apply_eq]
  cases edit.check content <;> simp [Except.map]

theorem apply_eq_error_iff {edit : Edit} {content : String} {error : EditError} :
    edit.apply content = .error error ↔ edit.check content = .error error := by
  rw [apply_eq]
  cases edit.check content <;> simp [Except.map]

/-- The bytes of a text after an edit. -/
theorem bytes_of_apply {edit : Edit} {content result : String}
    (applied : edit.apply content = .ok result) :
    result.toByteArray = content.toByteArray.extract 0 edit.start ++ edit.newText.toByteArray ++
      content.toByteArray.extract edit.stop content.utf8ByteSize := by
  rw [apply_eq] at applied
  cases checked : edit.check content with
  | error error => simp [checked, Except.map] at applied
  | ok parts =>
    obtain ⟨before, current, after⟩ := parts
    obtain rfl : before ++ edit.newText ++ after = result := by
      simpa [checked, Except.map] using applied
    obtain ⟨rfl, first, second, -⟩ := (check_eq_ok_iff (forwards_of_check checked)).mp checked
    obtain ⟨front, -, rear⟩ := Text.extract_bytes_of_parts first second after
    rw [front, rear, String.toByteArray_append, String.toByteArray_append]

/-- What is left of an edit that passes its check. -/
theorem apply_of_check {edit : Edit} {content before current after : String}
    (checked : edit.check content = .ok (before, current, after)) :
    edit.apply content = .ok (before ++ edit.newText ++ after) ∧
      (before ++ edit.newText ++ after = content ↔ current = edit.newText) := by
  obtain ⟨rfl, -⟩ := (check_eq_ok_iff (forwards_of_check checked)).mp checked
  refine ⟨by rw [apply_eq, checked]; rfl, ?_⟩
  rw [String.append_left_inj, String.append_right_inj, eq_comm]

section File

variable {σ Temporary : Type} {disk : Disk (StateM σ) Temporary}
  {holds : σ → String → Option Content} {staged : σ → Temporary → Option String}
  {faults : DiskError → Prop} {edit : Edit} {s : σ}

/-- An edit of a file that is not there fails. -/
theorem ensures_applyToFile_missing (lawful : disk.Lawful holds staged faults)
    (missing : holds s edit.file = none) :
    Ensures (edit.applyToFile disk) s (fun _ _ => False) fun error after =>
      holds after = holds s ∧ ∃ cause, error = .disk cause := by
  have reads : Ensures ((disk.read edit.file).adapt EditError.disk) s (fun _ _ => False)
      fun error after => holds after = holds s ∧ ∃ cause, error = .disk cause :=
    ((lawful.read_missing missing).mono (fun _ _ => id)
      fun cause _ same => ⟨same, cause, rfl⟩).adapt
  exact reads.bind fun _ _ => False.elim

/-- All that an edit of a file can come to. -/
theorem ensures_applyToFile (lawful : disk.Lawful holds staged faults) {content : Content}
    (held : holds s edit.file = some content) :
    Ensures (edit.applyToFile disk) s
      (fun result after => ∃ text made, content = .text text ∧ edit.apply text = .ok made ∧
        holds after edit.file = some (.text made) ∧
        (result = .alreadyApplied ∧ after = ((disk.read edit.file).run s).2 ∧ made = text ∨
          result = .applied edit.newText.utf8ByteSize ∧ made ≠ text))
      fun error after => holds after = holds s ∧
        ((∃ text, content = .text text ∧ edit.apply text = .error error) ∨
          (∃ bytes, content = .binary bytes ∧ error = .notText) ∨
          ∃ fault, faults fault ∧ error = .disk fault) := by
  refine ((lawful.read held).traced.mono (fun _ _ => id) ?_).adapt.bind ?_
  · rintro fault after ⟨known, same⟩
    exact ⟨same, .inr (.inr ⟨fault, known, rfl⟩)⟩
  rintro found after ⟨run, rfl, same⟩
  rw [← same] at held ⊢
  cases found with
  | binary bytes => exact Ensures.throw ⟨rfl, .inr (.inl ⟨bytes, rfl, rfl⟩)⟩
  | text content =>
    refine Ensures.bind_result ?_ fun error refused =>
      ⟨rfl, .inl ⟨content, rfl, apply_eq_error_iff.mpr refused⟩⟩
    rintro ⟨before, current, behind⟩ checked
    obtain ⟨applied, unchanged⟩ := apply_of_check checked
    dsimp only
    split
    · rename_i there
      have whole := unchanged.mpr there
      exact Ensures.pure ⟨content, _, rfl, applied, whole ▸ held, .inl ⟨rfl, by rw [run], whole⟩⟩
    · rename_i changes
      refine ((lawful.replace held _).mono (fun _ _ => id) ?_).adapt.bind ?_
      · rintro fault later ⟨known, kept⟩
        exact ⟨kept, .inr (.inr ⟨fault, known, rfl⟩)⟩
      · intro _ later written
        exact Ensures.pure ⟨content, _, rfl, applied, written, .inr ⟨rfl, mt unchanged.mp changes⟩⟩

end File

end Edit

/-- An edit is applied to a text exactly if it fits the text, and then the bytes of the new text
stand in place of the ones between its ends. An edit of a file that fails leaves all files as they
are. It fails as the text of the file refuses it, or because the file is not there or holds no text,
or because the disk refuses to read the file or to save it. Every other edit leaves the text that it
makes of the file. Either this is the text that the file held, and the file has only been read, or
it is another one and the bytes of the new text are counted. -/
theorem edit_all_or_nothing (edit : Edit) :
    (∀ content, (∃ result, edit.apply content = .ok result) ↔ edit.Fits content) ∧
      (∀ content result, edit.apply content = .ok result →
        result.toByteArray = content.toByteArray.extract 0 edit.start ++
          edit.newText.toByteArray ++
            content.toByteArray.extract edit.stop content.utf8ByteSize) ∧
      ∀ {σ Temporary : Type} {disk : Disk (StateM σ) Temporary}
        {holds : σ → String → Option Content} {staged : σ → Temporary → Option String}
        {faults : DiskError → Prop}, disk.Lawful holds staged faults → ∀ s : σ,
        (holds s edit.file = none → ∃ cause after,
          (edit.applyToFile disk).run s = (.error (.disk cause), after) ∧
            holds after = holds s) ∧
        ∀ held, holds s edit.file = some held →
          (∀ error after, (edit.applyToFile disk).run s = (.error error, after) →
            holds after = holds s ∧
            ((∃ content, held = .text content ∧ edit.apply content = .error error) ∨
              (∃ bytes, held = .binary bytes ∧ error = .notText) ∨
              ∃ fault, faults fault ∧ error = .disk fault)) ∧
          (∀ result after, (edit.applyToFile disk).run s = (.ok result, after) →
            ∃ content made, held = .text content ∧ edit.apply content = .ok made ∧
              holds after edit.file = some (.text made) ∧
              (result = .alreadyApplied ∧ after = ((disk.read edit.file).run s).2 ∧
                  made = content ∨
                result = .applied edit.newText.utf8ByteSize ∧ made ≠ content)) := by
  refine ⟨fun content => ?_, fun content result => Edit.bytes_of_apply, ?_⟩
  · rw [Edit.exists_apply_iff_exists_check, Edit.fits_iff_exists_check]
  intro σ Temporary disk holds staged faults lawful s
  refine ⟨fun missing => ?_, fun held found => ?_⟩
  · have fails := Edit.ensures_applyToFile_missing lawful missing
    obtain ⟨result, after, run⟩ | ⟨error, after, run⟩ := Ensures.run_cases (edit.applyToFile disk) s
    · exact (fails.of_ok result after run).elim
    · obtain ⟨same, cause, rfl⟩ := fails.of_error error after run
      exact ⟨cause, after, run, same⟩
  · have outcome := Edit.ensures_applyToFile lawful found
    exact ⟨outcome.of_error, outcome.of_ok⟩

/-- A letter of two bytes is replaced in a file, and an edit that ends inside of it does not fit.
Where the temporary file may not take the place of the file, the letter is still there. -/
theorem edit_all_or_nothing_accent :
    ∃ (volume : Volume) (edit : Edit) (refused : Volume.Operation → Option DiskError),
      volume.store.read? edit.file = some (.text "é = 1") ∧ edit.Fits "é = 1" ∧
      (∃ after made, (edit.applyToFile Volume.disk).run volume = (.ok (.applied 2), after) ∧
        edit.apply "é = 1" = .ok made ∧ after.store.read? edit.file = some (.text made)) ∧
      (∃ error after, refused .persist = some error ∧
        (edit.applyToFile (Volume.disk refused)).run volume = (.error (.disk error), after) ∧
        after.store.read? = volume.store.read?) ∧
      ¬({ edit with stop := 1 } : Edit).Fits "é = 1" := by
  let volume : Volume := { store := .ofFiles [("t", .text "é = 1")] }
  let denied : DiskError := ⟨"Permission denied (os error 13)"⟩
  let refused (operation : Volume.Operation) : Option DiskError :=
    if operation = .persist then some denied else none
  have read : volume.store.read? "t" = some (.text "é = 1") := by decide
  have done : (Edit.applyToFile Volume.disk ⟨"t", 0, 2, "è", "é"⟩).run volume =
      (.ok (.applied 2), ((Edit.applyToFile Volume.disk ⟨"t", 0, 2, "è", "é"⟩).run volume).2) := rfl
  have failed : (Edit.applyToFile (Volume.disk refused) ⟨"t", 0, 2, "è", "é"⟩).run volume =
      (.error (.disk denied), { volume with temporaries := [none] }) := rfl
  obtain ⟨fits, -, file⟩ := edit_all_or_nothing ⟨"t", 0, 2, "è", "é"⟩
  obtain ⟨-, outcome⟩ := (file (Volume.lawful_disk _) volume).2 _ read
  obtain ⟨refusal, -⟩ := (file (Volume.lawful_disk refused) volume).2 _ read
  obtain ⟨content, made, text, applied, written, -⟩ := outcome _ _ done
  obtain ⟨kept, -⟩ := refusal _ _ failed
  obtain rfl : "é = 1" = content := Content.text.inj text
  refine ⟨volume, ⟨"t", 0, 2, "è", "é"⟩, refused, read, (fits _).mp ⟨made, applied⟩,
    ⟨_, made, done, applied, written⟩, ⟨denied, _, rfl, failed, kept⟩, ?_⟩
  intro inside
  obtain ⟨result, other⟩ := ((edit_all_or_nothing ⟨"t", 0, 1, "è", "é"⟩).1 _).mpr inside
  cases other

end SwiftTree
