import SwiftTree.Disk
import SwiftTree.Proofs.Result

/-!
# Saving a file

What a disk does is known from its documentation only. An operation that fails leaves all files as
they are. Temporary files are apart from all others until one of them takes the place of a file,
and this happens in one step. So a file that is replaced holds its old content until it holds the
new one, and where saving fails it still holds the old one. A volume is such a disk.
-/

namespace SwiftTree

namespace Disk

variable {σ Temporary : Type}

/-- The disk has refused an operation with one of its faults, and all files are as they were. -/
def Refused (holds : σ → String → Option Content) (faults : DiskError → Prop) (s : σ)
    (error : DiskError) (after : σ) : Prop :=
  faults error ∧ holds after = holds s

theorem refused_congr {holds : σ → String → Option Content} {faults : DiskError → Prop} {s t : σ}
    (same : holds s = holds t) : Refused holds faults s = Refused holds faults t := by
  unfold Refused
  rw [same]

/-- What a disk promises. In each of its states, `holds` tells what is found in a file, temporary
ones apart, and `staged` tells what has been written to a temporary file. The faults are the errors
that it may report at any time. -/
structure Lawful (disk : Disk (StateM σ) Temporary) (holds : σ → String → Option Content)
    (staged : σ → Temporary → Option String) (faults : DiskError → Prop) : Prop where
  read : ∀ {s file content}, holds s file = some content →
    Ensures (disk.read file) s (fun found after => found = content ∧ holds after = holds s)
      (Refused holds faults s)
  read_missing : ∀ {s file}, holds s file = none →
    Ensures (disk.read file) s (fun _ _ => False) fun _ after => holds after = holds s
  create : ∀ {s} directory,
    Ensures (disk.create directory) s
      (fun temporary after => staged after temporary = some "" ∧ holds after = holds s)
      (Refused holds faults s)
  append : ∀ {s temporary front} text, staged s temporary = some front →
    Ensures (disk.append temporary text) s
      (fun _ after => staged after temporary = some (front ++ text) ∧ holds after = holds s)
      (Refused holds faults s)
  sync : ∀ {s temporary text}, staged s temporary = some text →
    Ensures (disk.sync temporary) s
      (fun _ after => staged after temporary = some text ∧ holds after = holds s)
      (Refused holds faults s)
  persist : ∀ {s temporary text file content}, staged s temporary = some text →
    holds s file = some content →
    Ensures (disk.persist temporary file) s (fun _ after => holds after file = some (.text text))
      (Refused holds faults s)
  discard : ∀ s temporary, holds (disk.discard temporary s).2 = holds s

/-- A file is replaced as a whole or not at all. -/
theorem Lawful.replace {disk : Disk (StateM σ) Temporary} {holds : σ → String → Option Content}
    {staged : σ → Temporary → Option String} {faults : DiskError → Prop}
    (lawful : disk.Lawful holds staged faults) {s : σ} {file : String} {content : Content}
    (held : holds s file = some content) (text : String) :
    Ensures (disk.replace file text) s (fun _ after => holds after file = some (.text text))
      (Refused holds faults s) := by
  refine (lawful.create _).bind fun temporary created ⟨empty, same⟩ => ?_
  have saves : Ensures (do
      disk.append temporary text
      disk.sync temporary
      disk.persist temporary file) created (fun _ after => holds after file = some (.text text))
      (Refused holds faults s) := by
    rw [← refused_congr same]
    refine (lawful.append text empty).bind fun _ filled ⟨full, same'⟩ => ?_
    rw [← refused_congr same']
    rw [String.empty_append] at full
    refine (lawful.sync full).bind fun _ safe ⟨full, same''⟩ => ?_
    rw [← refused_congr same'']
    rw [← same, ← same', ← same''] at held
    exact lawful.persist full held
  refine saves.tryCatch fun error failed ⟨fault, kept⟩ => ?_
  refine Ensures.of_run_eq_error rfl ⟨fault, ?_⟩
  exact (lawful.discard failed temporary).trans kept

end Disk

namespace FileEntry

/-- The entry as it is found after a text has been written to a file. -/
def rewritten (target : List String) (text : String) : FileEntry → FileEntry
  | file components content =>
    file components (if components = target then .text text else content)
  | directory components => directory components

end FileEntry

namespace FileStore

theorem lookup_rewritten (files : List (List String × Content)) (target components : List String)
    (text : String) :
    (files.map fun (file, content) =>
        (file, if file = target then Content.text text else content)).lookup components =
      (files.lookup components).map fun content =>
        if components = target then Content.text text else content := by
  induction files with
  | nil => rfl
  | cons entry files ih =>
    obtain ⟨file, content⟩ := entry
    rw [List.map_cons, List.lookup_cons, List.lookup_cons, ih]
    by_cases same : components = file
    · subst same
      simp
    · rw [beq_false_of_ne same]

/-- Writing to a file changes neither which files there are nor which directories. -/
theorem get?_rewritten (store : FileStore) (target components : List String) (text : String) :
    (store.rewritten target text).get? components =
      (store.get? components).map (FileEntry.rewritten target text) := by
  have found : (store.rewritten target text).files.lookup components =
      (store.files.lookup components).map fun content =>
        if components = target then Content.text text else content :=
    lookup_rewritten store.files target components text
  have below : ((store.rewritten target text).files.any fun (file, _) =>
      components.isPrefixOf file) =
        store.files.any fun (file, _) => components.isPrefixOf file := by
    rw [rewritten, List.any_map]
    rfl
  unfold get?
  rw [found, below]
  cases store.files.lookup components with
  | some content => rfl
  | none =>
    dsimp only [Option.map_none, rewritten]
    rw [apply_ite (Option.map _)]
    rfl

theorem follow?_rewritten (store : FileStore) (target : List String) (text : String)
    (directory components : List String) :
    (store.rewritten target text).follow? directory components =
      (store.follow? directory components).map (FileEntry.rewritten target text) := by
  induction components generalizing directory with
  | nil => exact get?_rewritten store target directory text
  | cons component rest ih =>
    rw [follow?, follow?, get?_rewritten]
    match store.get? directory with
    | none => rfl
    | some (.file _ _) => rfl
    | some (.directory _) => exact ih _

/-- A file whose text is exchanged holds the new text. -/
theorem read?_rewritten {store : FileStore} {path : String} {components : List String}
    {content : Content} (found : store.find? path = some (.file components content))
    (text : String) : (store.rewritten components text).read? path = some (.text text) := by
  have again : (store.rewritten components text).find? path =
      some (.file components (.text text)) := by
    unfold find? at found ⊢
    split at found
    · cases found
    · rename_i named
      rw [if_neg named, follow?_rewritten, found]
      simp [FileEntry.rewritten]
  rw [read?, again]

theorem exists_find?_of_read? {store : FileStore} {path : String} {content : Content}
    (held : store.read? path = some content) :
    ∃ components, store.find? path = some (.file components content) := by
  unfold read? at held
  split at held
  · rename_i components _ found
    exact ⟨components, Option.some.inj held ▸ found⟩
  · cases held

end FileStore

namespace Volume

theorem ensures_attempt {α : Type} {refused : Operation → Option DiskError} {operation : Operation}
    {run : Volume → Except DiskError α × Volume} {volume after : Volume} {a : α}
    {done : α → Volume → Prop} (served : run volume = (.ok a, after)) (h : done a after) :
    Ensures (attempt refused operation run) volume done
      (Disk.Refused (fun volume => volume.store.read?)
        (fun error => ∃ operation, refused operation = some error) volume) := by
  unfold attempt
  cases refusal : refused operation with
  | some error => exact Ensures.throw ⟨⟨operation, refusal⟩, rfl⟩
  | none => exact Ensures.of_run_eq_ok served h

theorem exists_error_of_read? {volume : Volume} {file : String}
    (missing : volume.store.read? file = none) : ∃ error, volume.read file = .error error := by
  unfold FileStore.read? at missing
  unfold read
  cases found : volume.store.find? file with
  | none => exact ⟨_, rfl⟩
  | some entry =>
    cases entry with
    | directory components => exact ⟨_, rfl⟩
    | file components content => simp [found] at missing

/-- A temporary file that is there can be given another text. -/
theorem join_getElem?_set {volume : Volume} {temporary : Nat} {front : String}
    (staged : volume.staged? temporary = some front) (text : String) :
    (volume.temporaries.set temporary (some text))[temporary]?.join = some text := by
  have found := Option.join_eq_some_iff.mp staged
  obtain ⟨inside, -⟩ := List.getElem?_eq_some_iff.mp found
  rw [List.getElem?_set_self inside]
  rfl

/-- A volume keeps what a disk promises, whatever operations are refused on it. -/
theorem lawful_disk (refused : Operation → Option DiskError) :
    (disk refused).Lawful (fun volume => volume.store.read?) staged?
      fun error => ∃ operation, refused operation = some error where
  read := by
    intro volume file content held
    obtain ⟨components, found⟩ := FileStore.exists_find?_of_read? held
    have served : volume.read file = .ok content := by rw [read, found]
    exact ensures_attempt (congrArg (·, volume) served) ⟨rfl, rfl⟩
  read_missing := by
    intro volume file missing
    unfold disk attempt
    cases refused .read with
    | some error => exact Ensures.throw rfl
    | none =>
      obtain ⟨error, failed⟩ := exists_error_of_read? missing
      exact Ensures.of_run_eq_error (congrArg (·, volume) failed) rfl
  create directory := ensures_attempt rfl ⟨by simp [staged?], rfl⟩
  append := by
    intro volume temporary front text staged
    have served : volume.append temporary text = (.ok (), { volume with
        temporaries := volume.temporaries.set temporary (some (front ++ text)) }) := by
      rw [append, staged]
    exact ensures_attempt served ⟨join_getElem?_set staged _, rfl⟩
  sync staged := ensures_attempt rfl ⟨staged, rfl⟩
  persist := by
    intro volume temporary text file content staged held
    obtain ⟨components, found⟩ := FileStore.exists_find?_of_read? held
    have served : volume.persist temporary file = (.ok (), { volume.discard temporary with
        store := volume.store.rewritten components text }) := by
      rw [persist, staged, found]
    exact ensures_attempt served (FileStore.read?_rewritten found text)
  discard volume temporary := rfl

end Volume

end SwiftTree
