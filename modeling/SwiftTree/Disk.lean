import SwiftTree.FileStore

/-!
# Disks

A disk is where files are read and saved. What it does is up to the operating system, so a disk is
given by its operations. Each of them may fail, and what it has done until then stays done. A file
is saved by way of a temporary file beside it, which is filled and made safe first and then takes
the place of the file in one step.
-/

namespace SwiftTree

/-- Why a disk refused an operation, in its own words. -/
structure DiskError where
  message : String
  deriving DecidableEq, Repr

/-- The operations of a disk whose temporary files are known by values of another type. -/
structure Disk (m : Type → Type) (Temporary : Type) where
  read (file : String) : ExceptT DiskError m Content
  /-- Makes an empty temporary file in a directory. -/
  create (directory : String) : ExceptT DiskError m Temporary
  append (temporary : Temporary) (text : String) : ExceptT DiskError m Unit
  /-- Waits until what has been written can no longer be lost. -/
  sync (temporary : Temporary) : ExceptT DiskError m Unit
  /-- Puts a temporary file in the place of a file. -/
  persist (temporary : Temporary) (file : String) : ExceptT DiskError m Unit
  /-- Removes a temporary file. Nobody is told if that fails. -/
  discard (temporary : Temporary) : m Unit

/-- Puts a text in the place of what a file holds. -/
def Disk.replace {m : Type → Type} [Monad m] {Temporary : Type} (disk : Disk m Temporary)
    (file text : String) : ExceptT DiskError m Unit := do
  let temporary ← disk.create (directoryOf file)
  try
    disk.append temporary text
    disk.sync temporary
    disk.persist temporary file
  catch error =>
    disk.discard temporary
    throw error

/-- A file store and the temporary files that have been made in it. One that is gone holds none. -/
structure Volume where
  store : FileStore
  temporaries : List (Option String) := []
  deriving DecidableEq, Repr

namespace Volume

/-- The operations that a volume may refuse. -/
inductive Operation
  | read
  | create
  | append
  | sync
  | persist
  deriving DecidableEq, Repr

/-- What has been written to a temporary file. -/
def staged? (volume : Volume) (temporary : Nat) : Option String :=
  volume.temporaries[temporary]?.join

def noSuchFile : DiskError :=
  ⟨"No such file or directory (os error 2)"⟩

def badDescriptor : DiskError :=
  ⟨"Bad file descriptor (os error 9)"⟩

def isDirectory : DiskError :=
  ⟨"Is a directory (os error 21)"⟩

def read (volume : Volume) (file : String) : Except DiskError Content :=
  match volume.store.find? file with
  | some (.file _ content) => .ok content
  | some (.directory _) => .error isDirectory
  | none => .error noSuchFile

def create (volume : Volume) : Except DiskError Nat × Volume :=
  (.ok volume.temporaries.length,
    { volume with temporaries := volume.temporaries ++ [some ""] })

def append (volume : Volume) (temporary : Nat) (text : String) : Except DiskError Unit × Volume :=
  match volume.staged? temporary with
  | some front =>
    (.ok (),
      { volume with temporaries := volume.temporaries.set temporary (some (front ++ text)) })
  | none => (.error badDescriptor, volume)

def discard (volume : Volume) (temporary : Nat) : Volume :=
  { volume with temporaries := volume.temporaries.set temporary none }

def persist (volume : Volume) (temporary : Nat) (file : String) : Except DiskError Unit × Volume :=
  match volume.staged? temporary, volume.store.find? file with
  | some text, some (.file components _) =>
    (.ok (), { volume.discard temporary with store := volume.store.rewritten components text })
  | _, _ => (.error noSuchFile, volume)

/-- An operation that is refused leaves the volume as it is. -/
def attempt {α : Type} (refused : Operation → Option DiskError) (operation : Operation)
    (run : Volume → Except DiskError α × Volume) : ExceptT DiskError (StateM Volume) α :=
  match refused operation with
  | some error => throw error
  | none => run

/-- The disk of a volume, on which some operations are refused. -/
def disk (refused : Operation → Option DiskError := fun _ => none) :
    Disk (StateM Volume) Nat where
  read file := attempt refused .read fun volume => (volume.read file, volume)
  create _ := attempt refused .create create
  append temporary text := attempt refused .append fun volume => volume.append temporary text
  sync _ := attempt refused .sync fun volume => (.ok (), volume)
  persist temporary file := attempt refused .persist fun volume => volume.persist temporary file
  discard temporary := fun volume => ((), volume.discard temporary)

end Volume

end SwiftTree
