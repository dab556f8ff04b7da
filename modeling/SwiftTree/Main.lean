import SwiftTree.Command.Run

/-!
# The command line tool

The files that a command names are loaded, and the command is run on them with the disk of the
operating system.
-/

namespace SwiftTree

def loadContent (path : String) : IO Content := do
  let bytes ← IO.FS.readBinFile path
  return match String.fromUTF8? bytes with
    | some text => .text text
    | none => .binary bytes.toList

/-- What a file holds. A file that cannot be read counts as one without a text. -/
def loadContentOrNone (path : String) : IO Content := do
  try loadContent path catch _ => return .binary []

/-- The Swift files and the directories below a directory. Links are not followed. -/
partial def loadDirectory (path : String) : IO (List (String × Content) × List String) := do
  let entries ← ((← IO.currentDir) / path).readDir
  let mut files := []
  let mut directories := [path]
  for entry in entries do
    let below := path ++ "/" ++ entry.fileName
    match (← entry.path.symlinkMetadata).type with
    | .dir =>
      let (inner, others) ← loadDirectory below
      files := files ++ inner
      directories := directories ++ others
    | .file =>
      if Session.isSwiftName entry.fileName then
        files := files ++ [(below, ← loadContentOrNone below)]
    | _ => pure ()
  return (files, directories)

/-- Loads what paths lead to. What does not exist is left out. -/
def loadStore (paths : List String) : IO FileStore := do
  let mut files := []
  let mut directories := []
  for path in paths do
    let found := (← IO.currentDir) / path
    if ← found.isDir then
      let (inner, others) ← loadDirectory path
      files := files ++ inner
      directories := directories ++ others
    else if ← found.pathExists then
      files := files ++ [(path, ← loadContentOrNone path)]
  return .ofFiles files directories

structure TemporaryFile where
  path : String
  handle : IO.FS.Handle

/-- What the operating system refuses is told in its words. -/
def attempt {α : Type} (action : IO α) : ExceptT DiskError IO α :=
  ExceptT.mk do
    try return .ok (← action) catch error => return .error ⟨toString error⟩

/-- Makes a file that was not there before. -/
def createTemporary (directory : String) : IO TemporaryFile := do
  let path := directory ++ "/.tmp" ++ toString (← IO.rand 100000000 999999999)
  return ⟨path, ← IO.FS.Handle.mk path .writeNew⟩

def systemDisk : Disk IO TemporaryFile where
  read file := attempt (loadContent file)
  create directory := attempt (createTemporary directory)
  append temporary text := attempt (temporary.handle.putStr text)
  -- the runtime can empty its own buffer, and has no call that waits for the device
  sync temporary := attempt temporary.handle.flush
  persist temporary file := attempt (IO.FS.rename temporary.path file)
  discard temporary := do
    try IO.FS.removeFile temporary.path catch _ => pure ()

/-- Whether output is styled. -/
def stylesInTerminal : IO Bool := do
  return stylesWanted (← IO.getEnv "CLICOLOR_FORCE") (← IO.getEnv "NO_COLOR")
    (← IO.getEnv "CLICOLOR") (← (← IO.getStdout).isTty)

end SwiftTree

open SwiftTree in
def main (arguments : List String) : IO UInt32 := do
  let paths :=
    match Invocation.ofArguments arguments with
    | .ok invocation => invocation.inputs
    | .error _ => []
  let store ← loadStore paths
  let outcome ← runArguments (← stylesInTerminal) store systemDisk arguments
  IO.print outcome.output
  IO.eprint outcome.notices
  return outcome.exitCode.toUInt32
