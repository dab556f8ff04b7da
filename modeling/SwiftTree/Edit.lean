import SwiftTree.Disk
import SwiftTree.Text.Width

/-!
# Edits

An edit replaces the text between two byte offsets of a file. It knows the text that it expects
there and refuses to change anything else. An edit that finds its new text already in place has
nothing to do.
-/

namespace SwiftTree

/-- A replacement of a stretch of a file. -/
structure Edit where
  file : String
  /-- The byte offset at which the replaced text starts. -/
  start : Nat
  /-- The byte offset at which the replaced text ends. -/
  stop : Nat
  newText : String
  /-- The text that is expected at that place. -/
  expected : String
  deriving DecidableEq, Repr

inductive EditError
  | beforeTextMismatch (file : String) (start stop : Nat) (found : String)
  | invalidByteRange (start stop length : Nat)
  | notCharBoundary (start stop : Nat)
  /-- The disk refused to read the file or to save it. -/
  | disk (error : DiskError)
  /-- The file does not hold a text. -/
  | notText
  deriving DecidableEq, Repr

namespace EditError

/-- A range of bytes as it is written in messages. -/
def range (start stop : Nat) : String :=
  "[" ++ toString start ++ ", " ++ toString stop ++ ")"

def message : EditError → String
  | beforeTextMismatch file start _ _ =>
    "before-text verification failed at " ++ file ++ ":" ++ toString start
  | invalidByteRange start stop length =>
    "invalid byte range " ++ range start stop ++ " in text of length " ++ toString length
  | notCharBoundary start stop =>
    "byte range " ++ range start stop ++ " does not fall on character boundaries"
  | disk error => "file I/O error: " ++ error.message
  | notText => "file is not valid UTF-8"

end EditError

/-- What became of an edit. -/
inductive EditResult
  | applied (bytesChanged : Nat)
  /-- The new text was already there. -/
  | alreadyApplied
  /-- There was nothing to change. -/
  | unchanged
  deriving DecidableEq, Repr

namespace Edit

/-- The number of bytes up to which the expected text itself is kept; of a longer text only a digest
is. Two texts are taken to be equal if their digests are, so nothing but the report of an edit
depends on which of the two is kept: `check` compares the texts. -/
def longestKept : Nat :=
  1024

def keepsExpected (edit : Edit) : Bool :=
  edit.expected.utf8ByteSize ≤ longestKept

/-- The smallest edit that turns one text into another: it leaves alone what both begin with and
what the rest of both ends with. There is none if the texts are equal. -/
def between? (file before after : String) : Option Edit :=
  if before = after then none
  else
    let start := Text.commonStart before.toList after.toList
    let oldRest := before.toList.drop start.length
    let newRest := after.toList.drop start.length
    let finish := Text.commonEnd oldRest newRest
    let old := oldRest.take (oldRest.length - finish.length)
    let new := newRest.take (newRest.length - finish.length)
    some
      { file
        start := Text.width start
        stop := Text.width start + Text.width old
        newText := String.ofList new
        expected := String.ofList old }

/-- Cuts a text at the ends of the edit, and checks that the edit may be applied to it. -/
def check (edit : Edit) (content : String) : Except EditError (String × String × String) :=
  if edit.stop < edit.start ∨ content.utf8ByteSize < edit.stop then
    .error (.invalidByteRange edit.start edit.stop content.utf8ByteSize)
  else
    match Text.cut? content edit.start edit.stop with
    | none => .error (.notCharBoundary edit.start edit.stop)
    | some (before, current, after) =>
      if current = edit.newText ∨ current = edit.expected then .ok (before, current, after)
      else .error (.beforeTextMismatch edit.file edit.start edit.stop current)

def apply (edit : Edit) (content : String) : Except EditError String := do
  let (before, _, after) ← edit.check content
  return before ++ edit.newText ++ after

variable {m : Type → Type} [Monad m] {Temporary : Type}

def applyToFile (disk : Disk m Temporary) (edit : Edit) : ExceptT EditError m EditResult := do
  match ← (disk.read edit.file).adapt .disk with
  | .binary _ => throw .notText
  | .text content =>
    let (before, current, after) ← edit.check content
    if current = edit.newText then return .alreadyApplied
    else
      (disk.replace edit.file (before ++ edit.newText ++ after)).adapt .disk
      return .applied edit.newText.utf8ByteSize

end Edit

/-- Writes one text over another in a file, if the file still holds what is to be changed. -/
def writeChange {m : Type → Type} [Monad m] {Temporary : Type} (disk : Disk m Temporary)
    (file before after : String) : ExceptT EditError m EditResult :=
  match Edit.between? file before after with
  | some edit => edit.applyToFile disk
  | none => return .unchanged

end SwiftTree
