import SwiftTree.Diagnostic
import SwiftTree.Text.Escape

/-!
# Consolidated fix-its

One correction is often proposed as several changes that touch each other, or as several fix-its of
one change each. Changes of the same kind that touch are merged, first within each fix-it and then
across neighbouring fix-its. A fix-it that came out of merging has a message made from its changes.
-/

namespace SwiftTree

namespace Change

/-- Merges a change with one that starts where it ends. -/
def merge? : Change → Change → Option Change
  | insert a first, insert b second => if a = b then some (insert a (first ++ second)) else none
  | replace a b first, replace c d second =>
    if b = c then some (replace a d (first ++ second)) else none
  | delete a b, delete c d => if b = c then some (delete a d) else none
  | _, _ => none

/-- Merges a change with as many of the following ones as possible, and these among themselves. -/
def mergeRuns (change : Change) : List Change → List Change
  | [] => [change]
  | next :: rest =>
    match change.merge? next with
    | some merged => mergeRuns merged rest
    | none => change :: mergeRuns next rest

/-- What a change does, in words. -/
def summary : Change → String
  | insert _ newText => "insert '" ++ Text.escapeForDisplay newText ++ "'"
  | replace _ _ newText => "replace with '" ++ Text.escapeForDisplay newText ++ "'"
  | delete _ _ => "remove code"
  | generic description _ => Text.escapeMessage description

end Change

/-- Merges runs of changes that touch. -/
def coalesce : List Change → List Change
  | [] => []
  | change :: rest => change.mergeRuns rest

/-- What some changes do, in words. -/
def describe (changes : List Change) : String :=
  "; ".intercalate (changes.map Change.summary)

/-- A fix-it with its changes merged, and whether anything was merged. -/
structure MergedFixIt where
  message : String
  changes : List Change
  merged : Bool
  deriving DecidableEq, Repr

namespace MergedFixIt

def ofFixIt (fixIt : FixIt) : MergedFixIt :=
  let changes := coalesce fixIt.changes
  ⟨Text.escapeMessage fixIt.message, changes, changes.length < fixIt.changes.length⟩

/-- Joins two fix-its of one change each if the changes merge. -/
def join? (first second : MergedFixIt) : Option MergedFixIt :=
  match first.changes, second.changes with
  | [a], [b] => (a.merge? b).map fun merged => ⟨first.message, [merged], true⟩
  | _, _ => none

/-- Joins a fix-it with as many of the following ones as possible, and these among themselves. -/
def joinRuns (fixIt : MergedFixIt) : List MergedFixIt → List MergedFixIt
  | [] => [fixIt]
  | next :: rest =>
    match fixIt.join? next with
    | some joined => joinRuns joined rest
    | none => fixIt :: joinRuns next rest

def toFixIt (fixIt : MergedFixIt) : FixIt :=
  ⟨if fixIt.merged then describe fixIt.changes else fixIt.message, fixIt.changes⟩

end MergedFixIt

/-- Merges changes within each fix-it, and then neighbouring fix-its of one change each. -/
def consolidate : List FixIt → List FixIt
  | [] => []
  | fixIt :: rest =>
    ((MergedFixIt.ofFixIt fixIt).joinRuns (rest.map MergedFixIt.ofFixIt)).map MergedFixIt.toFixIt

end SwiftTree
