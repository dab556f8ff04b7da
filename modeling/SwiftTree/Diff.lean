import SwiftTree.Style
import SwiftTree.Text.Lines

/-!
# Line differences

The difference of two texts is a list of lines that are kept, deleted or inserted. Lines that both
texts begin with and lines that both end with are kept; between them a longest common subsequence
is. Between two kept lines, deletions come before insertions. Only lines near a change are shown.
-/

namespace SwiftTree

inductive LineTag
  | keep
  | delete
  | insert
  deriving DecidableEq, Repr

/-- A line with its line break, and what becomes of it. -/
structure LineChange where
  tag : LineTag
  line : List Char
  deriving DecidableEq, Repr

namespace Diff

/-- The lines of a text with their line breaks. An empty text has none. -/
def lines (text : String) : List (List Char) :=
  ((Text.lines text.toList).map Text.Line.chars).filter fun line => !line.isEmpty

variable {α : Type} [DecidableEq α]

abbrev Common (α : Type) := Nat × List α

/-- The longest common subsequences of `a :: as` with all ends of `bs`, given those of `as`. -/
def extendRow (a : α) : List α → List (Common α) → List (Common α)
  | b :: bs, skip :: both :: later =>
    let row := extendRow a bs (both :: later)
    let here :=
      if a = b then (both.1 + 1, a :: both.2)
      else
        match row with
        | without :: _ => if skip.1 < without.1 then without else skip
        | [] => skip
    here :: row
  | _, _ => [(0, [])]

/-- The longest common subsequences of a list with all ends of another one. -/
def commonRow : List α → List α → List (Common α)
  | [], bs => List.replicate (bs.length + 1) (0, [])
  | a :: as, bs => extendRow a bs (commonRow as bs)

def longestCommon (as bs : List α) : List α :=
  ((commonRow as bs).head?.map Prod.snd).getD []

end Diff

namespace LineChange

def deletions (lines : List (List Char)) : List LineChange :=
  lines.map (LineChange.mk .delete)

def insertions (lines : List (List Char)) : List LineChange :=
  lines.map (LineChange.mk .insert)

def kept (lines : List (List Char)) : List LineChange :=
  lines.map (LineChange.mk .keep)

end LineChange

namespace Diff

open LineChange

/-- The changes from some lines to others that keep a common subsequence of both. -/
def align : List (List Char) → List (List Char) → List (List Char) → List LineChange
  | [], old, new => deletions old ++ insertions new
  | line :: rest, old, new =>
    deletions (old.takeWhile (· != line)) ++ insertions (new.takeWhile (· != line)) ++
      kept [line] ++
      align rest (old.dropWhile (· != line)).tail (new.dropWhile (· != line)).tail

def changes (old new : String) : List LineChange :=
  let start := Text.commonStart (lines old) (lines new)
  let oldRest := (lines old).drop start.length
  let newRest := (lines new).drop start.length
  let finish := Text.commonEnd oldRest newRest
  let oldRest := oldRest.take (oldRest.length - finish.length)
  let newRest := newRest.take (newRest.length - finish.length)
  kept start ++ align (longestCommon oldRest newRest) oldRest newRest ++ kept finish

/-- The number of kept lines that are shown before and after a change. -/
def context : Nat :=
  3

/-- Pairs each change with the number of kept lines between it and the last one before it that is
not kept. -/
def distances (distance : Nat) : List LineChange → List (LineChange × Nat)
  | [] => []
  | change :: rest =>
    let distance := if change.tag = .keep then distance + 1 else 0
    (change, distance) :: distances distance rest

/-- The changes near one that is not kept. -/
def near (changes : List LineChange) : List LineChange :=
  let after := (distances context changes).map Prod.snd
  let before := (distances context changes.reverse).reverse.map Prod.snd
  ((changes.zip (after.zip before)).filter fun (_, a, b) => a ≤ context || b ≤ context).map Prod.fst

/-- A change as it is shown. A line that has no line break of its own gets one, and another one
after its style. -/
def changeText (colored : Bool) (change : LineChange) : String :=
  let complete := (change.line.getLast?.map Text.isLineBreak).getD false
  let line := String.ofList change.line ++ if complete then "" else "\n"
  let shown :=
    match change.tag with
    | .keep => " " ++ line
    | .delete => paint colored .red ("-" ++ line)
    | .insert => paint colored .green ("+" ++ line)
  if complete then shown else shown ++ "\n"

def text (colored : Bool) (file old new : String) : String :=
  paint colored .dimmed ("--- " ++ file ++ " (original)") ++ "\n" ++
    paint colored .dimmed ("+++ " ++ file ++ " (modified)") ++ "\n" ++
    String.join ((near (changes old new)).map (changeText colored))

end Diff

end SwiftTree
