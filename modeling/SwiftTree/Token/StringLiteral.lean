import SwiftTree.Text.Lines

/-!
# String literals

A string literal opens with any number of hash signs and one or three quotes, and closes with the
same quotes and hash signs. Three quotes let it run over several lines. A backslash followed by the
hash signs escapes the next character, or, before a parenthesis, opens an interpolation that runs to
the matching parenthesis. A literal that is never closed ends before the next line break, or at the
end of the text.
-/

namespace SwiftTree.StringLiteral

structure Delimiter where
  hashes : Nat
  multiline : Bool
  deriving DecidableEq, Repr

namespace Delimiter

def quotes (d : Delimiter) : List Char :=
  if d.multiline then ['"', '"', '"'] else ['"']

/-- What ends the literal. -/
def closing (d : Delimiter) : List Char :=
  d.quotes ++ List.replicate d.hashes '#'

/-- What opens an escape inside the literal. -/
def escape (d : Delimiter) : List Char :=
  '\\' :: List.replicate d.hashes '#'

def openingLength (d : Delimiter) : Nat :=
  d.hashes + d.quotes.length

end Delimiter

def delimiter (cs : List Char) : Delimiter :=
  let hashes := (cs.takeWhile (· == '#')).length
  ⟨hashes, ['"', '"', '"'].isPrefixOf (cs.drop hashes)⟩

inductive Extent
  /-- The literal is closed after this many characters. -/
  | closed (length : Nat)
  /-- The literal is cut off after this many characters. -/
  | cut (length : Nat)
  deriving DecidableEq, Repr

namespace Extent

/-- The extent of a literal that begins a number of characters earlier. -/
def add (extent : Extent) (count : Nat) : Extent :=
  match extent with
  | closed length => closed (length + count)
  | cut length => cut (length + count)

def length : Extent → Nat
  | closed length => length
  | cut length => length

@[simp] theorem length_add (extent : Extent) (count : Nat) :
    (extent.add count).length = extent.length + count := by
  cases extent <;> rfl

end Extent

/-- The number of characters up to the parenthesis that closes an interpolation, inside a number of
open parentheses. Only in a multi-line literal may an interpolation run over a line break. -/
def interpolationLength (multiline : Bool) : Nat → List Char → Nat
  | _, [] => 0
  | depth, '(' :: cs => interpolationLength multiline (depth + 1) cs + 1
  | depth, ')' :: cs => if depth ≤ 1 then 1 else interpolationLength multiline (depth - 1) cs + 1
  | depth, c :: cs =>
    if !multiline && Text.isLineBreak c then 0 else interpolationLength multiline depth cs + 1

/-- The number of characters that an escape covers after its opening. -/
def escapedLength (multiline : Bool) : List Char → Nat
  | [] => 0
  | '(' :: cs => interpolationLength multiline 0 ('(' :: cs)
  | _ :: _ => 1

/-- The extent of a literal after its opening. The first `skipped` characters belong to an escape
and are passed over. -/
def bodyExtent (d : Delimiter) : Nat → List Char → Extent
  | _, [] => .cut 0
  | skipped + 1, _ :: cs => (bodyExtent d skipped cs).add 1
  | 0, c :: cs =>
    if d.closing.isPrefixOf (c :: cs) then .closed d.closing.length
    else if d.escape.isPrefixOf (c :: cs) then
      (bodyExtent d (d.hashes + escapedLength d.multiline (cs.drop d.hashes)) cs).add 1
    else if !d.multiline && Text.isLineBreak c then .cut 0
    else (bodyExtent d 0 cs).add 1

def extent (cs : List Char) : Extent :=
  let d := delimiter cs
  (bodyExtent d 0 (cs.drop d.openingLength)).add d.openingLength

def isClosed (cs : List Char) : Bool :=
  match extent cs with
  | .closed _ => true
  | .cut _ => false

end SwiftTree.StringLiteral
