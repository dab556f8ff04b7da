import SwiftTree.Text.Lines

/-!
# Locations

A location is a line and a column, both counted from 1; columns count characters. `locate` searches
for the last line that starts at or before a byte offset and counts the characters from there, and
`offsetOf?` goes back through the lines of the text. An offset inside a character has the location
of that character.
-/

namespace SwiftTree

/-- A line and a column, both counted from 1. -/
structure Location where
  line : Nat
  column : Nat
  deriving DecidableEq, Repr

namespace Location

/-- Locations are ordered by line and then by column. -/
def le (a b : Location) : Bool :=
  a.line < b.line || (a.line == b.line && a.column ≤ b.column)

def text (here : Location) : String :=
  toString here.line ++ ":" ++ toString here.column

end Location

/-- The lines of a text, made ready for searches: where each of them starts, and whether all of its
characters are ASCII. -/
structure LineTable where
  text : String
  starts : Array Nat
  ascii : Array Bool
  deriving DecidableEq, Repr

namespace LineTable

/-- The byte offsets at which lines start, if the first of them starts at a known offset. -/
def startsFrom (offset : Nat) : List Text.Line → List Nat
  | [] => []
  | line :: rest => offset :: startsFrom (offset + Text.width line.chars) rest

def isAscii (line : Text.Line) : Bool :=
  line.chars.all fun c => c.toNat < 128

def ofText (text : String) : LineTable :=
  let lines := Text.lines text.toList
  ⟨text, (startsFrom 0 lines).toArray, (lines.map isAscii).toArray⟩

/-- The number of lines that start at or before an offset, if at least `low` do and at most `high`.
Each step rules out half of the lines that are left. -/
def search (starts : Array Nat) (offset low high : Nat) : Nat :=
  if h : low < high then
    let middle := (low + high) / 2
    if starts[middle]?.any (· ≤ offset) then search starts offset (middle + 1) high
    else search starts offset low middle
  else low
  termination_by high - low

/-- The location of a character boundary. On a line of ASCII characters, bytes are counted. -/
def locateBoundary (table : LineTable) (boundary : Nat) : Option Location := do
  let index := search table.starts boundary 0 table.starts.size - 1
  let start ← table.starts[index]?
  if ← table.ascii[index]? then return ⟨index + 1, boundary - start + 1⟩
  else return ⟨index + 1, (← Text.between? table.text start boundary).length + 1⟩

def locate (table : LineTable) (offset : Nat) : Option Location :=
  if table.text.utf8ByteSize < offset then none
  else table.locateBoundary (Text.floorBoundary offset table.text.toList)

end LineTable

/-- The location of a byte offset; none past the end of the text. The end itself has a location. -/
def locate (text : String) (offset : Nat) : Option Location :=
  (LineTable.ofText text).locate offset

def endLocation (text : String) : Location :=
  (locate text text.utf8ByteSize).getD ⟨1, 1⟩

/-- The location of a byte offset clipped to the text, and whether clipping was needed. -/
def locateClipped (text : String) (offset : Nat) : Location × Bool :=
  match locate text offset with
  | some location => (location, false)
  | none => (endLocation text, true)

/-- The byte offset of a location. A line has a location for each of its characters and one for its
end, before the line break. -/
def offsetOf? (text : String) (here : Location) : Option Nat := do
  let (start, line) ← Text.line? text here.line
  if here.column = 0 ∨ line.content.length < here.column - 1 then none
  else some (start + Text.width (line.content.take (here.column - 1)))

end SwiftTree
