import SwiftTree.Text.Escape

/-!
# JSON

Values of the JSON format that reports are written in, and their text: one member or element on a
line, two blanks of indentation for each level. Members keep the order in which they are given.
-/

namespace SwiftTree

inductive Json
  | number (value : Nat)
  | string (text : String)
  | array (elements : List Json)
  | object (members : List (String × Json))
  deriving Repr

namespace Json

/-- A character inside a JSON string. -/
def escapeChar (c : Char) : List Char :=
  if c = '"' then ['\\', '"']
  else if c = '\\' then ['\\', '\\']
  else if c = '\n' then ['\\', 'n']
  else if c = '\r' then ['\\', 'r']
  else if c = '\t' then ['\\', 't']
  else if c.toNat = 0x08 then ['\\', 'b']
  else if c.toNat = 0x0C then ['\\', 'f']
  else if c.toNat < 0x10 then ['\\', 'u', '0', '0', '0'] ++ Text.hex c.toNat
  else if c.toNat < 0x20 then ['\\', 'u', '0', '0'] ++ Text.hex c.toNat
  else [c]

def quote (text : String) : String :=
  "\"" ++ String.ofList (text.toList.flatMap escapeChar) ++ "\""

/-- A line break and the indentation of a level. -/
def newline (level : Nat) : String :=
  "\n" ++ String.ofList (List.replicate (2 * level) ' ')

mutual

/-- The text of a value at a level of indentation. -/
def render (level : Nat) : Json → String
  | number value => toString value
  | string text => quote text
  | array [] => "[]"
  | array (element :: rest) =>
    "[" ++ newline (level + 1) ++ render (level + 1) element ++ renderElements (level + 1) rest ++
      newline level ++ "]"
  | object [] => "\x7b\x7d"
  | object ((key, value) :: rest) =>
    "\x7b" ++ newline (level + 1) ++ quote key ++ ": " ++ render (level + 1) value ++
      renderMembers (level + 1) rest ++ newline level ++ "\x7d"

def renderElements (level : Nat) : List Json → String
  | [] => ""
  | element :: rest =>
    "," ++ newline level ++ render level element ++ renderElements level rest

def renderMembers (level : Nat) : List (String × Json) → String
  | [] => ""
  | (key, value) :: rest =>
    "," ++ newline level ++ quote key ++ ": " ++ render level value ++ renderMembers level rest

end

/-- A member that is left out if it has no value. -/
def optional (key : String) (value : Option Json) : List (String × Json) :=
  match value with
  | some value => [(key, value)]
  | none => []

end Json

end SwiftTree
