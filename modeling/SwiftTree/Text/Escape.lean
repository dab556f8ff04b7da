import SwiftTree.Text.Printable

/-!
# Escaped text

Four ways to write a text on one line. `escapeForDisplay` is for text quoted inside a message, so it
also escapes quotes and backslashes; `escapeMessage` keeps an authored message as it is apart from
control characters; `escapeLiteral` names a single character by printable ASCII alone; `quote`
puts a text between double quotes.
-/

namespace SwiftTree.Text

/-- Whether a character has the Unicode category Cc. -/
def isControl (c : Char) : Bool :=
  c.toNat < 0x20 || (0x7F ≤ c.toNat && c.toNat ≤ 0x9F)

/-- A number in lower case hexadecimal, without padding. -/
def hex (n : Nat) : List Char :=
  Nat.toDigits 16 n

/-- A character named by its code point. -/
def codePointEscape (c : Char) : List Char :=
  ['\\', 'u', '\x7b'] ++ hex c.toNat ++ ['\x7d']

/-- Line breaks and tabs have short names, and every other control character is named by its code
point. -/
def escapeControl (c : Char) : List Char :=
  if c = '\n' then ['\\', 'n']
  else if c = '\t' then ['\\', 't']
  else if c = '\r' then ['\\', 'r']
  else if isControl c then codePointEscape c
  else [c]

def escapeQuoted (c : Char) : List Char :=
  if c = '\\' ∨ c = '\'' ∨ c = '"' then ['\\', c] else escapeControl c

/-- A text as it is quoted inside a message: one line, with quotes and backslashes escaped. -/
def escapeForDisplay (s : String) : String :=
  String.ofList (s.toList.flatMap escapeQuoted)

/-- A message on one line. Its own quotes and backslashes stay. -/
def escapeMessage (s : String) : String :=
  String.ofList (s.toList.flatMap escapeControl)

/-- A character written in printable ASCII. -/
def escapeLiteral (c : Char) : List Char :=
  if c = '\t' then ['\\', 't']
  else if c = '\r' then ['\\', 'r']
  else if c = '\n' then ['\\', 'n']
  else if c = '\\' ∨ c = '\'' ∨ c = '"' then ['\\', c]
  else if 0x20 ≤ c.toNat ∧ c.toNat ≤ 0x7E then [c]
  else codePointEscape c

def escapeDoubleQuoted (c : Char) : List Char :=
  if c = '\\' ∨ c = '"' then ['\\', c]
  else if c = '\n' then ['\\', 'n']
  else if c = '\t' then ['\\', 't']
  else if c = '\r' then ['\\', 'r']
  else if c.toNat = 0 then ['\\', '0']
  else if isPrintable c then [c]
  else codePointEscape c

/-- A text between double quotes, with everything escaped that cannot be seen. -/
def quote (s : String) : String :=
  String.ofList (['"'] ++ s.toList.flatMap escapeDoubleQuoted ++ ['"'])

end SwiftTree.Text
