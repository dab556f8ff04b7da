import SwiftTree.Toml.Scalar

/-!
# Reading TOML

A document is read line by line: a header opens a table, and a key with a value adds to the table
that is open. Reading goes on only while the text gets shorter, so the length of the text bounds
the number of steps.
-/

namespace SwiftTree.Toml

/-- What follows blanks, line breaks and comments. -/
def skipSpace? (inComment : Bool) : List Char → Option (List Char)
  | [] => some []
  | '\n' :: cs => skipSpace? false cs
  | '\r' :: '\n' :: cs => skipSpace? false cs
  | c :: cs =>
    if inComment then if isForbidden c then none else skipSpace? true cs
    else if isBlankChar c then skipSpace? false cs
    else if c = '#' then skipSpace? true cs
    else some (c :: cs)

/-- What follows the end of a line, in front of which blanks and a comment may stand. -/
def lineEnd? (cs : List Char) : Option (List Char) :=
  let atEnd : List Char → Option (List Char)
    | [] => some []
    | '\n' :: cs => some cs
    | '\r' :: '\n' :: cs => some cs
    | _ => none
  match cs.dropWhile isBlankChar with
  | '#' :: cs => atEnd (cs.dropWhile fun c => !isForbidden c)
  | cs => atEnd cs

def isKeyChar (c : Char) : Bool :=
  c.isDigit || ('a' ≤ c && c ≤ 'z') || ('A' ≤ c && c ≤ 'Z') || c == '_' || c == '-'

def simpleKey? (cs : List Char) : Option (String × List Char) :=
  match cs with
  | '"' :: _ => lineString? cs
  | '\'' :: _ => lineString? cs
  | _ =>
    let name := cs.takeWhile isKeyChar
    if name.isEmpty then none else some (String.ofList name, cs.dropWhile isKeyChar)

/-- A key: the parts in front of the last, the last, and what follows. -/
def key? : Nat → List Char → Option (List String × String × List Char)
  | 0, _ => none
  | fuel + 1, cs => do
    let (name, cs) ← simpleKey? (cs.dropWhile isBlankChar)
    match cs.dropWhile isBlankChar with
    | '.' :: cs => do
      let (path, last, rest) ← key? fuel cs
      return (name :: path, last, rest)
    | cs => return ([], name, cs)

mutual

def value? : Nat → List Char → Option (Value × List Char)
  | 0, _ => none
  | fuel + 1, cs =>
    match cs with
    | '"' :: _ => (string? cs).map fun (text, rest) => (.string text, rest)
    | '\'' :: _ => (string? cs).map fun (text, rest) => (.string text, rest)
    | '[' :: cs => (elements? fuel cs).map fun (elements, rest) => (.array elements, rest)
    | '\x7b' :: cs =>
      (members? fuel [] cs).map fun (members, rest) => (.table .inline members, rest)
    | cs => scalar? cs

/-- The elements of an array after its opening bracket or a comma. -/
def elements? : Nat → List Char → Option (List Value × List Char)
  | 0, _ => none
  | fuel + 1, cs => do
    match ← skipSpace? false cs with
    | ']' :: rest => return ([], rest)
    | cs =>
      let (element, cs) ← value? fuel cs
      match ← skipSpace? false cs with
      | ',' :: cs => do
        let (elements, rest) ← elements? fuel cs
        return (element :: elements, rest)
      | ']' :: rest => return ([element], rest)
      | _ => none

/-- The members of a table in braces after the opening brace or a comma, added to those before. -/
def members? : Nat → Members → List Char → Option (Members × List Char)
  | 0, _, _ => none
  | fuel + 1, members, cs => do
    match ← skipSpace? false cs with
    | '\x7d' :: rest => return (members, rest)
    | cs =>
      let (path, key, cs) ← key? (cs.length + 1) cs
      let cs ← expect? '=' cs
      let (value, cs) ← value? fuel (cs.dropWhile isBlankChar)
      let members ← members.insert? .inline path key value
      match ← skipSpace? false cs with
      | ',' :: cs => members? fuel members cs
      | '\x7d' :: rest => return (members, rest)
      | _ => none

end

/-- What has been read: the document so far, and the path of the table that is open. -/
structure Reading where
  members : Members := []
  path : List String := []
  deriving Repr

def header? (double : Bool) (reading : Reading) (cs : List Char) :
    Option (Reading × List Char) := do
  let (path, key, cs) ← key? (cs.length + 1) cs
  let cs ← expect? ']' cs
  let cs ← if double then expect? ']' cs else some cs
  let members ←
    if double then reading.members.append? path key else reading.members.open? path key
  return (⟨members, path ++ [key]⟩, ← lineEnd? cs)

def keyValue? (reading : Reading) (cs : List Char) : Option (Reading × List Char) := do
  let (path, key, cs) ← key? (cs.length + 1) cs
  let cs ← expect? '=' cs
  let (value, cs) ← value? (cs.length + 1) (cs.dropWhile isBlankChar)
  let members ← reading.members.change? false
    (fun origin members => members.insert? origin path key value) .header reading.path
  return ({ reading with members }, ← lineEnd? cs)

def lines? : Nat → Reading → List Char → Option Members
  | 0, _, _ => none
  | fuel + 1, reading, cs => do
    match ← skipSpace? false cs with
    | [] => return reading.members
    | '[' :: '[' :: cs =>
      let (reading, cs) ← header? true reading cs
      lines? fuel reading cs
    | '[' :: cs =>
      let (reading, cs) ← header? false reading cs
      lines? fuel reading cs
    | cs =>
      let (reading, cs) ← keyValue? reading cs
      lines? fuel reading cs

/-- Reads a document. A byte order mark at its start is ignored. -/
def parse? (text : String) : Option Value :=
  let cs :=
    match text.toList with
    | '\ufeff' :: cs => cs
    | cs => cs
  (lines? (cs.length + 1) {} cs).map (Value.table .header)

end SwiftTree.Toml
