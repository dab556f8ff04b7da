import SwiftTree.Text.Decimal
import SwiftTree.Toml.Basic

/-!
# Strings, numbers and dates in TOML

Reading a string gives its characters and what follows it. A number, a truth value or a date is a
run of characters that is read as a whole.
-/

namespace SwiftTree.Toml

/-- Whether a character may not stand in a comment or in a string. -/
def isForbidden (c : Char) : Bool :=
  (c.toNat < 0x20 && c != '\t') || c.toNat == 0x7F

def isBlankChar (c : Char) : Bool :=
  c == ' ' || c == '\t'

def hexDigit? (c : Char) : Option Nat :=
  if c.isDigit then some (c.toNat - '0'.toNat)
  else if 'a' ≤ c ∧ c ≤ 'f' then some (c.toNat - 'a'.toNat + 10)
  else if 'A' ≤ c ∧ c ≤ 'F' then some (c.toNat - 'A'.toNat + 10)
  else none

/-- The number that digits of a base denote. -/
def digitsValue (base : Nat) (digits : List Nat) : Nat :=
  digits.foldl (fun value digit => base * value + digit) 0

/-- The character with a code point in hexadecimal, and what follows its digits. -/
def codePoint? (length : Nat) (cs : List Char) : Option (Char × List Char) := do
  let digits ← (cs.take length).mapM hexDigit?
  let code := digitsValue 16 digits
  if digits.length = length ∧ code.isValidChar then some (Char.ofNat code, cs.drop length) else none

/-- The character that an escape stands for, after the backslash, and what follows it. -/
def escape? : List Char → Option (Char × List Char)
  | 'b' :: cs => some ('\x08', cs)
  | 't' :: cs => some ('\t', cs)
  | 'n' :: cs => some ('\n', cs)
  | 'f' :: cs => some ('\x0c', cs)
  | 'r' :: cs => some ('\r', cs)
  | 'e' :: cs => some ('\x1b', cs)
  | '"' :: cs => some ('"', cs)
  | '\\' :: cs => some ('\\', cs)
  | 'x' :: cs => codePoint? 2 cs
  | 'u' :: cs => codePoint? 4 cs
  | 'U' :: cs => codePoint? 8 cs
  | _ => none

/-- A string with escapes after its opening quote. -/
def basicString? : Nat → List Char → Option (List Char × List Char)
  | 0, _ => none
  | _, [] => none
  | _ + 1, '"' :: cs => some ([], cs)
  | fuel + 1, '\\' :: cs => do
    let (c, cs) ← escape? cs
    let (text, rest) ← basicString? fuel cs
    return (c :: text, rest)
  | fuel + 1, c :: cs =>
    if isForbidden c then none
    else (basicString? fuel cs).map fun (text, rest) => (c :: text, rest)

/-- A string without escapes after its opening quote. -/
def literalString? : List Char → Option (List Char × List Char)
  | [] => none
  | '\'' :: cs => some ([], cs)
  | c :: cs =>
    if isForbidden c then none
    else (literalString? cs).map fun (text, rest) => (c :: text, rest)

/-- What follows the line break right after an opening of three quotes. -/
def dropFirstNewline : List Char → List Char
  | '\n' :: cs => cs
  | '\r' :: '\n' :: cs => cs
  | cs => cs

/-- What follows a backslash at the end of a line: all blanks and line breaks are dropped. -/
def dropLineEnd? (cs : List Char) : Option (List Char) :=
  match cs.dropWhile isBlankChar with
  | '\n' :: cs => some (cs.dropWhile fun c => isBlankChar c || c == '\n' || c == '\r')
  | '\r' :: '\n' :: cs => some (cs.dropWhile fun c => isBlankChar c || c == '\n' || c == '\r')
  | _ => none

/-- A string over several lines after its opening. It ends at three quotes, and up to two more may
stand in front of these. -/
def multilineString? (quote : Char) (escapes : Bool) :
    Nat → List Char → Option (List Char × List Char)
  | 0, _ => none
  | _, [] => none
  | fuel + 1, '\r' :: '\n' :: cs =>
    (multilineString? quote escapes fuel cs).map fun (text, rest) => ('\r' :: '\n' :: text, rest)
  | fuel + 1, c :: cs =>
    if c = quote then
      let count := ((c :: cs).takeWhile (· == quote)).length
      if 3 ≤ count then
        let inside := min (count - 3) 2
        some (List.replicate inside quote, (c :: cs).drop (inside + 3))
      else (multilineString? quote escapes fuel cs).map fun (text, rest) => (c :: text, rest)
    else if escapes && c == '\\' then
      match escape? cs with
      | some (c, cs) =>
        (multilineString? quote escapes fuel cs).map fun (text, rest) => (c :: text, rest)
      | none => (dropLineEnd? cs).bind (multilineString? quote escapes fuel)
    else if c != '\n' && isForbidden c then none
    else (multilineString? quote escapes fuel cs).map fun (text, rest) => (c :: text, rest)

def lineString? : List Char → Option (String × List Char)
  | '"' :: cs =>
    (basicString? (cs.length + 1) cs).map fun (text, rest) => (String.ofList text, rest)
  | '\'' :: cs => (literalString? cs).map fun (text, rest) => (String.ofList text, rest)
  | _ => none

def string? (cs : List Char) : Option (String × List Char) :=
  let multiline (quote : Char) (escapes : Bool) (cs : List Char) :=
    (multilineString? quote escapes (cs.length + 1) (dropFirstNewline cs)).map
      fun (text, rest) => (String.ofList text, rest)
  match cs with
  | '"' :: '"' :: '"' :: cs => multiline '"' true cs
  | '\'' :: '\'' :: '\'' :: cs => multiline '\'' false cs
  | cs => lineString? cs

/-- The digits of a number. Single underscores may stand between them. -/
def digits? (digit? : Char → Option Nat) (cs : List Char) : Option (List Nat) :=
  let groups := cs.splitOn '_'
  if groups.any List.isEmpty then none else (groups.flatMap id).mapM digit?

/-- The value of a digit of a base up to sixteen. -/
def digitBelow? (base : Nat) (c : Char) : Option Nat :=
  (hexDigit? c).filter (· < base)

/-- The sign of a number, and what follows it. -/
def sign : List Char → Bool × List Char
  | '-' :: cs => (true, cs)
  | '+' :: cs => (false, cs)
  | cs => (false, cs)

/-- The digits of a decimal number without leading zeros. -/
def decimalDigits? (cs : List Char) : Option (List Nat) := do
  let digits ← digits? (digitBelow? 10) cs
  if 1 < digits.length ∧ digits.head? = some 0 then none else some digits

def integer? (cs : List Char) : Option Int := do
  let value : Int ←
    match cs with
    | '0' :: 'x' :: cs => (digits? (digitBelow? 16) cs).map fun ds => Int.ofNat (digitsValue 16 ds)
    | '0' :: 'o' :: cs => (digits? (digitBelow? 8) cs).map fun ds => Int.ofNat (digitsValue 8 ds)
    | '0' :: 'b' :: cs => (digits? (digitBelow? 2) cs).map fun ds => Int.ofNat (digitsValue 2 ds)
    | cs =>
      let (negative, cs) := sign cs
      (decimalDigits? cs).map fun ds =>
        if negative then -Int.ofNat (digitsValue 10 ds) else Int.ofNat (digitsValue 10 ds)
  if Int64.minValue.toInt ≤ value ∧ value ≤ Int64.maxValue.toInt then some value else none

def isExponent : List Char → Bool
  | 'e' :: cs => (digits? (digitBelow? 10) (sign cs).2).isSome
  | 'E' :: cs => (digits? (digitBelow? 10) (sign cs).2).isSome
  | _ => false

def isFloat (cs : List Char) : Bool :=
  let cs := (sign cs).2
  let isPart (c : Char) := c.isDigit || c == '_'
  cs == "inf".toList || cs == "nan".toList ||
    ((decimalDigits? (cs.takeWhile isPart)).isSome &&
      match cs.dropWhile isPart with
      | '.' :: cs =>
        (digits? (digitBelow? 10) (cs.takeWhile isPart)).isSome &&
          (let rest := cs.dropWhile isPart
           rest.isEmpty || isExponent rest)
      | rest => isExponent rest)

/-- A number with a fixed count of digits, and what follows it. -/
def fixedDigits? (count : Nat) (cs : List Char) : Option (Nat × List Char) :=
  let digits := cs.take count
  if digits.length = count then (Text.decimal? digits).map fun value => (value, cs.drop count)
  else none

/-- What follows a character that must stand first. -/
def expect? (expected : Char) : List Char → Option (List Char)
  | c :: cs => if c = expected then some cs else none
  | [] => none

def daysInMonth (year month : Nat) : Nat :=
  if month = 2 then
    if year % 4 = 0 ∧ (year % 100 ≠ 0 ∨ year % 400 = 0) then 29 else 28
  else if month = 4 ∨ month = 6 ∨ month = 9 ∨ month = 11 then 30
  else 31

def date? (cs : List Char) : Option (List Char) := do
  let (year, cs) ← fixedDigits? 4 cs
  let (month, cs) ← fixedDigits? 2 (← expect? '-' cs)
  let (day, cs) ← fixedDigits? 2 (← expect? '-' cs)
  if 1 ≤ month ∧ month ≤ 12 ∧ 1 ≤ day ∧ day ≤ daysInMonth year month then some cs else none

/-- What follows the seconds of a time, which may be left out. -/
def seconds? : List Char → Option (List Char)
  | ':' :: cs => do
    let (second, cs) ← fixedDigits? 2 cs
    if 60 < second then none
    else
      match cs with
      | '.' :: cs =>
        let rest := cs.dropWhile Char.isDigit
        if rest.length < cs.length then some rest else none
      | cs => some cs
  | cs => some cs

/-- What follows hours and minutes. -/
def clock? (cs : List Char) : Option (List Char) := do
  let (hour, cs) ← fixedDigits? 2 cs
  let (minute, cs) ← fixedDigits? 2 (← expect? ':' cs)
  if hour ≤ 23 ∧ minute ≤ 59 then some cs else none

def time? (cs : List Char) : Option (List Char) :=
  (clock? cs).bind seconds?

/-- Whether a text is an offset from universal time, or empty. -/
def isOffset : List Char → Bool
  | [] => true
  | ['Z'] => true
  | ['z'] => true
  | '+' :: cs => clock? cs == some []
  | '-' :: cs => clock? cs == some []
  | _ => false

def isDatetime (cs : List Char) : Bool :=
  match date? cs with
  | some [] => true
  | some (c :: cs) =>
    (c == 'T' || c == 't' || c == ' ') && ((time? cs).map isOffset).getD false
  | none => time? cs == some []

/-- Whether a character may stand in a number, a truth value or a date. -/
def isScalarChar (c : Char) : Bool :=
  c.isDigit || ('a' ≤ c && c ≤ 'z') || ('A' ≤ c && c ≤ 'Z') ||
    ['_', '+', '-', '.', ':'].contains c

/-- The value that a run of characters stands for. -/
def scalarValue? (cs : List Char) : Option Value :=
  if cs = "true".toList then some (.boolean true)
  else if cs = "false".toList then some (.boolean false)
  else
    match integer? cs with
    | some value => some (.integer value)
    | none =>
      if isFloat cs then some .float else if isDatetime cs then some .datetime else none

/-- A number, a truth value or a date. A blank may stand between a date and a time. -/
def scalar? (cs : List Char) : Option (Value × List Char) :=
  let token := cs.takeWhile isScalarChar
  let rest := cs.dropWhile isScalarChar
  let time := rest.tail.takeWhile isScalarChar
  if date? token = some [] ∧ rest.head? = some ' ' ∧ (time.head?.map Char.isDigit).getD false then
    (scalarValue? (token ++ ' ' :: time)).map fun value => (value, rest.tail.drop time.length)
  else (scalarValue? token).map fun value => (value, rest)

end SwiftTree.Toml
