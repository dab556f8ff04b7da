/-!
# TOML documents

A TOML document is a table of keys and values. Tables come from headers, from dotted keys or from
braces, and where a table came from decides how it may be extended: a header opens a table once, a
dotted key extends only tables that dotted keys made, and a table in braces is complete.
-/

namespace SwiftTree

namespace Toml

/-- Where a table came from. -/
inductive Origin
  /-- A header of its own, or the document. -/
  | header
  /-- The header of a table inside of it. -/
  | implied
  /-- A dotted key. -/
  | dotted
  /-- Braces. -/
  | inline
  deriving DecidableEq, Repr

/-- A value. Floating point numbers and dates are never used, so they are not kept. -/
inductive Value
  | string (text : String)
  | integer (value : Int)
  | float
  | boolean (value : Bool)
  | datetime
  | array (elements : List Value)
  | table (origin : Origin) (members : List (String × Value))
  /-- Tables with the same double header. -/
  | tables (elements : List (List (String × Value)))
  deriving Repr

/-- The keys of a table with their values. -/
abbrev Members := List (String × Value)

namespace Members

/-- The members with another value for a key that is there. -/
def replace (members : Members) (key : String) (value : Value) : Members :=
  members.map fun (other, old) => (other, if other = key then value else old)

/-- Adds a key that must not be there. -/
def add? (members : Members) (key : String) (value : Value) : Option Members :=
  match members.lookup key with
  | some _ => none
  | none => some (members ++ [(key, value)])

/-- Changes the table that a path leads to, and makes the tables on the way that are missing. A
path of dotted keys may not pass a table that has a header. -/
def change? (dotted : Bool) (change : Origin → Members → Option Members) :
    Origin → List String → Members → Option Members
  | origin, [], members => change origin members
  | _, key :: rest, members =>
    match members.lookup key with
    | none => do
      let origin := if dotted then .dotted else .implied
      let child ← change? dotted change origin rest []
      return members ++ [(key, .table origin child)]
    | some (.table origin child) =>
      if origin = .inline ∨ (dotted ∧ origin = .header) then none
      else do
        let child ← change? dotted change origin rest child
        return members.replace key (.table origin child)
    | some (.tables elements) =>
      match elements.getLast? with
      | none => none
      | some last => do
        let last ← change? dotted change .header rest last
        return members.replace key (.tables (elements.dropLast ++ [last]))
    | some _ => none

/-- Adds a value under a dotted key. The table that takes it is the one that the key starts from, or
one that dotted keys made. -/
def insert? (origin : Origin) (path : List String) (key : String) (value : Value)
    (members : Members) : Option Members :=
  change? true
    (fun origin members =>
      if (origin == .dotted) == path.isEmpty then none else members.add? key value)
    origin path members

/-- Opens the table of a header. -/
def open? (path : List String) (key : String) (members : Members) : Option Members :=
  change? false
    (fun _ members =>
      match members.lookup key with
      | none => some (members ++ [(key, .table .header [])])
      | some (.table .implied child) => some (members.replace key (.table .header child))
      | some _ => none)
    .header path members

/-- Opens another table of a double header. -/
def append? (path : List String) (key : String) (members : Members) : Option Members :=
  change? false
    (fun _ members =>
      match members.lookup key with
      | none => some (members ++ [(key, .tables [[]])])
      | some (.tables elements) => some (members.replace key (.tables (elements ++ [[]])))
      | some _ => none)
    .header path members

end Members

namespace Value

/-- The fields of a record, in the order of their names. A record is a table, or an array with the
fields in order. A strict record has no other keys. A date has one key, which names no field. -/
def fields? (strict : Bool) (names : List String) : Value → Option (List (Option Value))
  | table _ members =>
    if strict && members.any fun (key, _) => !names.contains key then none
    else some (names.map fun name => members.lookup name)
  | array elements => some ((List.range names.length).map fun index => elements[index]?)
  | tables elements =>
    some ((List.range names.length).map fun index => elements[index]?.map (table .header))
  | datetime => if strict then none else some (names.map fun _ => none)
  | _ => none

def elements? : Value → Option (List Value)
  | array elements => some elements
  | tables elements => some (elements.map (table .header))
  | _ => none

def string? : Value → Option String
  | string text => some text
  | _ => none

def boolean? : Value → Option Bool
  | boolean value => some value
  | _ => none

/-- A number that is not negative. -/
def natural? : Value → Option Nat
  | integer (.ofNat value) => some value
  | _ => none

def isEmpty : Value → Bool
  | array [] => true
  | table _ [] => true
  | tables [] => true
  | _ => false

def isEmptyTable : Value → Bool
  | table _ [] => true
  | _ => false

/-- The name that a value stands for: a string, or the only key of a table whose value passes a
test. -/
def name? (test : Value → Bool) : Value → Option String
  | string text => some text
  | table _ [(key, value)] => if test value then some key else none
  | _ => none

end Value

/-- A field that has a value by default. -/
def fieldOr {α : Type} (default : α) (read : Value → Option α) : Option Value → Option α
  | some value => read value
  | none => some default

def optionalField {α : Type} (read : Value → Option α) : Option Value → Option (Option α)
  | some value => (read value).map some
  | none => some none

end Toml

end SwiftTree
