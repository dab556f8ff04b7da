import SwiftTree.Script.Basic
import SwiftTree.Toml.Basic

/-!
# Scripts in TOML

A script is written as a table with its name and description and a list of steps. The operation of
a step is a table whose key `type` says which operation it is, or an array that starts with the
type. Keys that are not known are passed over.
-/

namespace SwiftTree

namespace InsertPosition

def ofToml? (value : Toml.Value) : Option InsertPosition := do
  match ← value.name? Toml.Value.isEmptyTable with
  | "before" => some before
  | "after" => some after
  | _ => none

end InsertPosition

namespace Operation

/-- The operation of some type with fields for its text and its position. -/
def ofFields? (type : String) (text position : Option Toml.Value) : Option Operation :=
  match type with
  | "replace" => do return replace (← (← text).string?)
  | "delete" => some delete
  | "insert" => do
    return insert (← (← text).string?) (← Toml.fieldOr .after InsertPosition.ofToml? position)
  | "document" => do return document (← Toml.optionalField Toml.Value.string? text)
  | _ => none

/-- The number of fields of an operation of some type. -/
def fieldCount : String → Nat
  | "replace" => 1
  | "insert" => 2
  | "document" => 1
  | _ => 0

/-- Reads an operation. In an array the fields follow the type in order, and nothing follows
them. -/
def ofToml? (value : Toml.Value) : Option Operation :=
  match value with
  | .table _ members => do
    let type ← (← members.lookup "type").string?
    ofFields? type (members.lookup "text") (members.lookup "position")
  | .array (type :: fields) => do
    let type ← type.string?
    if fieldCount type < fields.length then none else ofFields? type fields[0]? fields[1]?
  | _ => none

end Operation

namespace Step

def ofToml? (value : Toml.Value) : Option Step := do
  match ← value.fields? false ["id", "path", "declaration", "operation"] with
  | [id, path, declaration, operation] =>
    return {
      id := ← (← id).string?
      path := ← Toml.optionalField Toml.Value.string? path
      declaration := ← Toml.optionalField Toml.Value.string? declaration
      operation := ← Operation.ofToml? (← operation) }
  | _ => none

end Step

namespace Script

def headingOf? (value : Toml.Value) : Option (String × Option String) := do
  match ← value.fields? false ["name", "description"] with
  | [name, description] =>
    return (← Toml.fieldOr "" Toml.Value.string? name,
      ← Toml.optionalField Toml.Value.string? description)
  | _ => none

def stepsOf? (value : Toml.Value) : Option (List Step) := do
  (← value.elements?).mapM Step.ofToml?

def ofToml? (value : Toml.Value) : Option Script := do
  match ← value.fields? false ["meta", "steps"] with
  | [heading, steps] =>
    let (name, description) ← Toml.fieldOr ("", none) headingOf? heading
    return { name, description, steps := ← Toml.fieldOr [] stepsOf? steps }
  | _ => none

end Script

end SwiftTree
