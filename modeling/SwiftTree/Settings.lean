import SwiftTree.Report
import SwiftTree.Script.Basic
import SwiftTree.Toml.Basic

/-!
# Settings

The settings say how diagnostics are turned into records, which replacements are allowed and in
which form a report is printed. Each of them has a value by default, and a key that is not known is
refused, so that a misspelled one does not go unnoticed.
-/

namespace SwiftTree

/-- What a user can configure. -/
structure Settings where
  records : RecordOptions := {}
  policy : ReplacementPolicy := {}
  format : OutputFormat := .text
  deriving DecidableEq, Repr

namespace Settings

/-- The largest number of lines that may be shown on each side of a reported one. -/
def maxRadius : Nat := 10

def recordsOf? (value : Toml.Value) : Option RecordOptions := do
  match ← value.fields? true ["context_radius", "reposition_unexpected_code"] with
  | [radius, reposition] =>
    return {
      radius := ← Toml.fieldOr 1 Toml.Value.natural? radius
      reposition := ← Toml.fieldOr true Toml.Value.boolean? reposition }
  | _ => none

def policyOf? (value : Toml.Value) : Option ReplacementPolicy := do
  match ← value.fields? true ["allow_item_swap"] with
  | [swap] => return { allowItemSwap := ← Toml.fieldOr true Toml.Value.boolean? swap }
  | _ => none

def formatOf? (value : Toml.Value) : Option OutputFormat := do
  (OutputFormat.ofName (← value.name? Toml.Value.isEmpty)).toOption

def outputOf? (value : Toml.Value) : Option OutputFormat := do
  match ← value.fields? true ["format"] with
  | [format] => Toml.fieldOr .text formatOf? format
  | _ => none

def ofToml? (value : Toml.Value) : Option Settings := do
  match ← value.fields? true ["diagnostics", "mutation", "output"] with
  | [diagnostics, mutation, output] =>
    return {
      records := ← Toml.fieldOr {} recordsOf? diagnostics
      policy := ← Toml.fieldOr {} policyOf? mutation
      format := ← Toml.fieldOr .text outputOf? output }
  | _ => none

def issues (settings : Settings) : List ValidationIssue :=
  if maxRadius < settings.records.radius then
    [.outOfRange "diagnostics.context_radius"
      (toString settings.records.radius ++ " exceeds the maximum of " ++ toString maxRadius)]
  else []

end Settings

end SwiftTree
