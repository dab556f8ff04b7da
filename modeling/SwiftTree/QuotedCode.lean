import SwiftTree.Text.Width

/-!
# Code quoted in messages

Code that was set aside is reported where its trivia begins, which may be a line above the code.
The message quotes the code, so the place to show is found by searching the text for the quotation.
Only messages about unexpected code are treated in this way.
-/

namespace SwiftTree

/-- How a message begins that quotes unexpected code. -/
def quotationStart : List Char :=
  "unexpected code '".toList

/-- The code that a message about unexpected code quotes. The quotation ends at the first quote in
front of a blank, or else with the message. -/
def quotedCode? (message : String) : Option String := do
  let chars := message.toList
  guard (quotationStart.isPrefixOf chars)
  let rest := chars.drop quotationStart.length
  let quoted ←
    match Text.before? ['\'', ' '] rest with
    | some quoted => some quoted
    | none => if rest.getLast? = some '\'' then some rest.dropLast else none
  guard (!quoted.isEmpty)
  return String.ofList quoted

/-- Where the code quoted in a message first occurs at or after both the reported offset and
another one; none if that is the reported offset itself. The other offset is where the text of the
node begins, which keeps the search out of comments in front of it. -/
def correctedOffset? (text : String) (reported notBefore : Nat) (message : String) :
    Option Nat := do
  let quoted ← quotedCode? message
  let start := Text.floorBoundary (max reported notBefore) text.toList
  let (_, rest) ← Text.splitAt? text start
  let found := start + (← Text.find? quoted.toList rest.toList)
  if found = reported then none else some found

end SwiftTree
