import SwiftTree.Text.EditDistance
import SwiftTree.Token.Kind

/-!
# Misspelled keywords

An identifier that stands where a declaration should is compared with the keywords that introduce
one. The longer the word, the more edits are allowed.
-/

namespace SwiftTree.Grammar

/-- The number of edits allowed in a word of some length; short words are never corrected. -/
def allowedEdits (length : Nat) : Nat :=
  if length ≤ 3 then 0 else if length = 4 then 1 else 2

/-- The first of the pairs with the least number. -/
def firstLeast? : List (String × Nat) → Option (String × Nat)
  | [] => none
  | pair :: rest =>
    match firstLeast? rest with
    | some other => if other.2 < pair.2 then some other else some pair
    | none => some pair

/-- The keywords whose length is within the allowed edits of a word. An edit changes the length by
one at most, so no other keyword can be near enough. -/
def keywordsOfLengthNear (word : String) : List String :=
  let edits := allowedEdits word.length
  declarationKeywords.filter fun keyword =>
    word.length ≤ keyword.length + edits && keyword.length ≤ word.length + edits

/-- The declaration keyword that a word is a misspelling of. -/
def suggestKeyword? (word : String) : Option String :=
  let distances := (keywordsOfLengthNear word).map fun keyword =>
    (keyword, Text.editDistance word keyword)
  let near := distances.filter fun (_, distance) =>
    0 < distance && distance ≤ allowedEdits word.length
  (firstLeast? near).map Prod.fst

end SwiftTree.Grammar
