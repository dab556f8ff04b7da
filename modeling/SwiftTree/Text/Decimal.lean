/-!
# Decimal numbers
-/

namespace SwiftTree.Text

/-- The number that a non-empty run of digits denotes. Leading zeros do not matter. -/
def decimal? (digits : List Char) : Option Nat :=
  if !digits.isEmpty && digits.all Char.isDigit then some (Nat.ofDigitChars 10 digits 0) else none

end SwiftTree.Text
