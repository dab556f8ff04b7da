import SwiftTree.Text.Width

/-!
# Styled text

Styles are written as terminal control sequences around a text. A sequence inside the text that
ends all styles is followed by the style again. Without colour the text stays as it is.
-/

namespace SwiftTree

inductive Style
  | bold
  | dimmed
  | red
  | green
  | yellow
  | cyan
  | boldRed
  | boldYellow
  | boldBlue
  | boldCyan
  deriving DecidableEq, Repr

namespace Style

/-- The parameters of the control sequence that begins a style. -/
def codes : Style → String
  | bold => "1"
  | dimmed => "2"
  | red => "31"
  | green => "32"
  | yellow => "33"
  | cyan => "36"
  | boldRed => "1;31"
  | boldYellow => "1;33"
  | boldBlue => "1;34"
  | boldCyan => "1;36"

/-- The control sequence that begins a style. -/
def opening (style : Style) : String :=
  "\x1b[" ++ style.codes ++ "m"

/-- The control sequence that ends all styles. -/
def reset : String :=
  "\x1b[0m"

end Style

/-- Puts an addition after each occurrence of a piece of text. A number of characters are left of
the occurrence that is being passed. -/
def insertAfterEach (piece addition : List Char) : Nat → List Char → List Char
  | _, [] => []
  | left, c :: cs =>
    let left := if left = 0 && piece.isPrefixOf (c :: cs) then piece.length else left
    if left = 1 then c :: (addition ++ insertAfterEach piece addition 0 cs)
    else c :: insertAfterEach piece addition (left - 1) cs

/-- Whether styles are wanted, by three variables of the environment: they can be forced, switched
off, or left to a terminal. A variable with the value zero counts as set to no. -/
def stylesWanted (force off automatic : Option String) (terminal : Bool) : Bool :=
  if (force.map (· != "0")).getD false then true
  else if off.isSome then false
  else (automatic.map (· != "0")).getD true && terminal

/-- A text in a style, if styles are wanted. -/
def paint (colored : Bool) (style : Style) (text : String) : String :=
  if colored then
    style.opening ++
      String.ofList
        (insertAfterEach Style.reset.toList style.opening.toList 0 text.toList) ++
      Style.reset
  else text

end SwiftTree
