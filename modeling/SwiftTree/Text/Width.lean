/-!
# Byte widths and byte offsets

Offsets into a text count the bytes of its UTF-8 encoding, while the text itself is handled as a
sequence of characters. This module relates the two: the width of a run of characters, splitting
at a byte offset, and the search for a piece of text or for what two texts have in common. A split
exists only at a character boundary.
-/

namespace SwiftTree.Text

/-- The number of bytes that encode a run of characters. -/
def width : List Char → Nat
  | [] => 0
  | c :: cs => c.utf8Size + width cs

@[simp] theorem width_nil : width [] = 0 := rfl

@[simp] theorem width_cons (c : Char) (cs : List Char) :
    width (c :: cs) = c.utf8Size + width cs := rfl

theorem width_append (as bs : List Char) : width (as ++ bs) = width as + width bs := by
  induction as with
  | nil => simp
  | cons c cs ih => simp [ih, Nat.add_assoc]

/-- Splits a run of characters at a byte offset. There is no split inside a character or past the
end. -/
def splitChars? (offset : Nat) : List Char → Option (List Char × List Char)
  | [] => if offset = 0 then some ([], []) else none
  | c :: cs =>
    if offset = 0 then some ([], c :: cs)
    else if offset < c.utf8Size then none
    else (splitChars? (offset - c.utf8Size) cs).map fun (before, after) => (c :: before, after)

/-- Splits a text at a byte offset, if that is a character boundary of the text. -/
def splitAt? (s : String) (offset : Nat) : Option (String × String) :=
  (splitChars? offset s.toList).map fun (before, after) =>
    (String.ofList before, String.ofList after)

/-- Cuts a text at two byte offsets, if both are character boundaries in order: what stands in front
of the first, between them, and after the second. -/
def cut? (s : String) (start stop : Nat) : Option (String × String × String) := do
  let (head, after) ← splitAt? s stop
  let (before, middle) ← splitAt? head start
  return (before, middle, after)

/-- What stands between two byte offsets, if both are character boundaries in order. -/
def between? (s : String) (start stop : Nat) : Option String :=
  (cut? s start stop).map fun parts => parts.2.1

/-- The greatest character boundary at or below a byte offset. -/
def floorBoundary (offset : Nat) : List Char → Nat
  | [] => 0
  | c :: cs =>
    if offset < c.utf8Size then 0 else c.utf8Size + floorBoundary (offset - c.utf8Size) cs

/-- The longest list that two lists begin with. -/
def commonStart {α : Type} [DecidableEq α] : List α → List α → List α
  | a :: as, b :: bs => if a = b then a :: commonStart as bs else []
  | _, _ => []

/-- The longest list that two lists end with. -/
def commonEnd {α : Type} [DecidableEq α] (as bs : List α) : List α :=
  (commonStart as.reverse bs.reverse).reverse

/-- What stands in front of the first occurrence of a piece of text. -/
def before? (piece : List Char) : List Char → Option (List Char)
  | [] => if piece.isEmpty then some [] else none
  | c :: cs =>
    if piece.isPrefixOf (c :: cs) then some [] else (before? piece cs).map (c :: ·)

/-- The byte offset at which a piece of text first occurs. -/
def find? (piece cs : List Char) : Option Nat :=
  (before? piece cs).map width

end SwiftTree.Text
