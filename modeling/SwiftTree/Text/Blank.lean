/-!
# Blank characters

The Unicode property White_Space, and trimming by it. A zero width space and a byte order mark are
not blank.
-/

namespace SwiftTree.Text

/-- Whether a character has the Unicode property White_Space. -/
def isBlank (c : Char) : Bool :=
  let code := c.toNat
  (9 ≤ code && code ≤ 13) || code == 0x20 || code == 0x85 || code == 0xA0 || code == 0x1680 ||
    (0x2000 ≤ code && code ≤ 0x200A) || code == 0x2028 || code == 0x2029 || code == 0x202F ||
    code == 0x205F || code == 0x3000

def dropBlanks (cs : List Char) : List Char :=
  cs.dropWhile isBlank

def dropTrailingBlanks (cs : List Char) : List Char :=
  (cs.reverse.dropWhile isBlank).reverse

def trim (s : String) : String :=
  String.ofList (dropTrailingBlanks (dropBlanks s.toList))

def isBlankText (s : String) : Bool :=
  s.toList.all isBlank

end SwiftTree.Text
