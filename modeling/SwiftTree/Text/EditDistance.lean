/-!
# Edit distance

The distance between two words is the least number of insertions, deletions, substitutions and
transpositions that turn one into the other. Transposed characters may have others inserted or
deleted between them, so the distance is a metric. The table of distances between all pairs of
beginnings is filled row by row. It stands in for the function of a library of string metrics. The
distance decides no more than which keyword is suggested for a misspelled word, and no theorem rests
on it.
-/

namespace SwiftTree.Text

/-- The greatest index below `bound` at which `c` stands. -/
def lastIndexBelow? (xs : Array Char) (bound : Nat) (c : Char) : Option Nat :=
  (List.range bound).reverse.find? fun i => xs[i]? == some c

namespace EditDistance

/-- The entry of a table for beginnings of length `i` and `j`. -/
def entry (rows : Array (Array Nat)) (i j : Nat) : Nat :=
  (rows.getD i #[]).getD j 0

/-- The cost of turning the beginnings of length `i + 1` and `j + 1` into each other by a
transposition of their last characters with earlier ones, if there are such. -/
def transposition? (a b : Array Char) (rows : Array (Array Nat)) (i j : Nat) : Option Nat := do
  let k ← lastIndexBelow? a i (← b[j]?)
  let l ← lastIndexBelow? b j (← a[i]?)
  return entry rows k l + (i - k - 1) + 1 + (j - l - 1)

/-- The next entry of the row for the beginning of length `i + 1`, given the rows above and the
entries to its left. -/
def nextEntry (a b : Array Char) (rows : Array (Array Nat)) (i : Nat) (row : Array Nat)
    (j : Nat) : Nat :=
  let substitution := entry rows i j + (if a[i]? == b[j]? then 0 else 1)
  let insertion := row.getD j 0 + 1
  let deletion := entry rows i (j + 1) + 1
  let direct := min substitution (min insertion deletion)
  match transposition? a b rows i j with
  | some cost => min direct cost
  | none => direct

/-- The row for the beginning of length `i + 1`. -/
def nextRow (a b : Array Char) (rows : Array (Array Nat)) (i : Nat) : Array Nat :=
  (List.range b.size).foldl (fun row j => row.push (nextEntry a b rows i row j)) #[i + 1]

/-- The table of distances between all pairs of beginnings. -/
def table (a b : Array Char) : Array (Array Nat) :=
  (List.range a.size).foldl (fun rows i => rows.push (nextRow a b rows i))
    #[(List.range (b.size + 1)).toArray]

end EditDistance

def editDistance (a b : String) : Nat :=
  let a := a.toList.toArray
  let b := b.toList.toArray
  EditDistance.entry (EditDistance.table a b) a.size b.size

end SwiftTree.Text
