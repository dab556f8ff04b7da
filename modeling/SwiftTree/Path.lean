import SwiftTree.Text.Decimal

/-!
# Paths

A path is a list of numbers, counted from 1 and written with dots between them. It addresses a node
of a tree in one of two schemes: a token by its number in the text, or a declaration by its number
among the declarations of its parent, of that one's parent, and so on.
-/

namespace SwiftTree

/-- The numbers of a path. There is at least one, and each counts from 1. -/
structure Path where
  segments : List Nat
  nonempty : segments ≠ []
  positive : 0 ∉ segments
  deriving DecidableEq, Repr

namespace Path

/-- The path with these numbers, unless there are none or one of them is zero. -/
def ofList? (segments : List Nat) : Option Path :=
  if h : segments ≠ [] ∧ 0 ∉ segments then some ⟨segments, h.1, h.2⟩ else none

/-- Numbers make a path only if they are the numbers of that path. -/
theorem ofList?_eq_some_iff {segments : List Nat} {path : Path} :
    ofList? segments = some path ↔ segments = path.segments := by
  constructor
  · intro h
    unfold ofList? at h
    split at h
    · cases h
      rfl
    · cases h
  · rintro rfl
    exact dif_pos ⟨path.nonempty, path.positive⟩

/-- One more than the greatest number in a path. -/
def limit : Nat :=
  UInt64.size

/-- The number that a segment of a path denotes. -/
def segment? (digits : List Char) : Option Nat :=
  (Text.decimal? digits).filter fun number => 0 < number && number < limit

def ofString? (text : String) : Option Path :=
  ((text.toList.splitOn '.').mapM segment?).bind ofList?

def text (path : Path) : String :=
  ".".intercalate (path.segments.map toString)

end Path

/-- What the numbers of a path count. -/
inductive Scheme
  /-- Declarations, each level among the declarations of its parent. -/
  | declaration
  /-- Tokens, all in one sequence. -/
  | token
  deriving DecidableEq, Repr

namespace Scheme

def name : Scheme → String
  | declaration => "declaration"
  | token => "token"

end Scheme

/-- A path together with what its numbers count. -/
structure Address where
  scheme : Scheme
  path : Path
  deriving DecidableEq, Repr

namespace Address

def text (address : Address) : String :=
  address.scheme.name ++ " path " ++ address.path.text

end Address

end SwiftTree
