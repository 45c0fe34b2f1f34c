/-!
# Sets of code points

A set of code points is kept as its runs in ascending order. A search for a
character goes through the runs up to the first one that does not end before it.
-/

namespace CheckedLists

/-- Whether each run `(first, last)` starts at `low` or later, is not empty, and
leaves a gap before the next one. -/
def runsAscend (low : Nat) : List (Nat × Nat) → Bool
  | [] => true
  | (first, last) :: rest =>
    if low ≤ first ∧ first ≤ last then runsAscend (last + 2) rest else false

/-- A set of code points. -/
structure CodePoints where
  /-- The runs `(first, last)` of the set, both ends included. -/
  runs : List (Nat × Nat)
  /-- Runs are in order and do not touch, so that a set has one list of runs. -/
  ascend : runsAscend 0 runs = true := by decide +kernel

namespace CodePoints

/-- The search for a number in ascending runs: the first run that does not end
before it decides. -/
def searchRuns (n : Nat) : List (Nat × Nat) → Bool
  | [] => false
  | (first, last) :: rest => if n ≤ last then decide (first ≤ n) else searchRuns n rest

/-- Whether a character is in the set. -/
def contains (s : CodePoints) (c : Char) : Bool := searchRuns c.toNat s.runs

/-- How many code points are in the set. -/
def size (s : CodePoints) : Nat := s.runs.foldl (fun n r => n + (r.2 - r.1 + 1)) 0

end CodePoints

end CheckedLists
