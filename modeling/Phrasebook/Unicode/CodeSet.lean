namespace Phrasebook.Unicode

/-- A set of code points, given by the ascending positions at which membership changes: `n` is a
member when an odd number of flips are at most `n`. -/
structure CodeSet where
  flips : Array Nat

namespace CodeSet

/-- The first index in `[lo, hi)` whose flip lies above `n`, or `hi` when there is none. -/
def firstAbove (s : CodeSet) (n lo hi : Nat) : Nat :=
  if lo < hi then
    let mid := lo + (hi - lo) / 2
    if s.flips.getD mid 0 ≤ n then s.firstAbove n (mid + 1) hi else s.firstAbove n lo mid
  else lo
termination_by hi - lo

def contains (s : CodeSet) (c : Char) : Bool :=
  s.firstAbove c.toNat 0 s.flips.size % 2 == 1

end CodeSet

end Phrasebook.Unicode
