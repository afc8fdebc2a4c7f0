namespace Phrasebook.Unicode

/-- The code points `first`, `first + step`, … up to `last`, whose images are `target`,
`target + step`, and so on. -/
structure CaseRun where
  first : Nat
  last : Nat
  step : Nat
  target : Nat
  deriving Repr

/-- A mapping of code points that moves those of its runs and keeps all others. The runs ascend
and do not overlap. -/
structure CaseMap where
  runs : Array CaseRun

namespace CaseRun

def image? (run : CaseRun) (n : Nat) : Option Nat :=
  if run.first ≤ n && n ≤ run.last && (n - run.first) % run.step == 0 then
    some (run.target + (n - run.first))
  else none

end CaseRun

namespace CaseMap

/-- The first index in `[lo, hi)` of a run that starts above `n`, or `hi` when there is none. -/
def firstAbove (m : CaseMap) (n lo hi : Nat) : Nat :=
  if lo < hi then
    let mid := lo + (hi - lo) / 2
    if (m.runs[mid]?.map (·.first)).getD 0 ≤ n then m.firstAbove n (mid + 1) hi
    else m.firstAbove n lo mid
  else lo
termination_by hi - lo

def apply (m : CaseMap) (c : Char) : Char :=
  let run := m.runs[m.firstAbove c.toNat 0 m.runs.size - 1]?
  ((run.bind (·.image? c.toNat)).map Char.ofNat).getD c

end CaseMap

end Phrasebook.Unicode
