import Phrasebook.Session.Basic

namespace Phrasebook

/-- A captured span and the number it is captured under. -/
structure Capture where
  id : UInt64
  span : Span
  deriving DecidableEq, Repr

/-- What a match captures. -/
def Match.capture? (m : Match) : Option Capture :=
  match m.kind with
  | .mapping id => some ⟨id, m.span⟩
  | _ => none

namespace Arena

/-- The span of a derivation, empty when its root is not in the arena. -/
def spanOf (a : Arena) (d : Derivation) : Span :=
  ((a.get? d.root).map (·.span)).getD ⟨0, 0⟩

/-- The matches of a derivation in the order of a walk through its tree. -/
def visited (a : Arena) (d : Derivation) : List Match := (a.walk d.root).filterMap a.get?

/-- A derivation is valid unless a negative assertion occurs in it. -/
def isValid (a : Arena) (d : Derivation) : Bool :=
  !(a.visited d).any (·.kind == .assertion true)

/-- The mappings of a derivation, in tree order. -/
def captures (a : Arena) (d : Derivation) : List Capture := (a.visited d).filterMap Match.capture?

end Arena

namespace Derivation

/-- By rule, then by start, then longer spans first. -/
def precedes (a b : Derivation × Span) : Bool :=
  let order := (compare a.1.ruleId b.1.ruleId).then
    ((compare a.2.start b.2.start).then (compare b.2.stop a.2.stop))
  order != .gt

/-- Drops what does not reach past `reach`, the furthest stop of its rule so far. -/
def widest (reach : Option (UInt64 × Nat)) : List (Derivation × Span) → List Derivation
  | [] => []
  | (d, span) :: rest =>
    if reach.any fun (ruleId, stop) => ruleId == d.ruleId && span.stop ≤ stop then
      widest reach rest
    else d :: widest (some (d.ruleId, span.stop)) rest

/-- For each rule the derivations that lie in no earlier one, by rule and start. Of equal spans the
first found stays. -/
def deduplicate (a : Arena) (ds : List Derivation) : List Derivation :=
  widest none ((ds.map fun d => (d, a.spanOf d)).mergeSort precedes)

/-- The valid ones among the widest. A wide derivation shadows a narrow one even if it turns out not
to be valid. -/
def select (a : Arena) (ds : List Derivation) : List Derivation :=
  (deduplicate a ds).filter a.isValid

end Derivation

end Phrasebook
