import Phrasebook.Chart.Arena

namespace Phrasebook

/-- The number of buckets of a chart. -/
def bucketCount : Nat := 256

/-- The matches that have been propagated, by where they stop. A bucket holds those whose stops
agree modulo the number of buckets, later stops first, and among equal stops the latest match
first. -/
structure Chart where
  buckets : Vector (List (Nat × MatchId)) bucketCount := Vector.replicate bucketCount []

namespace Chart

def bucketIndex (stop : Nat) : Fin bucketCount := ⟨stop % bucketCount, Nat.mod_lt _ (by decide)⟩

def bucket (c : Chart) (stop : Nat) : List (Nat × MatchId) := c.buckets.get (bucketIndex stop)

/-- Puts an entry before the first one that does not stop later. -/
def insertInto (entry : Nat × MatchId) : List (Nat × MatchId) → List (Nat × MatchId)
  | [] => [entry]
  | next :: rest =>
    if entry.1 < next.1 then next :: insertInto entry rest else entry :: next :: rest

def insert (c : Chart) (stop : Nat) (id : MatchId) : Chart where
  buckets := c.buckets.set (bucketIndex stop) (insertInto (stop, id) (c.bucket stop))

/-- The matches that stop exactly at `stop`, latest first. -/
def endingAt (c : Chart) (stop : Nat) : List MatchId :=
  (((c.bucket stop).dropWhile (stop < ·.1)).takeWhile (·.1 == stop)).map (·.2)

end Chart

end Phrasebook
