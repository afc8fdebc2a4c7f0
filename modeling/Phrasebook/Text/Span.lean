namespace Phrasebook

/-- The half-open range `[start, stop)` of code points of a text. -/
structure Span where
  start : Nat
  stop : Nat
  deriving DecidableEq, Repr, Inhabited

namespace Span

def length (s : Span) : Nat := s.stop - s.start

def isEmpty (s : Span) : Bool := s.stop ≤ s.start

/-- `s.contains t` when `t` lies inside `s`, equal spans included. -/
def contains (s t : Span) : Bool := s.start ≤ t.start && t.stop ≤ s.stop

/-- Order by start, then by stop. -/
def compare (s t : Span) : Ordering :=
  (Ord.compare s.start t.start).then (Ord.compare s.stop t.stop)

/-- The characters of `text` that the span covers. A span that begins past the end of the text, or
stops before it starts, covers none. -/
def slice (s : Span) (text : Array Char) : List Char :=
  (text.extract s.start s.stop).toList

end Span

end Phrasebook
