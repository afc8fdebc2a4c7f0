import Phrasebook.Structural
import Phrasebook.Text.Span

namespace Phrasebook

/-- Matches are numbered in the order in which they are made. -/
abbrev MatchId := Nat

/-- What a match carries beyond its symbol. A mapping captures its span, a negative assertion spoils
every derivation it occurs in, and a label match remembers the caller's label. -/
inductive MatchKind
  | plain
  | typed (tag : UInt64)
  | assertion (negative : Bool)
  | mapping (id : UInt64)
  | label (index : Nat)
  deriving DecidableEq, Repr, Inhabited

inductive Children
  | none
  | one (child : MatchId)
  | two (left right : MatchId)
  deriving DecidableEq, Repr, Inhabited

def Children.toList : Children → List MatchId
  | .none => []
  | .one child => [child]
  | .two left right => [left, right]

/-- A symbol recognised over a span. `offset` is where the text before the match ended, so that only
white space lies between it and the span. -/
structure Match where
  symbol : Symbol
  span : Span
  offset : Nat
  kind : MatchKind := .plain
  children : Children := .none
  deriving DecidableEq, Repr, Inhabited

/-- The white space in front of a match. -/
def Match.gap (m : Match) : Nat := m.span.start - m.offset

/-- All matches of a run. -/
structure Arena where
  entries : Array Match := #[]
  deriving DecidableEq, Repr, Inhabited

namespace Arena

/-- The bytes that a match is charged with. -/
def matchSize : Nat := 64

/-- How many matches fit below a limit in bytes. Ids have 32 bits. -/
def capacity (limit : Nat) : Nat := min (limit / matchSize) 0x100000000

def size (a : Arena) : Nat := a.entries.size

def get? (a : Arena) (id : MatchId) : Option Match := a.entries[id]?

/-- Adds a match. Its id is the size of the arena before. -/
def push (a : Arena) (m : Match) : Arena := ⟨a.entries.push m⟩

def setKind (a : Arena) (id : MatchId) (kind : MatchKind) : Arena :=
  ⟨a.entries.modify id ({ · with kind })⟩

/-- A walk under way: the matches that are still to be visited, the next one first, and those that
it has met. -/
structure Walk where
  stack : List MatchId
  met : Array MatchId := #[]

namespace Walk

/-- One round of a walk. A match makes way for its children, ids that are not in the arena are
passed over, and a walk with nothing left to visit has ended. -/
def next? (a : Arena) (w : Walk) : Option Walk :=
  match w.stack with
  | [] => none
  | id :: stack =>
    match a.get? id with
    | none => some ⟨stack, w.met⟩
    | some m => some ⟨m.children.toList ++ stack, w.met.push id⟩

/-- What a walk has met when it ends. A match that lies below itself is visited for ever. -/
def run (a : Arena) (w : Walk) : Array MatchId :=
  Id.run (repeatM (fun w => match w.next? a with
    | none => .inr w.met
    | some next => .inl next) w)

end Walk

/-- The ids of the tree below a match in preorder. -/
def walk (a : Arena) (root : MatchId) : List MatchId := (Walk.run a { stack := [root] }).toList

end Arena

end Phrasebook
