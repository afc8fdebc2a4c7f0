import Phrasebook.Callback
import Phrasebook.Chart.Basic
import Phrasebook.RuleSet.Basic

namespace Phrasebook

/-- A root rule that fired: the rule's number and its match. -/
structure Derivation where
  ruleId : UInt64
  root : MatchId
  deriving DecidableEq, Repr, Inhabited

inductive Phase
  | idle
  | processing
  deriving DecidableEq, Repr

structure Stats where
  allocated : Nat := 0
  dropped : Nat := 0
  callbacks : Nat := 0
  terminals : Nat := 0
  deriving DecidableEq, Repr

/-- What happens during callbacks: one is fired, or a built-in one says whether it was handled. -/
inductive Event
  | fired (callback : Callback) (id : MatchId) (phase : Phase)
  | handled (answer : Bool)
  deriving DecidableEq, Repr

/-- What stays fixed while a text is matched. -/
structure Setting where
  rules : RuleSet
  shards : List Nat
  capacity : Nat

/-- The shards that support `locales`, and as many matches as fit below `limit` bytes. -/
def Setting.ofRules (rules : RuleSet) (locales : List Locale) (limit : Nat) : Setting where
  rules := rules
  shards := rules.selectShards locales
  capacity := Arena.capacity limit

/-- The state of matching. `pending` are the matches still to be propagated, next one first;
`derivations` and `log` record callbacks in order. -/
structure Session where
  arena : Arena := {}
  chart : Chart := {}
  pending : List MatchId := []
  phase : Phase := .idle
  stats : Stats := {}
  derivations : Array Derivation := #[]
  log : Array Event := #[]

namespace Session

/-- Stores a match without propagating it, or drops it when the arena is full. -/
def allocate (s : Session) (capacity : Nat) (m : Match) : Session × Option MatchId :=
  let id := s.arena.size
  if id < capacity then
    ({ s with
        arena := s.arena.push m
        stats := { s.stats with allocated := s.stats.allocated + 1 } }, some id)
  else ({ s with stats := { s.stats with dropped := s.stats.dropped + 1 } }, none)

def enqueue (s : Session) (id : MatchId) : Session := { s with pending := id :: s.pending }

def setKind (s : Session) (id : MatchId) (kind : MatchKind) : Session :=
  { s with arena := s.arena.setKind id kind }

end Session

/-- How callbacks are answered. An answer may add matches but never takes any away. -/
structure Handler where
  react : Session → MatchId → Callback → Session
  grows : ∀ s id callback, s.arena.size ≤ (react s id callback).arena.size

end Phrasebook
