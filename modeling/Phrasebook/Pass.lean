import Phrasebook.Derivation
import Phrasebook.Feed

namespace Phrasebook

/-- What a run over one text found, and what it took. -/
structure Pass where
  arena : Arena
  candidates : List Derivation
  derivations : List Derivation
  tokens : Nat
  stats : Stats
  deriving Repr

namespace Pass

/-- The default limit of the arena in bytes. -/
def defaultLimit : Nat := 0x100000

/-- Matches a text from its start to its end. -/
def session (setting : Setting) (tokens : List Token) (labels : List Label) : Session :=
  (Session.reset setting .collector {}).read setting .collector tokens labels

/-- Picks the derivations of a session that has read `tokens`. -/
def ofSession (tokens : List Token) (s : Session) : Pass where
  arena := s.arena
  candidates := s.derivations.toList
  derivations := Derivation.select s.arena s.derivations.toList
  tokens := tokens.countP (!·.isBlank)
  stats := s.stats

def run (setting : Setting) (tokens : List Token) (labels : List Label) : Pass :=
  ofSession tokens (session setting tokens labels)

end Pass

end Phrasebook
