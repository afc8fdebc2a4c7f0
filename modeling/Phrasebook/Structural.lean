namespace Phrasebook

/-- The number of a nonterminal of a compiled grammar. Numbering starts at 1; 0 is no symbol. Numbers
have 32 bits; grammars that would use them up are left out. -/
abbrev Symbol := Nat

/-- Nonterminals that the reader of a text produces on its own: the two ends of the text, pieces by
their makeup, and digit runs of a given length. -/
inductive Structural
  | start
  | stop
  | token
  | uppercaseToken
  | digits
  | digitRun (length : Nat)
  deriving DecidableEq, Repr

namespace Structural

/-- Digit runs up to this length have a symbol of their own. -/
def longestRun : Nat := 20

def name : Structural → String
  | .start => "<^>"
  | .stop => "<$>"
  | .token => "<token>"
  | .uppercaseToken => "<uppercase_token>"
  | .digits => "<digits>"
  | .digitRun n => "<" ++ (Nat.repr n) ++ "_digits>"

/-- Every structural nonterminal that a grammar can mention. -/
def all : List Structural :=
  [.start, .stop, .token, .uppercaseToken, .digits] ++
    (List.range longestRun).map fun n => .digitRun (n + 1)

def ofName? (name : String) : Option Structural := all.find? (·.name == name)

/-- The symbols that a grammar gives to the structural nonterminals, 0 where it uses none. The run
of length 0 has a place but no name. -/
structure Symbols where
  start : Symbol := 0
  stop : Symbol := 0
  token : Symbol := 0
  uppercaseToken : Symbol := 0
  digits : Symbol := 0
  runs : Vector Symbol (longestRun + 1) := Vector.replicate (longestRun + 1) 0
  deriving DecidableEq, Repr

namespace Symbols

def assign (s : Symbols) (kind : Structural) (symbol : Symbol) : Symbols :=
  match kind with
  | .start => { s with start := symbol }
  | .stop => { s with stop := symbol }
  | .token => { s with token := symbol }
  | .uppercaseToken => { s with uppercaseToken := symbol }
  | .digits => { s with digits := symbol }
  | .digitRun n => { s with runs := s.runs.setIfInBounds n symbol }

def digitRun (s : Symbols) (n : Nat) : Symbol := s.runs.getD n 0

/-- All symbols in their fixed order, digit runs last. -/
def toList (s : Symbols) : List Symbol :=
  [s.start, s.stop, s.token, s.uppercaseToken, s.digits] ++ s.runs.toList

end Symbols

end Structural

end Phrasebook
