namespace Phrasebook

/-- What a rule asks for when it fires. The id 0 asks for nothing, and a rule that carries it fires
silently. -/
structure Callback where
  id : UInt32 := 0
  param : UInt64 := 0
  deriving DecidableEq, Hashable, Repr, Inhabited

def Callback.isSilent (c : Callback) : Bool := c.id == 0

/-- The callbacks with a fixed meaning. -/
inductive Builtin
  | setType
  | assertion
  | mapping
  | exclusion
  | rootRule
  deriving DecidableEq, Repr

namespace Builtin

def id : Builtin → UInt32
  | .setType => 1
  | .assertion => 2
  | .mapping => 3
  | .exclusion => 4
  | .rootRule => 5

def ofId? : UInt32 → Option Builtin
  | 1 => some .setType
  | 2 => some .assertion
  | 3 => some .mapping
  | 4 => some .exclusion
  | 5 => some .rootRule
  | _ => none

/-- The ones that decide whether their match goes on. -/
def filters : List Builtin := [.setType, .assertion, .mapping, .exclusion]

end Builtin

end Phrasebook
