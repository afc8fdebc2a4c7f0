import Phrasebook.Callback
import Phrasebook.Structural

namespace Phrasebook

/-- The left-hand side of a compiled production: the symbol it yields, the callback it fires, and
the most white space it allows between two operands. A negative gap leaves that free. -/
structure Head where
  symbol : Symbol
  callback : Callback := {}
  gap : Int8 := -1
  deriving DecidableEq, Hashable, Repr, Inhabited

namespace Head

/-- No callback and no limit on white space, so the symbol says it all. -/
def isPlain (h : Head) : Bool := h.callback == {} && h.gap < 0

/-- A left-hand side still to be placed. Without a target it takes whatever symbol fits. -/
structure Request where
  target : Option Symbol := none
  callback : Callback := {}
  gap : Int8 := -1
  deriving DecidableEq, Repr

end Head

end Phrasebook
