import Phrasebook.Head
import Phrasebook.Locale
import Phrasebook.Text.Lowercase
import Std.Data.TreeMap
import Std.Data.TreeSet

/-!
Grammars in normal form. Every production has a literal, one symbol or two symbols on the right, so
matching never looks at more than two neighbours. Productions with equal right-hand sides are kept
together, and a symbol that nobody has named may stand for several of them.
-/

namespace Phrasebook

/-- Pairs of symbols by the first, then by the second. -/
def pairOrder (a b : Symbol × Symbol) : Ordering := (compare a.1 b.1).then (compare a.2 b.2)

instance : Std.TransCmp pairOrder :=
  inferInstanceAs (Std.TransCmp (compareLex (compareOn Prod.fst) (compareOn Prod.snd)))

instance : Std.LawfulEqCmp pairOrder where
  compare_self := by simp [pairOrder]
  eq_of_compare {a b} h := by
    simp only [pairOrder, Ordering.then_eq_eq, Nat.compare_eq_eq] at h
    exact Prod.ext h.1 h.2

/-- The productions of one shard, by right-hand side. Literals that ignore case are kept in lower
case. -/
structure Tables where
  exact : Std.TreeMap String (List Head) := ∅
  folded : Std.TreeMap String (List Head) := ∅
  unary : Std.TreeMap Symbol (List Head) := ∅
  binary : Std.TreeMap (Symbol × Symbol) (List Head) pairOrder := ∅
  deriving Inhabited

/-- A part of a grammar that runs for texts in certain locales. -/
structure Shard where
  locales : List Locale := []
  tables : Tables := {}
  deriving Inhabited

/-- The symbols handed out so far. A name always means the first symbol it was bound to, and a
symbol shows the first name it was given. -/
structure Numbering where
  last : Symbol := 0
  unshareable : Std.TreeSet Symbol := ∅
  names : Std.TreeMap Symbol String := ∅
  byName : Std.TreeMap String Symbol := ∅

namespace Numbering

def fresh (n : Numbering) : Numbering × Symbol := ({ n with last := n.last + 1 }, n.last + 1)

def bind (n : Numbering) (name : String) (symbol : Symbol) : Numbering :=
  if name.isEmpty then n
  else
    { n with
      names := n.names.insertIfNew symbol name
      byName := n.byName.insertIfNew name symbol }

end Numbering

/-- A grammar whose productions have a literal, one symbol or two symbols on the right. Each
right-hand side maps to the heads that fire on it. -/
structure NormalForm where
  shards : Array Shard
  filters : Std.TreeSet UInt32
  numbering : Numbering := {}
  structural : Structural.Symbols := {}
  labels : Std.TreeMap String Symbol := ∅

/-- Where a request ends up among the heads of a production. -/
inductive Placement
  | shared (heads : List Head) (symbol : Symbol)
  | appended (symbol : Option Symbol)

namespace Placement

def skip (head : Head) : Placement → Placement
  | .shared heads symbol => .shared (head :: heads) symbol
  | .appended symbol => .appended symbol

/-- Looks for a head that can stand for `request`. A head that has been given a name of its own, or
that a filter watches, stands for no other; a silent head takes over the callback of the request.
`symbol` is the symbol to append under if no head is found. -/
def find (isOwn : Symbol → Bool) (isFilter : Callback → Bool) (request : Head.Request)
    (symbol : Option Symbol) : List Head → Placement
  | [] => .appended symbol
  | head :: rest =>
    if request.target == some head.symbol && head.callback == request.callback &&
        head.gap == request.gap then
      .shared (head :: rest) head.symbol
    else if isOwn head.symbol || request.target.any isOwn || head.gap != request.gap ||
        isFilter request.callback || isFilter head.callback ||
        request.target.any (· != head.symbol) then
      skip head (find isOwn isFilter request symbol rest)
    else if request.callback == head.callback || request.callback.isSilent then
      .shared (head :: rest) head.symbol
    else if head.callback.isSilent then
      .shared ({ head with callback := request.callback } :: rest) head.symbol
    else skip head (find isOwn isFilter request (some head.symbol) rest)

end Placement

namespace NormalForm

def ofShards (locales : List (List Locale)) (filters : Std.TreeSet UInt32) : NormalForm where
  shards := (locales.map fun tags => { locales := tags }).toArray
  filters := filters

def isFilter (n : NormalForm) (c : Callback) : Bool := !c.isSilent && n.filters.contains c.id

def isUnshareable (n : NormalForm) (symbol : Symbol) : Bool :=
  n.numbering.unshareable.contains symbol

def symbolCount (n : NormalForm) : Nat := n.numbering.last

/-- The symbol that a name stands for. -/
def symbol? (n : NormalForm) (name : String) : Option Symbol := n.numbering.byName[name]?

def nameOf? (n : NormalForm) (symbol : Symbol) : Option String := n.numbering.names[symbol]?

def bind (n : NormalForm) (name : String) (symbol : Symbol) : NormalForm :=
  { n with numbering := n.numbering.bind name symbol }

/-- A new symbol that other productions may share. -/
def addSymbol (n : NormalForm) (name : String) : NormalForm × Symbol :=
  let (numbering, symbol) := n.numbering.fresh
  ({ n with numbering := numbering.bind name symbol }, symbol)

/-- A new symbol that is never merged with another. -/
def addUnshareable (n : NormalForm) (name : String) : NormalForm × Symbol :=
  let (n, symbol) := n.addSymbol name
  let numbering := { n.numbering with unshareable := n.numbering.unshareable.insert symbol }
  ({ n with numbering := numbering }, symbol)

def assignStructural (n : NormalForm) (kind : Structural) (symbol : Symbol) : NormalForm :=
  { n with structural := n.structural.assign kind symbol }

def bindLabel (n : NormalForm) (label : String) (symbol : Symbol) : NormalForm :=
  { n with labels := n.labels.insert label symbol }

/-- Places `request` among `heads`. Returns the heads after that and the symbol that now stands for
the request. -/
def place (n : NormalForm) (request : Head.Request) (heads : List Head) :
    Numbering × List Head × Symbol :=
  match Placement.find n.isUnshareable n.isFilter request request.target heads with
  | .shared heads symbol => (n.numbering, heads, symbol)
  | .appended (some symbol) =>
    (n.numbering, heads ++ [⟨symbol, request.callback, request.gap⟩], symbol)
  | .appended none =>
    let (numbering, symbol) := n.numbering.fresh
    (numbering, heads ++ [⟨symbol, request.callback, request.gap⟩], symbol)

/-- Places `request` among the heads that `read` finds in the tables of a shard, and has `write` put
them back. -/
def update (n : NormalForm) (request : Head.Request) (shard : Nat) (read : Tables → List Head)
    (write : Tables → List Head → Tables) : NormalForm × Symbol :=
  let heads := ((n.shards[shard]?).map (read ·.tables)).getD []
  let (numbering, heads, symbol) := n.place request heads
  let shards := n.shards.modify shard fun s => { s with tables := write s.tables heads }
  ({ n with numbering := numbering, shards := shards }, symbol)

def addLiteral (n : NormalForm) (request : Head.Request) (text : String) (caseSensitive : Bool)
    (shard : Nat) : NormalForm × Symbol :=
  if caseSensitive then
    n.update request shard (·.exact.getD text [])
      fun t heads => { t with exact := t.exact.insert text heads }
  else
    let folded := Lowercase.text text
    n.update request shard (·.folded.getD folded [])
      fun t heads => { t with folded := t.folded.insert folded heads }

/-- A request that asks neither for a symbol nor for a callback is met by the operand itself. -/
def addUnary (n : NormalForm) (request : Head.Request) (operand : Symbol) (shard : Nat) :
    NormalForm × Symbol :=
  if request.target.isNone && request.callback.isSilent then (n, operand)
  else
    n.update request shard (·.unary.getD operand [])
      fun t heads => { t with unary := t.unary.insert operand heads }

def addBinary (n : NormalForm) (request : Head.Request) (left right : Symbol) (shard : Nat) :
    NormalForm × Symbol :=
  n.update request shard (·.binary.getD (left, right) [])
    fun t heads => { t with binary := t.binary.insert (left, right) heads }

/-- An element of a right-hand side once its symbol is known. -/
inductive Part
  | literal (text : String) (caseSensitive : Bool)
  | symbol (symbol : Symbol)

/-- A symbol for a part: literals get an anonymous one. -/
def addPart (n : NormalForm) (part : Part) (shard : Nat) : NormalForm × Symbol :=
  match part with
  | .literal text caseSensitive => n.addLiteral {} text caseSensitive shard
  | .symbol symbol => (n, symbol)

def addParts (n : NormalForm) (shard : Nat) : List Part → NormalForm × List Symbol
  | [] => (n, [])
  | part :: rest =>
    let (n, symbol) := n.addPart part shard
    let (n, symbols) := n.addParts shard rest
    (n, symbol :: symbols)

/-- Joins `prev` with the symbols after it, two at a time from the left. The symbols in between
inherit the gap, so that it holds between all neighbours. -/
def addChain (n : NormalForm) (request : Head.Request) (shard : Nat) (prev : Symbol) :
    List Symbol → NormalForm × Symbol
  | [] => (n, prev)
  | [last] => n.addBinary request prev last shard
  | next :: rest =>
    let (n, joined) := n.addBinary { gap := request.gap } prev next shard
    n.addChain request shard joined rest

/-- Adds a production of any length and returns the symbol that stands for its left-hand side. An
empty right-hand side adds nothing. -/
def addRule (n : NormalForm) (request : Head.Request) (rhs : List Part) (shard : Nat) :
    NormalForm × Option Symbol :=
  match rhs with
  | [] => (n, none)
  | [.literal text caseSensitive] =>
    let (n, symbol) := n.addLiteral request text caseSensitive shard
    (n, some symbol)
  | [.symbol operand] =>
    let (n, symbol) := n.addUnary request operand shard
    (n, some symbol)
  | parts =>
    match n.addParts shard parts with
    | (n, []) => (n, none)
    | (n, first :: rest) =>
      let (n, symbol) := n.addChain request shard first rest
      (n, some symbol)

end NormalForm

end Phrasebook
