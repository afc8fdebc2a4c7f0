import Phrasebook.Grammar.Error
import Phrasebook.Grammar.Variants
import Std.Data.TreeSet

namespace Phrasebook

/-- A declared nonterminal. One that is bound to a label stands for the spans that the caller marks
with that label. -/
structure Nonterminal where
  name : String
  label : Option String := none
  deriving DecidableEq, Repr

/-- A grammar as its author declares it. Nonterminals and rules are numbered in the order of their
declaration; `lists` holds the numbers of each nonterminal's rules. -/
structure Grammar where
  shards : List (List Locale)
  nonterminals : Array Nonterminal := #[]
  rules : Array Rule := #[]
  lists : Array (List Nat) := #[]
  filters : Std.TreeSet UInt32 := Std.TreeSet.ofList (Builtin.filters.map Builtin.id)

namespace Grammar

/-- A grammar with one shard for each list of locales, and one for all texts if there is none. -/
def ofShards (shards : List (List Locale)) : Grammar where
  shards := if shards.isEmpty then [[]] else shards

/-- The numbers of a nonterminal's rules. -/
def rulesOf (g : Grammar) (index : Nat) : List Nat := g.lists.getD index []

/-- A declaration. What it registered before it failed stays. -/
abbrev Declare := EStateM Error Grammar

/-- The number of a nonterminal, declared now if it is new. -/
def nonterminal (name : String) : Declare Nat := do
  let g ← get
  match g.nonterminals.findIdx? (·.name == name) with
  | some index => return index
  | none =>
    if !isName name.toList then throw (.invalidName name)
    set { g with nonterminals := g.nonterminals.push { name }, lists := g.lists.push [] }
    return g.nonterminals.size

/-- Makes `callback` a filter: its matches go on only if the callback says so. -/
def filter (callback : UInt32) : Declare Unit := do
  if callback == 0 || callback == Builtin.rootRule.id then throw (.reservedCallback callback)
  modify fun g => { g with filters := g.filters.insert callback }

/-- Lets a nonterminal stand for the spans labelled `label`. -/
def bindLabel (label name : String) : Declare Unit := do
  let index ← nonterminal name
  modify fun g =>
    { g with
      nonterminals := g.nonterminals.modify index ({ · with label := some label }) }

/-- An element of a rule for `lhs`, and whether it is optional. -/
def element (lhs raw : String) : Declare (Element × Bool) := do
  match Written.read raw with
  | .error flaw => throw (.invalidElement lhs raw flaw)
  | .ok (.literal text, optional) => return (.literal text, optional)
  | .ok (.name name, optional) => return (.reference (← nonterminal name), optional)

/-- More optional elements would make too many variants. -/
def maxOptionals : Nat := 12

/-- Adds one rule for each way to leave out optional elements. -/
def addRule (lhs : String) (rhs : List String) (options : RuleOptions) (excluded : Option Nat) :
    Declare Unit := do
  let shards := (← get).shards.length
  if options.shard ≥ shards then throw (.noSuchShard options.shard shards)
  let index ← nonterminal lhs
  if rhs.isEmpty then throw (.emptyRule lhs)
  let elements ← rhs.mapM (element lhs)
  let optionals := elements.countP (·.2)
  if optionals == elements.length then throw (.allOptional lhs)
  if optionals > maxOptionals then throw (.tooManyOptionals lhs optionals maxOptionals)
  let rules : List Rule :=
    (distinct (variants elements)).map fun rhs => { lhs := index, rhs, options, excluded }
  modify fun g =>
    { g with
      rules := g.rules ++ rules
      lists := g.lists.modify index (· ++ List.range' g.rules.size rules.length) }

def add (lhs : String) (rhs : List String) (options : RuleOptions) : Declare Unit :=
  addRule lhs rhs options none

/-- A rule whose match is asserted to be there or, if `negative`, not to be there. -/
def addAssertion (lhs : String) (rhs : List String) (negative : Bool) (options : RuleOptions) :
    Declare Unit :=
  addRule lhs rhs
    { options with callback := ⟨Builtin.assertion.id, if negative then 1 else 0⟩ } none

/-- A rule whose match is captured under `value`. -/
def addMapping (lhs : String) (rhs : List String) (value : UInt64) (options : RuleOptions) :
    Declare Unit :=
  addRule lhs rhs { options with callback := ⟨Builtin.mapping.id, value⟩ } none

/-- A rule whose match is tagged with a type. -/
def addTyped (lhs : String) (rhs : List String) (tag : UInt64) (options : RuleOptions) :
    Declare Unit :=
  addRule lhs rhs { options with callback := ⟨Builtin.setType.id, tag⟩ } none

/-- A rule that matches only where `excluded` does not cover the same span. -/
def addExclusion (lhs : String) (rhs : List String) (excluded : String) (options : RuleOptions) :
    Declare Unit := do
  let index ← nonterminal excluded
  addRule lhs rhs { options with callback := ⟨Builtin.exclusion.id, 0⟩ } (some index)

end Grammar

end Phrasebook
