import Phrasebook.Grammar.Basic
import Phrasebook.RuleSet.Encode

/-!
From authored rules to normal form. A rule is lowered when everything it refers to has a symbol;
sweeping over the rules repeats as long as it lowers some, and what is left then refers to itself.
-/

namespace Phrasebook.Grammar

/-- A grammar on its way to normal form, and the symbols its nonterminals have so far. -/
structure Progress where
  normal : NormalForm
  symbols : Array (Option Symbol)

namespace Progress

def symbol? (p : Progress) (index : Nat) : Option Symbol := p.symbols.getD index none

/-- Gives the nonterminal at `index` a symbol that is never merged. -/
def assign (p : Progress) (index : Nat) (name : String) : Progress × Symbol :=
  let (normal, symbol) := p.normal.addUnshareable name
  ({ normal, symbols := p.symbols.setIfInBounds index (some symbol) }, symbol)

/-- Structural nonterminals and those bound to a label have a symbol but no rules. -/
def assignGiven (g : Grammar) (p : Progress) (index : Nat) (nonterminal : Nonterminal) :
    Except Error Progress :=
  match Structural.ofName? nonterminal.name, nonterminal.label with
  | some kind, _ => do
    if !(g.rulesOf index).isEmpty then throw (.structuralWithRules nonterminal.name)
    let (p, symbol) := p.assign index nonterminal.name
    return { p with normal := p.normal.assignStructural kind symbol }
  | none, some label => do
    if !(g.rulesOf index).isEmpty then throw (.labelWithRules nonterminal.name label)
    let (p, symbol) := p.assign index nonterminal.name
    return { p with normal := p.normal.bindLabel label symbol }
  | none, none => return p

/-- Nonterminals with several rules, or with a filter, need a symbol of their own. Every nonterminal
that a rule refers to needs rules. -/
def assignOwn (g : Grammar) (p : Progress) (index : Nat) (nonterminal : Nonterminal) :
    Except Error Progress := do
  if (p.symbol? index).isSome then return p
  let rules := (g.rulesOf index).filterMap (g.rules[·]?)
  if rules.isEmpty then
    if g.rules.any (·.references.contains index) then throw (.undefined nonterminal.name)
    return p
  if rules.length > 1 || rules.any (g.filters.contains ·.options.callback.id) then
    return (p.assign index nonterminal.name).1
  return p

/-- A rule can be lowered once everything it refers to has a symbol. -/
def isReady (p : Progress) (rule : Rule) : Bool :=
  rule.references.all fun index => (p.symbol? index).isSome

def part (p : Progress) (rule : Rule) : Element → NormalForm.Part
  | .literal text => .literal text rule.options.caseSensitive
  | .reference index => .symbol ((p.symbol? index).getD 0)

/-- Adds a ready rule. A left-hand side without a symbol takes the one that the rule yields. -/
def lower (g : Grammar) (p : Progress) (rule : Rule) : Progress :=
  let callback : Callback :=
    match rule.excluded with
    | some index => ⟨rule.options.callback.id, UInt64.ofNat ((p.symbol? index).getD 0)⟩
    | none => rule.options.callback
  let request : Head.Request := ⟨p.symbol? rule.lhs, callback, rule.options.gap⟩
  let (normal, yielded) := p.normal.addRule request (rule.rhs.map (p.part rule)) rule.options.shard
  match p.symbol? rule.lhs <|> yielded with
  | none => { p with normal }
  | some symbol =>
    let name := ((g.nonterminals[rule.lhs]?).map (·.name)).getD ""
    { normal := normal.bind name symbol, symbols := p.symbols.setIfInBounds rule.lhs (some symbol) }

/-- Lowers the rules that are ready, each as its turn comes, and returns the others. -/
def sweep (g : Grammar) (p : Progress) : List Rule → Progress × List Rule
  | [] => (p, [])
  | rule :: rest =>
    if p.isReady rule then sweep g (p.lower g rule) rest
    else
      let (p, stuck) := sweep g p rest
      (p, rule :: stuck)

/-- Sweeps until nothing more gets ready. -/
def settle (g : Grammar) (p : Progress) (pending : List Rule) : Progress × List Rule :=
  let (p, stuck) := sweep g p pending
  if stuck.length < pending.length then settle g p stuck else (p, stuck)
termination_by pending.length

end Progress

/-- Runs a step for each nonterminal with its number. -/
def eachNonterminal (g : Grammar) (p : Progress)
    (step : Progress → Nat → Nonterminal → Except Error Progress) : Except Error Progress :=
  g.nonterminals.toList.zipIdx.foldlM (fun p (nonterminal, index) => step p index nonterminal) p

/-- Brings a grammar to normal form. -/
def normalize (g : Grammar) : Except Error NormalForm := do
  let p : Progress :=
    { normal := NormalForm.ofShards g.shards g.filters
      symbols := Array.replicate g.nonterminals.size none }
  let p ← g.eachNonterminal p (Progress.assignGiven g)
  let p ← g.eachNonterminal p (Progress.assignOwn g)
  match p.settle g g.rules.toList with
  | (p, []) => return p.normal
  | (_, stuck) =>
    let names := stuck.filterMap fun rule => (g.nonterminals[rule.lhs]?).map (·.name)
    throw (.unlowerable stuck.length (Std.TreeSet.ofList names).toList)

/-- A grammar ready to match, with or without the names of its symbols. -/
def compile (g : Grammar) (withNames : Bool) : Except Error RuleSet := do
  let normal ← g.normalize
  match RuleSet.compile normal withNames with
  | .ok rules => return rules
  | .error source => throw (.unverified source)

end Phrasebook.Grammar
