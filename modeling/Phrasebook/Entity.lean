import Phrasebook.Bundled
import Phrasebook.Pass

namespace Phrasebook

/-- What is known about a text. -/
structure Context where
  locales : List Locale := []
  labels : List Label := []

structure Options where
  limit : Nat := Pass.defaultLimit
  useNames : Bool := true

/-- A captured part of an entity. -/
structure Entity.Part where
  id : UInt64
  span : Span
  body : String
  deriving DecidableEq, Repr

/-- Something that a root rule found in a text. -/
structure Entity where
  ruleId : UInt64
  rule : String
  body : String
  span : Span
  parts : List Entity.Part
  deriving DecidableEq, Repr

/-- A match picked out to show what the matcher saw. -/
structure Sample where
  span : Span
  symbol : String
  preview : String
  deriving DecidableEq, Repr

/-- A compiled grammar, names for its root rules, and how it cuts a text into words. -/
structure Recognizer where
  rules : RuleSet
  ruleName? : UInt64 → Option String := fun _ => none
  split : Words.Splitter := Words.split

/-- The name of a nonterminal without its angle brackets. -/
def bareName (name : String) : String :=
  String.ofList
    (((name.toList.dropWhile (· == '<')).reverse.dropWhile (· == '>')).reverse)

/-- Everything that is to be said about a text. -/
structure Analysis where
  results : List Entity
  candidates : List Entity
  shards : List Nat
  samples : List Sample
  pass : Pass
  deriving Repr

namespace Recognizer

variable (r : Recognizer)

/-- The given name of a rule, else the name of the nonterminal it derives, else its number. -/
def nameOf (options : Options) (arena : Arena) (d : Derivation) : String :=
  let debugName :=
    if options.useNames then (arena.get? d.root).bind fun m => r.rules.debugName? m.symbol else none
  match r.ruleName? d.ruleId, debugName with
  | some name, _ => name
  | none, some name => bareName name
  | none, none => "rule#" ++ Nat.repr d.ruleId.toNat

/-- The entity of a derivation whose root is in the arena. -/
def entity? (options : Options) (text : Array Char) (arena : Arena) (d : Derivation) :
    Option Entity :=
  (arena.get? d.root).map fun root =>
    { ruleId := d.ruleId
      rule := r.nameOf options arena d
      body := String.ofList (root.span.slice text)
      span := root.span
      parts := (arena.captures d).map fun c => ⟨c.id, c.span, String.ofList (c.span.slice text)⟩ }

def entities (options : Options) (text : String) (arena : Arena) (ds : List Derivation) :
    List Entity :=
  let chars := text.toList.toArray
  ds.filterMap (r.entity? options chars arena)

def setting (context : Context) (options : Options) : Setting :=
  Setting.ofRules r.rules context.locales options.limit

def tokens (text : String) : List Token := tokenize text r.split

def run (text : String) (context : Context) (options : Options) : Pass :=
  Pass.run (r.setting context options) (r.tokens text) context.labels

/-- The entities of a text. -/
def recognize (text : String) (context : Context) (options : Options) : List Entity :=
  let pass := r.run text context options
  r.entities options text pass.arena pass.derivations

/-- Longer spans first, then earlier ones. -/
def isWider (a b : Match) : Bool :=
  b.span.length < a.span.length ||
    (b.span.length == a.span.length && a.span.start ≤ b.span.start)

def sample (text : Array Char) (m : Match) : Sample where
  span := m.span
  symbol := (r.rules.debugName? m.symbol).getD ("#" ++ Nat.repr m.symbol)
  preview := String.ofList ((m.span.slice text).take 80)

/-- The widest matches of a run. -/
def samples (text : String) (arena : Arena) : List Sample :=
  let chars := text.toList.toArray
  let solid := arena.entries.toList.filter (!·.span.isEmpty)
  ((solid.mergeSort isWider).take 8).map (r.sample chars)

/-- A run with all that is to be said about it. -/
def analysisOf (text : String) (context : Context) (options : Options) (pass : Pass) :
    Analysis where
  results := r.entities options text pass.arena pass.derivations
  candidates := r.entities options text pass.arena pass.candidates
  shards := r.rules.selectShards context.locales
  samples := r.samples text pass.arena
  pass := pass

def analyse (text : String) (context : Context) (options : Options) : Analysis :=
  r.analysisOf text context options (r.run text context options)

end Recognizer

/-- The bundled grammars with the names of their rules. -/
def Bundled.recognizer : Except Grammar.Error Recognizer :=
  (Bundled.compile true).map fun rules => { rules, ruleName? := Bundled.ruleName? }

end Phrasebook
