import Phrasebook.Callback
import Phrasebook.Unicode.Blank

namespace Phrasebook

/-- An element of a right-hand side: a literal piece of text, or the nonterminal declared at a
position of the grammar. -/
inductive Element
  | literal (text : String)
  | reference (index : Nat)
  deriving DecidableEq, Hashable, Repr

/-- The settings of one rule. `gap` bounds the white space between neighbouring elements; a
negative gap leaves it free. -/
structure RuleOptions where
  callback : Callback := {}
  gap : Int8 := -1
  caseSensitive : Bool := false
  shard : Nat := 0
  deriving DecidableEq, Repr

/-- Options for a rule that reports what it finds under the number `ruleId`. -/
def RuleOptions.root (ruleId : UInt64) : RuleOptions where
  callback := ⟨Builtin.rootRule.id, ruleId⟩

/-- A production of an authored grammar, its optional elements already expanded. The match of a rule
with an excluded nonterminal is dropped where that nonterminal covers the same span. -/
structure Rule where
  lhs : Nat
  rhs : List Element
  options : RuleOptions
  excluded : Option Nat := none
  deriving DecidableEq, Repr

/-- The nonterminals that must have a symbol before the rule can be compiled. -/
def Rule.references (r : Rule) : List Nat :=
  (r.rhs.filterMap fun | .reference i => some i | .literal _ => none) ++ r.excluded.toList

/-- Characters that neither a nonterminal's name nor a literal may hold. -/
def isForbidden (c : Char) : Bool :=
  c == '<' || c == '>' || c == '?' || c == '\x00' || Unicode.isBlank c

/-- Names of nonterminals have the form `<name>`. -/
def isName : List Char → Bool
  | '<' :: rest =>
    match rest.reverse with
    | '>' :: inner => !inner.isEmpty && inner.all (!isForbidden ·)
    | _ => false
  | _ => false

/-- What is wrong with an element of a right-hand side. -/
inductive Flaw
  | empty
  | malformedReference
  | angleBracket
  | questionMark
  | nul
  | blank
  deriving DecidableEq, Repr

def Flaw.reason : Flaw → String
  | .empty => "empty element"
  | .malformedReference => "malformed nonterminal reference"
  | .angleBracket => "angle bracket inside a terminal"
  | .questionMark => "`?` inside a terminal"
  | .nul => "NUL inside a terminal"
  | .blank => "whitespace inside a terminal"

/-- An element as written: a literal or the name of a nonterminal. -/
inductive Written
  | literal (text : String)
  | name (name : String)
  deriving DecidableEq, Repr

/-- A trailing `?` marks an element as optional, unless nothing else is left. -/
def splitOptional (raw : List Char) : List Char × Bool :=
  match raw.reverse with
  | '?' :: body@(_ :: _) => (body.reverse, true)
  | _ => (raw, false)

def Written.readBody (body : List Char) : Except Flaw Written :=
  if body.head? == some '<' || body.getLast? == some '>' then
    if isName body then .ok (.name (String.ofList body)) else .error .malformedReference
  else if body.any fun c => c == '<' || c == '>' then .error .angleBracket
  else if body.any (· == '?') then .error .questionMark
  else if body.any (· == '\x00') then .error .nul
  else if body.any Unicode.isBlank then .error .blank
  else .ok (.literal (String.ofList body))

/-- Reads one element of a right-hand side, and whether it is optional. -/
def Written.read (raw : String) : Except Flaw (Written × Bool) :=
  if raw.isEmpty then .error .empty
  else
    let (body, optional) := splitOptional raw.toList
    (readBody body).map (·, optional)

end Phrasebook
