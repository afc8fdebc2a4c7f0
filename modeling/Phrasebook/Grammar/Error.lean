import Phrasebook.Grammar.Rule
import Phrasebook.RuleSet.Error

namespace Phrasebook.Grammar

/-- What is wrong with a grammar. -/
inductive Error
  | emptyRule (lhs : String)
  | allOptional (lhs : String)
  | invalidElement (lhs element : String) (flaw : Flaw)
  | invalidName (name : String)
  | undefined (name : String)
  | unlowerable (count : Nat) (names : List String)
  | noSuchShard (shard count : Nat)
  | labelWithRules (name label : String)
  | structuralWithRules (name : String)
  | reservedCallback (id : UInt32)
  | tooManyOptionals (lhs : String) (count limit : Nat)
  | unverified (source : RuleSet.Error)
  deriving DecidableEq, Repr

def Error.message : Error → String
  | .emptyRule lhs => "rule for " ++ lhs ++ " has an empty right-hand side"
  | .allOptional lhs =>
    "rule for " ++ lhs ++ " has only optional elements; at least one element must be mandatory"
  | .invalidElement lhs element flaw =>
    "rule for " ++ lhs ++ ": invalid element " ++ Quoted.text element ++ ": " ++ flaw.reason
  | .invalidName name =>
    "invalid nonterminal name " ++ Quoted.text name ++ " (expected `<name>`)"
  | .undefined name => "nonterminal " ++ name ++ " is referenced but never defined"
  | .unlowerable count names =>
    Nat.repr count ++ " rule(s) could not be lowered (cyclic definition through " ++
      Quoted.list (names.map Quoted.text) ++ ")"
  | .noSuchShard shard count =>
    "shard " ++ Nat.repr shard ++ " does not exist (grammar has " ++ Nat.repr count ++ " shard(s))"
  | .labelWithRules name label =>
    "nonterminal " ++ name ++ " is bound to annotation " ++ Quoted.text label ++
      " and cannot also have rules"
  | .structuralWithRules name =>
    "predefined nonterminal " ++ name ++ " is produced by the lexer and cannot have rules"
  | .reservedCallback id =>
    "callback id " ++ Nat.repr id.toNat ++ " is reserved for built-in callbacks"
  | .tooManyOptionals lhs count limit =>
    "rule for " ++ lhs ++ " has " ++ Nat.repr count ++ " optional elements (at most " ++
      Nat.repr limit ++ " allowed)"
  | .unverified source => "compiled grammar failed verification: " ++ source.message

end Phrasebook.Grammar
