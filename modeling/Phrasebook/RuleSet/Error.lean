import Phrasebook.Locale

namespace Phrasebook.RuleSet

/-- The sections of a compiled grammar, by the name that messages use. -/
inductive Section
  | terminals
  | strings
  | headRecords
  | headSets
  | headEntries
  | filters
  | labels
  | debugNames
  | structural
  | shards
  | shardLocales
  | exactTerminals
  | foldedTerminals
  | unaryRules
  | buckets
  | binaryRules
  deriving DecidableEq, Repr

def Section.name : Section → String
  | .terminals => "terminals"
  | .strings => "strings"
  | .headRecords => "lhs records"
  | .headSets => "lhs sets"
  | .headEntries => "lhs set entries"
  | .filters => "filters"
  | .labels => "annotations"
  | .debugNames => "debug names"
  | .structural => "predefined"
  | .shards => "shards"
  | .shardLocales => "shard locales"
  | .exactTerminals => "case sensitive terminals"
  | .foldedTerminals => "case insensitive terminals"
  | .unaryRules => "unary rules"
  | .buckets => "binary buckets"
  | .binaryRules => "binary rules"

/-- Why bytes are not a compiled grammar. -/
inductive Error
  | tooShort (size : Nat)
  | badMagic (bytes : List UInt8)
  | unsupportedVersion (version : Nat)
  | outOfBounds (part : Section) (offset length size : Nat)
  | dangling (part : Section) (index limit : Nat)
  | badString (offset : Nat)
  | badLocale (shard : Nat) (source : Locale.Error)
  deriving DecidableEq, Repr

def Error.message : Error → String
  | .tooShort size =>
    "buffer too short for a rule set header (" ++ Nat.repr size ++ " bytes)"
  | .badMagic bytes => "bad magic bytes " ++ Quoted.list (bytes.map (Nat.repr ·.toNat))
  | .unsupportedVersion version => "unsupported rule set version " ++ Nat.repr version
  | .outOfBounds part offset length size =>
    "section " ++ part.name ++ " is out of bounds (offset " ++ Nat.repr offset ++ ", length " ++
      Nat.repr length ++ ", buffer " ++ Nat.repr size ++ ")"
  | .dangling part index limit =>
    "section " ++ part.name ++ " references " ++ Nat.repr index ++ ", but only " ++
      Nat.repr limit ++ " entries exist"
  | .badString offset => "string at offset " ++ Nat.repr offset ++ " is not NUL-terminated UTF-8"
  | .badLocale shard source =>
    "shard " ++ Nat.repr shard ++ " carries an invalid locale tag: " ++ source.message

end Phrasebook.RuleSet
