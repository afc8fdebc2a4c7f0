import Phrasebook.Head
import Phrasebook.RuleSet.Layout

namespace Phrasebook

/-- A compiled grammar: bytes that passed verification, with their layout. -/
structure RuleSet where
  buffer : Array UInt8
  layout : RuleSet.Layout
  deriving Repr

namespace RuleSet

def ofBytes (buffer : Array UInt8) : Except Error RuleSet :=
  (Layout.verify buffer).map fun layout => { buffer, layout }

/-- The bucket of a pair of symbols: the upper half of a product, cut to the number of buckets. -/
def bucketOf (left right : Symbol) (count : Nat) : Nat :=
  let key := (UInt64.ofNat left <<< 32) ||| UInt64.ofNat right
  ((key * 0x9e3779b97f4a7c15) >>> 32).toNat % count

/-- The record in `[lo, hi)` of a sorted table on which `order` finds equality. `order` compares the
record at an offset with what is sought. -/
def search (table : Table) (width : Nat) (order : Nat → Option Ordering) (lo hi : Nat) :
    Option Nat :=
  if lo < hi then
    let mid := lo + (hi - lo) / 2
    let offset := table.offset + mid * width
    match order offset with
    | none => none
    | some .lt => search table width order (mid + 1) hi
    | some .gt => search table width order lo mid
    | some .eq => some offset
  else none
termination_by hi - lo

variable (r : RuleSet)

def wordAt? (offset : Nat) : Option Nat := Buffer.wordAt? r.buffer offset

def terminal? (offset : Nat) : Option String := poolText? r.buffer r.layout.terminals offset

def string? (offset : Nat) : Option String := poolText? r.buffer r.layout.strings offset

/-- Searches a table whose records open with a number. -/
def searchWord (table : Table) (width key : Nat) : Option Nat :=
  search table width (fun offset => (r.wordAt? offset).map (compare · key)) 0 table.count

/-- Searches a table whose records open with the offset of a text. -/
def searchText (table : Table) (text? : Nat → Option String) (key : String) : Option Nat :=
  search table 8 (fun offset => ((r.wordAt? offset).bind text?).map (compare · key)) 0 table.count

def shardCount : Nat := r.layout.shards.length

def shard? (shard : Nat) : Option ShardLayout := r.layout.shards[shard]?

def shardLocales (shard : Nat) : List Locale := ((r.shard? shard).map (·.locales)).getD []

/-- The shards that take part for texts in the given locales, in order. -/
def selectShards (texts : List Locale) : List Nat :=
  (List.range r.shardCount).filter fun shard => Locale.anySupports (r.shardLocales shard) texts

def isFilter (callback : UInt32) : Bool :=
  (r.searchWord r.layout.filters 4 callback.toNat).isSome

def label? (name : String) : Option Symbol :=
  (r.searchText r.layout.labels r.string? name).bind fun offset => r.wordAt? (offset + 4)

/-- The name of a symbol, where names were kept. -/
def debugName? (symbol : Symbol) : Option String := do
  let offset ← r.searchWord r.layout.names 8 symbol
  r.string? (← r.wordAt? (offset + 4))

/-- The head set of a literal. A text sought without regard to case must be in lower case. -/
def findTerminal (shard : Nat) (text : String) (caseSensitive : Bool) : Option Nat := do
  let layout ← r.shard? shard
  let table := if caseSensitive then layout.exact else layout.folded
  let offset ← r.searchText table r.terminal? text
  r.wordAt? (offset + 4)

def findUnary (shard : Nat) (operand : Symbol) : Option Nat := do
  let layout ← r.shard? shard
  let offset ← r.searchWord layout.unary 8 operand
  r.wordAt? (offset + 4)

/-- The head set of the pair, sought among `count` records from number `i` on. -/
def findPair (binary : Table) (left right : Symbol) (i : Nat) : (count : Nat) → Option Nat
  | 0 => none
  | count + 1 =>
    let offset := binary.offset + i * 12
    if r.wordAt? offset == some left && r.wordAt? (offset + 4) == some right then
      match r.wordAt? (offset + 8) with
      | some set => some set
      | none => findPair binary left right (i + 1) count
    else findPair binary left right (i + 1) count

def findBinary (shard : Nat) (left right : Symbol) : Option Nat := do
  let layout ← r.shard? shard
  if layout.binary.count = 0 then none
  else
    let bucket := layout.buckets.offset + bucketOf left right layout.buckets.count * 8
    let start ← r.wordAt? bucket
    let count ← r.wordAt? (bucket + 4)
    r.findPair layout.binary left right start count

/-- The head of an entry. Records hold gaps in four bytes; what does not fit is brought to the
nearest bound, and every negative gap reads as -1. -/
def decodeHead? (entry : Int) : Option Head :=
  if 0 ≤ entry then some ⟨entry.toNat, {}, -1⟩
  else do
    let offset := r.layout.records.offset + (-entry - 1).toNat * recordSize
    let symbol ← r.wordAt? offset
    let callback ← r.wordAt? (offset + 4)
    let param ← Buffer.longAt? r.buffer (offset + 8)
    let gap ← r.wordAt? (offset + 16)
    return ⟨symbol, ⟨UInt32.ofNat callback, UInt64.ofNat param⟩,
      Int8.ofInt (max (-1) (min 127 (toSigned gap)))⟩

/-- The heads of a set, in order. -/
def heads (set : Nat) : List Head :=
  if set < r.layout.sets.count then
    let directory := r.layout.sets.offset + set * 8
    let start := (r.wordAt? directory).getD 0
    let count := (r.wordAt? (directory + 4)).getD 0
    (List.range count).filterMap fun i =>
      (r.wordAt? (start + i * 4)).bind fun entry => r.decodeHead? (toSigned entry)
  else []

/-- The texts of a pool, empty ones left out. -/
def poolTexts (buffer : Array UInt8) (pool : Table) : List String :=
  let bytes := (buffer.extract pool.offset (pool.offset + pool.count)).toList
  (bytes.splitBy fun a b => a != 0 && b != 0).filterMap fun part =>
    if part.contains 0 then none else String.fromUTF8? ⟨part.toArray⟩

/-- Every literal of the grammar, in order. -/
def terminals : List String := poolTexts r.buffer r.layout.terminals

end RuleSet

end Phrasebook
