import Phrasebook.NormalForm
import Phrasebook.RuleSet.Basic
import Std.Data.HashMap

namespace Phrasebook.RuleSet

def word (n : Nat) : List UInt8 := littleEndian 4 n

def words (ns : List Nat) : List UInt8 := ns.flatMap word

/-- Sorted texts, each closed by a zero byte, and where each starts. -/
structure Pool where
  bytes : List UInt8
  offsets : Std.TreeMap String Nat

namespace Pool

def bytesOf (text : String) : List UInt8 := text.toUTF8.toList ++ [0]

/-- The start of each text when they are written one after another from `start` on. -/
def starts (start : Nat) : List String → List (String × Nat)
  | [] => []
  | text :: rest => (text, start) :: starts (start + (text.utf8ByteSize + 1)) rest

def ofTexts (texts : List String) : Pool :=
  let sorted := (Std.TreeSet.ofList texts).toList
  { bytes := sorted.flatMap bytesOf
    offsets := Std.TreeMap.ofList (starts 0 sorted) }

def offset (p : Pool) (text : String) : Nat := p.offsets.getD text 0

end Pool

/-- The records and head sets written so far. Equal ones are written once. -/
structure Interned where
  records : Array Head := #[]
  recordIndex : Std.HashMap Head Nat := ∅
  sets : Array (List Int) := #[]
  setIndex : Std.HashMap (List Int) Nat := ∅

abbrev Interning := StateM Interned

/-- The entry of a head: its symbol when that says it all, else a reference to a record. -/
def internHead (head : Head) : Interning Int := do
  if head.isPlain then return toSigned (head.symbol % wordBound)
  let state ← get
  match state.recordIndex[head]? with
  | some index => return -index - 1
  | none =>
    let index := state.records.size
    set { state with
      records := state.records.push head
      recordIndex := state.recordIndex.insert head index }
    return -index - 1

def internSet (heads : List Head) : Interning Nat := do
  let entries ← heads.mapM internHead
  let state ← get
  match state.setIndex[entries]? with
  | some index => return index
  | none =>
    let index := state.sets.size
    set { state with
      sets := state.sets.push entries
      setIndex := state.setIndex.insert entries index }
    return index

/-- Replaces the heads of each production by the number of their set. -/
def internTable (table : List (κ × List Head)) : Interning (List (κ × Nat)) :=
  table.mapM fun (key, heads) => return (key, ← internSet heads)

/-- Spreads records over `count` buckets, keeping their order inside each. -/
def intoBuckets (count : Nat) (records : List ((Symbol × Symbol) × Nat)) :
    Array (Array ((Symbol × Symbol) × Nat)) :=
  records.foldl
    (fun buckets record =>
      buckets.modify (bucketOf record.1.1 record.1.2 count) (·.push record))
    (Array.replicate count #[])

/-- The start and the length of each bucket when they are written one after another. -/
def bucketRanges (start : Nat) : List Nat → List (Nat × Nat)
  | [] => []
  | length :: rest => (start, length) :: bucketRanges (start + length) rest

def encodeBinary (records : List ((Symbol × Symbol) × Nat)) : List UInt8 :=
  let count := (max records.length 1).nextPowerOfTwo
  let buckets := intoBuckets count records
  let ranges := bucketRanges 0 (buckets.toList.map (·.size))
  word count ++ ranges.flatMap (fun (start, length) => word start ++ word length) ++
    word records.length ++
    buckets.toList.flatMap fun bucket => bucket.toList.flatMap fun ((left, right), set) =>
      word left ++ word right ++ word set

def encodeLiterals (terminals : Pool) (table : List (String × Nat)) : List UInt8 :=
  word table.length ++ table.flatMap fun (text, set) => word (terminals.offset text) ++ word set

def encodeShard (terminals strings : Pool) (shard : Shard) : Interning (List UInt8) := do
  let exact ← internTable shard.tables.exact.toList
  let folded ← internTable shard.tables.folded.toList
  let unary ← internTable shard.tables.unary.toList
  let binary ← internTable shard.tables.binary.toList
  return word shard.locales.length ++ words (shard.locales.map (strings.offset ·.display)) ++
    encodeLiterals terminals exact ++ encodeLiterals terminals folded ++
    word unary.length ++ unary.flatMap (fun (operand, set) => word operand ++ word set) ++
    encodeBinary binary

def encodeRecord (head : Head) : List UInt8 :=
  word head.symbol ++ word head.callback.id.toNat ++ littleEndian 8 head.callback.param.toNat ++
    signedWord head.gap.toInt

/-- Where each block starts when they are written one after another from `start` on. -/
def blockStarts (start : Nat) : List Nat → List Nat
  | [] => []
  | length :: rest => start :: blockStarts (start + length) rest

/-- All literals of all shards. -/
def literalsOf (n : NormalForm) : List String :=
  n.shards.toList.flatMap fun shard => shard.tables.exact.keys ++ shard.tables.folded.keys

/-- Locale tags, label names and, on request, the names of symbols. -/
def stringsOf (n : NormalForm) (withNames : Bool) : List String :=
  n.shards.toList.flatMap (fun shard => shard.locales.map (·.display)) ++ n.labels.keys ++
    if withNames then n.numbering.names.values else []

/-- The sections of a compiled grammar in the order in which they are written. Shards come as bytes,
labels and names with the offsets of their texts. -/
structure Blocks where
  withNames : Bool
  symbolCount : Nat
  terminals : List UInt8
  strings : List UInt8
  records : List Head
  sets : List (List Int)
  shards : List (List UInt8)
  structural : List Symbol
  filters : List UInt32
  labels : List (Nat × Symbol)
  names : List (Symbol × Nat)

def Blocks.ofNormalForm (n : NormalForm) (withNames : Bool) : Blocks :=
  let terminals := Pool.ofTexts (literalsOf n)
  let strings := Pool.ofTexts (stringsOf n withNames)
  let (shards, interned) := (n.shards.toList.mapM (encodeShard terminals strings)).run {}
  { withNames
    symbolCount := n.symbolCount
    terminals := terminals.bytes
    strings := strings.bytes
    records := interned.records.toList
    sets := interned.sets.toList
    shards
    structural := n.structural.toList
    filters := n.filters.toList
    labels := n.labels.toList.map fun (name, symbol) => (strings.offset name, symbol)
    names :=
      if withNames then
        n.numbering.names.toList.map fun (symbol, name) => (symbol, strings.offset name)
      else [] }

namespace Blocks

variable (b : Blocks)

def recordBytes : List UInt8 := b.records.flatMap encodeRecord

def entryBytes : List UInt8 := b.sets.flatMap (·.flatMap signedWord)

def stringsAt : Nat := headerSize + b.terminals.length

def recordsAt : Nat := b.stringsAt + b.strings.length

def entriesAt : Nat := b.recordsAt + b.recordBytes.length

def setsAt : Nat := b.entriesAt + b.entryBytes.length

/-- For each set the place of its entries and their number. -/
def setBytes : List UInt8 :=
  ((blockStarts b.entriesAt (b.sets.map (4 * ·.length))).zip b.sets).flatMap fun (start, set) =>
    word start ++ word set.length

def shardsAt : Nat := b.setsAt + b.setBytes.length

def shardBytes : List UInt8 := b.shards.flatten

def offsetsAt : Nat := b.shardsAt + b.shardBytes.length

def offsetBytes : List UInt8 := words (blockStarts b.shardsAt (b.shards.map (·.length)))

def structuralAt : Nat := b.offsetsAt + b.offsetBytes.length

def structuralBytes : List UInt8 := words b.structural

def filtersAt : Nat := b.structuralAt + b.structuralBytes.length

def filterBytes : List UInt8 := words (b.filters.map (·.toNat))

def labelsAt : Nat := b.filtersAt + b.filterBytes.length

def labelBytes : List UInt8 := b.labels.flatMap fun (name, symbol) => word name ++ word symbol

def namesAt : Nat := b.labelsAt + b.labelBytes.length

def nameBytes : List UInt8 := b.names.flatMap fun (symbol, name) => word symbol ++ word name

/-- The header gives the offset of each section and its length or number of records. The structural
symbols have a fixed number. -/
def header : List UInt8 :=
  magic ++ words
    [version, b.withNames.toNat, b.symbolCount,
      headerSize, b.terminals.length,
      b.stringsAt, b.strings.length,
      b.recordsAt, b.records.length,
      b.setsAt, b.sets.length,
      b.offsetsAt, b.shards.length,
      b.structuralAt,
      b.filtersAt, b.filters.length,
      b.labelsAt, b.labels.length,
      b.namesAt, b.names.length,
      0]

def bytes : List UInt8 :=
  b.header ++ b.terminals ++ b.strings ++ b.recordBytes ++ b.entryBytes ++ b.setBytes ++
    b.shardBytes ++ b.offsetBytes ++ b.structuralBytes ++ b.filterBytes ++ b.labelBytes ++
    b.nameBytes

end Blocks

/-- A compiled grammar as bytes. -/
def encode (n : NormalForm) (withNames : Bool) : List UInt8 :=
  (Blocks.ofNormalForm n withNames).bytes

/-- Writes a grammar and reads it back. -/
def compile (n : NormalForm) (withNames : Bool) : Except Error RuleSet :=
  ofBytes (encode n withNames).toArray

end Phrasebook.RuleSet
