import Phrasebook.RuleSet.Bytes
import Phrasebook.RuleSet.Error
import Phrasebook.Structural

/-!
A compiled grammar is one buffer of little-endian numbers. Its header names a version, flags, the
number of symbols, and where each section lies:

* the pool of literals and the pool of other strings, each text closed by a zero byte;
* head records of 20 bytes, and head sets: a directory of entry lists, where an entry is a plain
  symbol or, when negative, one less than minus the number of a record;
* shards, each with its locales, two sorted tables of literals, a sorted table of single symbols,
  and the pairs of symbols hashed into buckets;
* the structural symbols, the filters, the labels, and names for debugging.

`Layout.verify` checks every offset and every reference once.
-/

namespace Phrasebook.RuleSet

/-- The bytes that open every compiled grammar. -/
def magic : List UInt8 := [0x47, 0x52, 0x4d, 0x53]

def version : Nat := 1

def headerSize : Nat := 88

def recordSize : Nat := 20

/-- The places of the structural symbols. -/
def structuralCount : Nat := 5 + Structural.longestRun + 1

/-- A run of records of one size. -/
structure Table where
  offset : Nat := 0
  count : Nat := 0
  deriving DecidableEq, Repr, Inhabited

/-- The offset after a table of records of size `width`. -/
def Table.stop (t : Table) (width : Nat) : Nat := t.offset + t.count * width

structure ShardLayout where
  locales : List Locale := []
  exact : Table := {}
  folded : Table := {}
  unary : Table := {}
  buckets : Table := {}
  binary : Table := {}
  deriving DecidableEq, Repr, Inhabited

structure Layout where
  hasNames : Bool
  symbolCount : Nat
  terminals : Table
  strings : Table
  records : Table
  sets : Table
  filters : Table
  labels : Table
  names : Table
  structural : Structural.Symbols
  shards : List ShardLayout
  deriving DecidableEq, Repr

/-- The text that starts at `offset` of a pool and ends before its next zero byte. -/
def poolText? (buffer : Array UInt8) (pool : Table) (offset : Nat) : Option String :=
  match Buffer.zeroFrom? buffer (pool.offset + offset) (pool.offset + pool.count) with
  | some stop => Buffer.textBetween? buffer (pool.offset + offset) stop
  | none => none

namespace Layout

/-- The word of the header at `position`. -/
def header (buffer : Array UInt8) (position : Nat) : Nat :=
  (Buffer.wordAt? buffer position).getD 0

def checkRange (buffer : Array UInt8) (part : Section) (offset length : Nat) :
    Except Error Unit :=
  if offset + length ≤ buffer.size then .ok ()
  else .error (.outOfBounds part offset length buffer.size)

/-- The table whose offset and count stand at `position` of the header. -/
def readTable (buffer : Array UInt8) (part : Section) (position width : Nat) :
    Except Error Table := do
  let table : Table := ⟨header buffer position, header buffer (position + 4)⟩
  checkRange buffer part table.offset (table.count * width)
  return table

def checkIndex (part : Section) (index limit : Nat) : Except Error Unit :=
  if index < limit then .ok () else .error (.dangling part index limit)

def readWord (buffer : Array UInt8) (part : Section) (offset : Nat) : Except Error Nat :=
  match Buffer.wordAt? buffer offset with
  | some word => .ok word
  | none => .error (.outOfBounds part offset 4 buffer.size)

def readText (buffer : Array UInt8) (pool : Table) (offset : Nat) : Except Error String :=
  match poolText? buffer pool offset with
  | some text => .ok text
  | none => .error (.badString offset)

/-- A word of a record that must be below `limit`. -/
def checkWord (buffer : Array UInt8) (part : Section) (offset limit : Nat) : Except Error Unit := do
  checkIndex part (← readWord buffer part offset) limit

/-- Runs a check on each of the first `count` indices. -/
def checkAll (count : Nat) (check : Nat → Except Error Unit) : Except Error Unit :=
  (List.range count).forM check

def checkRecords (buffer : Array UInt8) (records : Table) (symbols : Nat) : Except Error Unit :=
  checkAll records.count fun i =>
    checkWord buffer .headRecords (records.offset + i * recordSize) symbols

/-- An entry is a symbol or the number of a record. -/
def checkEntry (entry : Int) (symbols records : Nat) : Except Error Unit :=
  if 0 ≤ entry then checkIndex .headEntries entry.toNat symbols
  else checkIndex .headEntries (-entry - 1).toNat records

def checkSets (buffer : Array UInt8) (sets : Table) (symbols records : Nat) : Except Error Unit :=
  checkAll sets.count fun i => do
    let start ← readWord buffer .headSets (sets.offset + i * 8)
    let length ← readWord buffer .headSets (sets.offset + i * 8 + 4)
    checkRange buffer .headEntries start (length * 4)
    checkAll length fun j =>
      checkEntry (toSigned ((Buffer.wordAt? buffer (start + j * 4)).getD 0)) symbols records

def readStructural (buffer : Array UInt8) (symbols : Nat) : Except Error Structural.Symbols := do
  let offset := header buffer 56
  checkRange buffer .structural offset (structuralCount * 4)
  checkAll structuralCount fun i => checkWord buffer .structural (offset + i * 4) symbols
  let slot (i : Nat) : Symbol := (Buffer.wordAt? buffer (offset + i * 4)).getD 0
  return {
    start := slot 0
    stop := slot 1
    token := slot 2
    uppercaseToken := slot 3
    digits := slot 4
    runs := Vector.ofFn fun n => slot (5 + n.val) }

def checkLabels (buffer : Array UInt8) (labels strings : Table) (symbols : Nat) :
    Except Error Unit :=
  checkAll labels.count fun i => do
    let name ← readWord buffer .labels (labels.offset + i * 8)
    let _ ← readText buffer strings name
    checkWord buffer .labels (labels.offset + i * 8 + 4) symbols

def checkNames (buffer : Array UInt8) (names strings : Table) : Except Error Unit :=
  checkAll names.count fun i => do
    let name ← readWord buffer .debugNames (names.offset + i * 8 + 4)
    let _ ← readText buffer strings name

/-- A table that opens with its count at `offset`. -/
def readCounted (buffer : Array UInt8) (part : Section) (offset width : Nat) :
    Except Error Table := do
  let count ← readWord buffer part offset
  checkRange buffer part (offset + 4) (count * width)
  return ⟨offset + 4, count⟩

def readLocales (buffer : Array UInt8) (table strings : Table) (shard : Nat) :
    Except Error (List Locale) :=
  (List.range table.count).mapM fun i => do
    let tag ← readText buffer strings (← readWord buffer .shardLocales (table.offset + i * 4))
    match Locale.read tag with
    | .ok locale => .ok locale
    | .error source => .error (.badLocale shard source)

def checkLiterals (buffer : Array UInt8) (part : Section) (table terminals : Table) (sets : Nat) :
    Except Error Unit :=
  checkAll table.count fun i => do
    let text ← readWord buffer part (table.offset + i * 8)
    let _ ← readText buffer terminals text
    checkWord buffer part (table.offset + i * 8 + 4) sets

/-- Pairs are looked up by masking a hash, so the number of buckets must be a power of two. -/
def checkBuckets (buffer : Array UInt8) (buckets binary : Table) : Except Error Unit := do
  if binary.count > 0 && !decide buckets.count.isPowerOfTwo then
    throw (.dangling .buckets buckets.count buckets.count.nextPowerOfTwo)
  checkAll buckets.count fun i => do
    let start ← readWord buffer .buckets (buckets.offset + i * 8)
    let length ← readWord buffer .buckets (buckets.offset + i * 8 + 4)
    checkIndex .buckets (start + length) (binary.count + 1)

/-- The tables of a shard follow one another from `offset` on. -/
def readShard (buffer : Array UInt8) (terminals strings sets : Table) (shard offset : Nat) :
    Except Error ShardLayout := do
  let localeTable ← readCounted buffer .shardLocales offset 4
  let exact ← readCounted buffer .exactTerminals (localeTable.stop 4) 8
  let folded ← readCounted buffer .foldedTerminals (exact.stop 8) 8
  let unary ← readCounted buffer .unaryRules (folded.stop 8) 8
  let buckets ← readCounted buffer .buckets (unary.stop 8) 8
  let binary ← readCounted buffer .binaryRules (buckets.stop 8) 12
  let locales ← readLocales buffer localeTable strings shard
  checkLiterals buffer .exactTerminals exact terminals sets.count
  checkLiterals buffer .foldedTerminals folded terminals sets.count
  checkAll unary.count fun i => checkWord buffer .unaryRules (unary.offset + i * 8 + 4) sets.count
  checkBuckets buffer buckets binary
  checkAll binary.count fun i =>
    checkWord buffer .binaryRules (binary.offset + i * 12 + 8) sets.count
  return { locales, exact, folded, unary, buckets, binary }

def readShards (buffer : Array UInt8) (terminals strings sets : Table) :
    Except Error (List ShardLayout) := do
  let table ← readTable buffer .shards 48 4
  (List.range table.count).mapM fun shard => do
    let offset ← readWord buffer .shards (table.offset + shard * 4)
    readShard buffer terminals strings sets shard offset

/-- Accepts a buffer in which every offset lies inside and every reference is met. -/
def verify (buffer : Array UInt8) : Except Error Layout := do
  if buffer.size < headerSize then throw (.tooShort buffer.size)
  if (buffer.extract 0 4).toList != magic then throw (.badMagic ((buffer.extract 0 4).toList))
  if header buffer 4 != version then throw (.unsupportedVersion (header buffer 4))
  let symbolCount := header buffer 12
  let terminals ← readTable buffer .terminals 16 1
  let strings ← readTable buffer .strings 24 1
  let records ← readTable buffer .headRecords 32 recordSize
  let sets ← readTable buffer .headSets 40 8
  let filters ← readTable buffer .filters 60 4
  let labels ← readTable buffer .labels 68 8
  let names ← readTable buffer .debugNames 76 8
  checkRecords buffer records (symbolCount + 1)
  checkSets buffer sets (symbolCount + 1) records.count
  let structural ← readStructural buffer (symbolCount + 1)
  checkLabels buffer labels strings (symbolCount + 1)
  checkNames buffer names strings
  let shards ← readShards buffer terminals strings sets
  return {
    hasNames := header buffer 8 % 2 == 1
    symbolCount, terminals, strings, records, sets, filters, labels, names, structural
    shards }

end Layout

end Phrasebook.RuleSet
