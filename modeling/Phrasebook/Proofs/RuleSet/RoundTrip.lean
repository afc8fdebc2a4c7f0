import Phrasebook.Proofs.RuleSet.Interning
import Phrasebook.Proofs.RuleSet.Search
import Phrasebook.Proofs.RuleSet.Sections

namespace Phrasebook

/-- A head as it is read back. -/
def Head.stored (h : Head) : Head := { h with gap := if h.gap < 0 then -1 else h.gap }

theorem Head.stored_of_isPlain {h : Head} (plain : h.isPlain = true) :
    h.stored = ⟨h.symbol, {}, -1⟩ := by
  simp only [isPlain, Bool.and_eq_true, beq_iff_eq, decide_eq_true_eq] at plain
  simp [stored, plain]

theorem ofInt_clamp (gap : Int8) :
    Int8.ofInt (max (-1) (min 127 gap.toInt)) = if gap < 0 then -1 else gap := by
  have high : gap.toInt < 2 ^ 7 := gap.toInt_lt
  by_cases negative : gap < 0
  · have below : gap.toInt < 0 := by simpa [Int8.lt_iff_toInt_lt] using negative
    rw [if_pos negative, Int.min_eq_right (by omega), Int.max_eq_left (by omega)]
    rfl
  · have above : ¬ gap.toInt < 0 := by simpa [Int8.lt_iff_toInt_lt] using negative
    rw [if_neg negative, Int.min_eq_right (by omega), Int.max_eq_right (by omega), Int8.ofInt_toInt]

namespace RuleSet

section
variable {b : Blocks} {r : RuleSet}

/-- A record is decoded to its head, the symbol cut to a word. -/
theorem decodeHead?_record_mod (laid : b.Laid r.buffer) (fits : b.Fits r.layout) {i : Nat}
    {head : Head} (found : b.records[i]? = some head) :
    r.decodeHead? (-i - 1) = some { head.stored with symbol := head.symbol % wordBound } := by
  have here : Lies r.buffer (b.recordsAt + i * recordSize) (encodeRecord head) :=
    lies_flatMap length_encodeRecord laid.records found
  simp only [encodeRecord, lies_append, length_word, length_littleEndian, List.length_append] at here
  obtain ⟨⟨⟨symbol, id⟩, param⟩, gap⟩ := here
  have negative : ¬ (0 : Int) ≤ -i - 1 := by omega
  have index : (-(-(i : Int) - 1) - 1).toNat = i := by omega
  have gapLow : -(2 ^ 31) ≤ head.gap.toInt := by
    have : -(2 ^ 7) ≤ head.gap.toInt := head.gap.le_toInt
    omega
  have gapHigh : head.gap.toInt < 2 ^ 31 := by
    have : head.gap.toInt < 2 ^ 7 := head.gap.toInt_lt
    omega
  obtain ⟨word, isWord, isGap⟩ := Option.map_eq_some_iff.mp
    (Buffer.wordAt?_signedWord gap gapLow gapHigh)
  simp only [decodeHead?, if_neg negative, index, fits.records, wordAt?,
    Buffer.wordAt?_of_lies symbol, Buffer.wordAt?_of_lies id, Buffer.longAt?_of_lies param]
  rw [show b.recordsAt + i * recordSize + 16 = b.recordsAt + i * recordSize + (4 + 4 + 8) from rfl,
    isWord]
  simp only [bind, Option.bind, isGap, ofInt_clamp, pure]
  have smallId : head.callback.id.toNat < wordBound := head.callback.id.toNat_lt
  rw [Nat.mod_eq_of_lt smallId, Nat.mod_eq_of_lt head.callback.param.toNat_lt, UInt32.ofNat_toNat,
    UInt64.ofNat_toNat]
  rfl

theorem decodeHead?_record (laid : b.Laid r.buffer) (fits : b.Fits r.layout) {i : Nat} {head : Head}
    (found : b.records[i]? = some head) (small : head.symbol < wordBound) :
    r.decodeHead? (-i - 1) = some head.stored := by
  rw [decodeHead?_record_mod laid fits found, Nat.mod_eq_of_lt small]
  rfl

/-- A structural symbol is read back, cut to a word. -/
theorem slot_eq {buffer : Array UInt8} (laid : b.Laid buffer) (fit : buffer.size < wordBound)
    {i : Nat} {s : Symbol} (found : b.structural[i]? = some s) :
    Layout.slot buffer i = s % wordBound := by
  have size := laid.structural.le_size
  have place : Layout.header buffer 56 = b.structuralAt := laid.header_eq (i := 13) rfl (by omega)
  have word := Buffer.wordAt?_of_lies (lies_flatMap length_word laid.structural found)
  rw [Layout.slot, place, word]
  rfl

theorem lt_wordBound {n : Nat} (small : n < 2 ^ 31) : n < wordBound := by
  rw [wordBound]
  omega

theorem toSigned_mod {n : Nat} (small : n < 2 ^ 31) : toSigned (n % wordBound) = n := by
  rw [Nat.mod_eq_of_lt (lt_wordBound small), toSigned, if_pos (by rw [wordBound]; omega)]

/-- An entry is decoded to the head it stands for. -/
theorem decodeHead?_entry (laid : b.Laid r.buffer) (fits : b.Fits r.layout) {entry : Int}
    {head : Head} (isEntry : EntryOf b.records.toArray entry head) (small : head.symbol < 2 ^ 31) :
    r.decodeHead? entry = some head.stored := by
  rcases isEntry with ⟨plain, rfl⟩ | ⟨i, found, rfl⟩
  · have positive : (0 : Int) ≤ (head.symbol : Int) := Int.natCast_nonneg _
    rw [toSigned_mod small, decodeHead?, if_pos positive, Head.stored_of_isPlain plain]
    rfl
  · exact decodeHead?_record laid fits (by simpa using found) (lt_wordBound small)

/-- An entry fits into a signed word. -/
theorem EntryOf.bounds {records : List Head} (few : records.length < 2 ^ 31) {entry : Int}
    {head : Head} (isEntry : EntryOf records.toArray entry head) (small : head.symbol < 2 ^ 31) :
    -(2 ^ 31) ≤ entry ∧ entry < 2 ^ 31 := by
  rcases isEntry with ⟨plain, rfl⟩ | ⟨i, found, rfl⟩
  · rw [toSigned_mod small]
    have low : (0 : Int) ≤ (head.symbol : Int) := Int.natCast_nonneg _
    have high : ((head.symbol : Nat) : Int) < ((2 ^ 31 : Nat) : Int) := Int.ofNat_lt.mpr small
    omega
  · have inRange : i < records.length := by simpa using (Array.getElem?_eq_some_iff.mp found).1
    omega

/-- The entries of a set lie where its directory says. -/
theorem lies_set (laid : b.Laid r.buffer) {set : Nat} {entries : List Int}
    (found : b.sets[set]? = some entries) :
    ∃ start, Lies r.buffer (b.setsAt + set * 8) (word start ++ word entries.length) ∧
      Lies r.buffer start (entries.flatMap signedWord) := by
  have blocks : b.entryBytes = (b.sets.map (·.flatMap signedWord)).flatten := by
    rw [Blocks.entryBytes, List.flatMap_def]
  have lengths : b.sets.map (4 * ·.length) =
      (b.sets.map (·.flatMap signedWord)).map (·.length) := by
    rw [List.map_map]
    apply List.map_congr_left
    intro entries _
    rw [Function.comp, length_flatMap length_signedWord, Nat.mul_comm]
  have isBlock : (b.sets.map (·.flatMap signedWord))[set]? = some (entries.flatMap signedWord) := by
    simp [found]
  obtain ⟨start, isStart, lies⟩ := lies_blocks (blocks ▸ laid.entries) isBlock
  rw [← lengths] at isStart
  refine ⟨start, ?_, lies⟩
  have uniform (x : Nat × List Int) : (word x.1 ++ word x.2.length).length = 8 := by
    simp [length_word]
  refine lies_flatMap (x := (start, entries)) uniform laid.sets ?_
  rw [List.getElem?_zip_eq_some]
  exact ⟨isStart, found⟩

/-- The heads of a set are read back in order. -/
theorem heads_eq (laid : b.Laid r.buffer) (fits : b.Fits r.layout) (fit : r.buffer.size < wordBound)
    {set : Nat} {entries : List Int} (found : b.sets[set]? = some entries) {heads : List Head}
    (each : List.Forall₂ (EntryOf b.records.toArray) entries heads)
    (small : ∀ head ∈ heads, head.symbol < 2 ^ 31) : r.heads set = heads.map Head.stored := by
  obtain ⟨start, directory, lies⟩ := lies_set laid found
  rw [lies_append, length_word] at directory
  have inRange : set < b.sets.length := (List.getElem?_eq_some_iff.mp found).1
  have size := lies.le_size
  have recordsSize := laid.records.le_size
  rw [length_flatMap length_signedWord] at size
  rw [Blocks.length_recordBytes, recordSize] at recordsSize
  rw [wordBound] at fit
  have isStart := Buffer.wordAt?_word directory.1 (by rw [wordBound]; omega)
  have isCount := Buffer.wordAt?_word directory.2 (by rw [wordBound]; omega)
  simp only [RuleSet.heads, fits.sets, if_pos inRange, wordAt?, isStart, isCount, Option.getD_some]
  have same : entries.length = (heads.map Head.stored).length := by
    rw [List.length_map, each.length_eq]
  rw [← filterMap_getElem?_range (heads.map Head.stored), ← same]
  apply List.filterMap_congr
  intro i isIndex
  have inEntries : i < entries.length := List.mem_range.mp isIndex
  have inHeads : i < heads.length := by rwa [each.length_eq] at inEntries
  have isEntry : EntryOf b.records.toArray entries[i] heads[i] := each.get inEntries inHeads
  have isSmall := small _ (List.getElem_mem inHeads)
  have bounds := isEntry.bounds (by omega) isSmall
  have here := lies_flatMap length_signedWord lies (List.getElem?_eq_getElem inEntries)
  obtain ⟨word, isWord, signed⟩ := Option.map_eq_some_iff.mp
    (Buffer.wordAt?_signedWord here bounds.1 bounds.2)
  rw [isWord, Option.bind_some, signed, decodeHead?_entry laid fits isEntry isSmall]
  simp [inHeads]

end

/-- The number of buckets for so many pairs. -/
def bucketCount (records : List ((Symbol × Symbol) × Nat)) : Nat :=
  (max records.length 1).nextPowerOfTwo

theorem bucketCount_pos (records : List ((Symbol × Symbol) × Nat)) : 0 < bucketCount records :=
  Nat.pos_of_isPowerOfTwo (Nat.isPowerOfTwo_nextPowerOfTwo _)

def bucketLists (records : List ((Symbol × Symbol) × Nat)) : List (List ((Symbol × Symbol) × Nat)) :=
  (intoBuckets (bucketCount records) records).toList.map (·.toList)

def pairBytes (record : (Symbol × Symbol) × Nat) : List UInt8 :=
  word record.1.1 ++ word record.1.2 ++ word record.2

theorem length_pairBytes (record : (Symbol × Symbol) × Nat) : (pairBytes record).length = 12 := by
  simp [pairBytes, length_word]

theorem encodeBinary_eq (records : List ((Symbol × Symbol) × Nat)) :
    encodeBinary records =
      word (bucketCount records) ++
        ((bucketRanges 0 ((bucketLists records).map (·.length))).flatMap fun range =>
          word range.1 ++ word range.2) ++
        word records.length ++ (bucketLists records).flatten.flatMap pairBytes := by
  have lengths : (bucketLists records).map (·.length) =
      (intoBuckets (bucketCount records) records).toList.map (·.size) := by
    rw [bucketLists, List.map_map]
    rfl
  have records' : (bucketLists records).flatten.flatMap pairBytes =
      (intoBuckets (bucketCount records) records).toList.flatMap fun bucket =>
        bucket.toList.flatMap pairBytes := by
    rw [bucketLists, ← List.flatMap_def, List.flatMap_assoc]
  rw [lengths, records']
  rfl

theorem length_bucketLists (records : List ((Symbol × Symbol) × Nat)) :
    (bucketLists records).length = bucketCount records := by
  rw [bucketLists, List.length_map, Array.length_toList, size_intoBuckets]

theorem length_flatten_bucketLists (records : List ((Symbol × Symbol) × Nat)) :
    (bucketLists records).flatten.length = records.length := by
  rw [List.length_flatten, bucketLists, List.map_map]
  exact sum_intoBuckets (bucketCount_pos records) records

theorem length_bucketRanges (start : Nat) (lengths : List Nat) :
    (bucketRanges start lengths).length = lengths.length := by
  induction lengths generalizing start with
  | nil => rfl
  | cons length rest ih => simp [bucketRanges, ih]

/-- The tables of a shard lie where its layout says. -/
structure Numbered.Laid (tables : Numbered) (terminals : Pool) (buffer : Array UInt8)
    (shard : ShardLayout) : Prop where
  exact : shard.exact.count = tables.exact.length ∧ Lies buffer shard.exact.offset
    (tables.exact.flatMap fun (text, set) => word (terminals.offset text) ++ word set)
  folded : shard.folded.count = tables.folded.length ∧ Lies buffer shard.folded.offset
    (tables.folded.flatMap fun (text, set) => word (terminals.offset text) ++ word set)
  unary : shard.unary.count = tables.unary.length ∧ Lies buffer shard.unary.offset
    (tables.unary.flatMap fun (operand, set) => word operand ++ word set)
  buckets : shard.buckets.count = bucketCount tables.binary ∧ Lies buffer shard.buckets.offset
    ((bucketRanges 0 ((bucketLists tables.binary).map (·.length))).flatMap fun range =>
      word range.1 ++ word range.2)
  binary : shard.binary.count = tables.binary.length ∧ Lies buffer shard.binary.offset
    ((bucketLists tables.binary).flatten.flatMap pairBytes)

/-- Where the tables of a shard come to lie when it is written at `offset`. -/
def Numbered.layout (tables : Numbered) (locales : List Locale) (offset : Nat) : ShardLayout :=
  let exact : Table := ⟨offset + 4 + locales.length * 4 + 4, tables.exact.length⟩
  let folded : Table := ⟨exact.stop 8 + 4, tables.folded.length⟩
  let unary : Table := ⟨folded.stop 8 + 4, tables.unary.length⟩
  let buckets : Table := ⟨unary.stop 8 + 4, bucketCount tables.binary⟩
  let binary : Table := ⟨buckets.stop 8 + 4, tables.binary.length⟩
  { locales, exact, folded, unary, buckets, binary }

section
variable {tables : Numbered} {terminals strings : Pool} {locales : List Locale}
  {buffer : Array UInt8} {offset : Nat}

theorem Numbered.lies_locales (lies : Lies buffer offset (tables.bytes terminals strings locales)) :
    Lies buffer (offset + 4) (words (locales.map (strings.offset ·.display))) := by
  simp only [bytes, lies_append, length_word] at lies
  exact lies.1.1.1.1.1.2

/-- The bytes of a shard, table by table. -/
theorem Numbered.reads_layout (fit : buffer.size < wordBound)
    (lies : Lies buffer offset (tables.bytes terminals strings locales)) :
    Layout.ShardReads buffer offset (tables.layout locales offset) ∧
      tables.Laid terminals buffer (tables.layout locales offset) := by
  have entry (x : String × Nat) : (word (terminals.offset x.1) ++ word x.2).length = 8 := by
    simp [length_word]
  have operand (x : Symbol × Nat) : (word x.1 ++ word x.2).length = 8 := by
    simp [length_word]
  have range (x : Nat × Nat) : (word x.1 ++ word x.2).length = 8 := by
    simp [length_word]
  simp only [bytes, encodeLiterals, encodeBinary_eq] at lies
  simp only [lies_append, length_word, length_words, List.length_append, length_flatMap entry,
    length_flatMap operand, List.length_map, length_bucketRanges, length_bucketLists] at lies
  obtain ⟨⟨⟨⟨⟨⟨localeCount, localeWords⟩, exactCount, exactWords⟩, foldedCount, foldedWords⟩,
    unaryCount⟩, unaryWords⟩, ⟨⟨bucketCount', bucketWords⟩, binaryCount⟩, binaryWords⟩ := lies
  have localeSize := localeWords.le_size
  have exactSize := exactWords.le_size
  have foldedSize := foldedWords.le_size
  have unarySize := unaryWords.le_size
  have bucketSize := bucketWords.le_size
  have binarySize := binaryWords.le_size
  rw [length_words, List.length_map] at localeSize
  rw [length_flatMap entry] at exactSize foldedSize
  rw [length_flatMap operand] at unarySize
  rw [length_flatMap range, length_bucketRanges, List.length_map, length_bucketLists] at bucketSize
  rw [length_flatMap length_pairBytes, length_flatten_bucketLists] at binarySize
  have localeRead := Buffer.wordAt?_word localeCount (by omega)
  have exactRead := Buffer.wordAt?_word exactCount (by omega)
  have foldedRead := Buffer.wordAt?_word foldedCount (by omega)
  have unaryRead := Buffer.wordAt?_word unaryCount (by omega)
  have bucketRead := Buffer.wordAt?_word bucketCount' (by omega)
  have binaryRead := Buffer.wordAt?_word binaryCount (by omega)
  have counted {p q k : Nat} (read : Buffer.wordAt? buffer p = some k) (same : q = p) :
      Buffer.wordAt? buffer q = some k := same ▸ read
  have moved {p q : Nat} {part : List UInt8} (lies : Lies buffer p part) (same : q = p) :
      Lies buffer q part := same ▸ lies
  constructor
  · refine ⟨localeRead, ⟨rfl, counted exactRead ?_⟩, ⟨rfl, counted foldedRead ?_⟩,
      ⟨rfl, counted unaryRead ?_⟩, ⟨rfl, counted bucketRead ?_⟩, ⟨rfl, counted binaryRead ?_⟩⟩
    all_goals
      simp only [layout, Table.stop]
      omega
  · refine ⟨⟨rfl, moved exactWords ?_⟩, ⟨rfl, moved foldedWords ?_⟩, ⟨rfl, moved unaryWords ?_⟩,
      ⟨rfl, moved bucketWords ?_⟩, ⟨rfl, moved binaryWords ?_⟩⟩
    all_goals
      simp only [layout, Table.stop]
      omega

/-- A place has one layout, but for what the locales say. -/
theorem Layout.ShardReads.eq {shard other : ShardLayout}
    (reads : Layout.ShardReads buffer offset shard) (reads' : Layout.ShardReads buffer offset other) :
    other = { shard with locales := other.locales } := by
  have table {t t' : Table} {p p' : Nat} (same : p = p')
      (h : t.offset = p + 4 ∧ Buffer.wordAt? buffer p = some t.count)
      (h' : t'.offset = p' + 4 ∧ Buffer.wordAt? buffer p' = some t'.count) : t = t' := by
    obtain ⟨start, count⟩ := t
    obtain ⟨start', count'⟩ := t'
    subst same
    obtain ⟨rfl, isCount⟩ := h
    obtain ⟨rfl, isCount'⟩ := h'
    exact congrArg (Table.mk (p + 4)) (Option.some.inj (isCount.symm.trans isCount'))
  have locales : shard.locales.length = other.locales.length :=
    Option.some.inj (reads.locales.symm.trans reads'.locales)
  have exact := table (by rw [locales]) reads.exact reads'.exact
  have folded := table (by rw [exact]) reads.folded reads'.folded
  have unary := table (by rw [folded]) reads.unary reads'.unary
  have buckets := table (by rw [unary]) reads.buckets reads'.buckets
  have binary := table (by rw [buckets]) reads.binary reads'.binary
  obtain ⟨_, _, _, _, _, _⟩ := other
  simp only [ShardLayout.mk.injEq]
  exact ⟨trivial, exact.symm, folded.symm, unary.symm, buckets.symm, binary.symm⟩

theorem Numbered.laid {shard : ShardLayout} (fit : buffer.size < wordBound)
    (lies : Lies buffer offset (tables.bytes terminals strings locales))
    (reads : Layout.ShardReads buffer offset shard) : tables.Laid terminals buffer shard := by
  obtain ⟨readsLayout, laid⟩ := reads_layout fit lies
  rw [readsLayout.eq reads]
  exact ⟨laid.exact, laid.folded, laid.unary, laid.buckets, laid.binary⟩

end

section
variable {r : RuleSet} {terminals : Pool} {tables : Numbered} {i : Nat} {shard : ShardLayout}

/-- Two words one after the other. -/
theorem reads_two {offset a b : Nat} (lies : Lies r.buffer offset (word a ++ word b))
    (smallA : a < wordBound) (smallB : b < wordBound) :
    r.wordAt? offset = some a ∧ r.wordAt? (offset + 4) = some b := by
  rw [lies_append, length_word] at lies
  exact ⟨Buffer.wordAt?_word lies.1 smallA, Buffer.wordAt?_word lies.2 smallB⟩

theorem findUnary_iff (found : r.shard? i = some shard) (laid : tables.Laid terminals r.buffer shard)
    (sorted : (tables.unary.map (·.1)).Pairwise (compare · · = .lt))
    (small : ∀ record ∈ tables.unary, record.1 < wordBound ∧ record.2 < wordBound)
    (operand : Symbol) (v : Nat) :
    r.findUnary i operand = some v ↔ (operand, v) ∈ tables.unary := by
  have uniform (x : Symbol × Nat) : (word x.1 ++ word x.2).length = 8 := by
    simp [length_word]
  rw [findUnary_eq_search found, ← search_value sorted ?_ laid.unary.1 v]
  · rfl
  · intro j k w isRecord
    have isSmall := small _ (List.mem_of_getElem? isRecord)
    obtain ⟨key, value⟩ := reads_two (lies_flatMap uniform laid.unary.2 isRecord) isSmall.1 isSmall.2
    exact ⟨congrArg (Option.map (compare · operand)) key, value⟩

/-- A table of texts. -/
theorem searchText_iff {table : Table} {pool : Pool} {text? : Nat → Option String}
    {records : List (String × Nat)} (count : table.count = records.length)
    (lies : Lies r.buffer table.offset
      (records.flatMap fun record => word (pool.offset record.1) ++ word record.2))
    (sorted : (records.map (·.1)).Pairwise (compare · · = .lt))
    (small : ∀ record ∈ records, record.2 < wordBound)
    (pooled : ∀ record ∈ records, pool.offset record.1 < wordBound ∧
      text? (pool.offset record.1) = some record.1) (text : String) (v : Nat) :
    ((r.searchText table text? text).bind fun offset => r.wordAt? (offset + 4)) = some v ↔
      (text, v) ∈ records := by
  have uniform (x : String × Nat) : (word (pool.offset x.1) ++ word x.2).length = 8 := by
    simp [length_word]
  rw [← search_value sorted ?_ count v]
  · rfl
  · intro j k w isRecord
    have member := List.mem_of_getElem? isRecord
    have isPooled := pooled _ member
    obtain ⟨key, value⟩ := reads_two (lies_flatMap uniform lies isRecord) isPooled.1 (small _ member)
    refine ⟨?_, value⟩
    simp only [key, Option.bind_some]
    exact congrArg (Option.map (compare · text)) isPooled.2

theorem findBinary_iff (found : r.shard? i = some shard) (laid : tables.Laid terminals r.buffer shard)
    (fit : r.buffer.size < wordBound) (distinct : (tables.binary.map (·.1)).Nodup)
    (small : ∀ record ∈ tables.binary,
      record.1.1 < wordBound ∧ record.1.2 < wordBound ∧ record.2 < wordBound)
    (left right : Symbol) (v : Nat) :
    r.findBinary i left right = some v ↔ ((left, right), v) ∈ tables.binary := by
  simp only [findBinary, found, bind, Option.bind_some, laid.binary.1, laid.buckets.1]
  by_cases empty : tables.binary.length = 0
  · rw [if_pos empty, List.eq_nil_of_length_eq_zero empty]
    exact ⟨nofun, nofun⟩
  rw [if_neg empty]
  have inRange : bucketOf left right (bucketCount tables.binary) < bucketCount tables.binary :=
    Nat.mod_lt _ (bucketCount_pos tables.binary)
  have bucket : (bucketLists tables.binary)[bucketOf left right (bucketCount tables.binary)]? =
      some (tables.binary.filter fun record => bucketOf record.1.1 record.1.2
        (bucketCount tables.binary) == bucketOf left right (bucketCount tables.binary)) := by
    simp [bucketLists, getElem?_intoBuckets _ _ inRange]
  generalize hash : bucketOf left right (bucketCount tables.binary) = h at inRange bucket ⊢
  generalize chosen : (tables.binary.filter fun record =>
    bucketOf record.1.1 record.1.2 (bucketCount tables.binary) == h) = run at bucket
  have range := getElem?_bucketRanges (bucketLists tables.binary) 0 bucket
  have inside := length_take_flatten (bucketLists tables.binary) bucket
  have whole := length_flatten_bucketLists tables.binary
  rw [Nat.zero_add] at range
  rw [whole] at inside
  generalize before : ((bucketLists tables.binary).take h).flatten.length = start at range inside
  have binarySize := laid.binary.2.le_size
  rw [length_flatMap length_pairBytes, whole] at binarySize
  have uniform (x : Nat × Nat) : (word x.1 ++ word x.2).length = 8 := by
    simp [length_word]
  obtain ⟨isStart, isCount⟩ := reads_two (lies_flatMap uniform laid.buckets.2 range) (by omega)
    (by omega)
  rw [isStart, isCount, Option.bind_some, Option.bind_some, findPair_eq r shard.binary left right run]
  · rw [find_key]
    · rw [← chosen, List.mem_filter]
      simp [hash]
    · rw [← chosen]
      exact distinct.sublist ((List.filter_sublist).map _)
  · intro k a b w isRecord
    have inRun : k < run.length := (List.getElem?_eq_some_iff.mp isRecord).1
    have place := getElem?_flatten (bucketLists tables.binary) bucket inRun
    rw [before, isRecord] at place
    have member : ((a, b), w) ∈ tables.binary := by
      have := List.mem_of_getElem? isRecord
      rw [← chosen] at this
      exact List.mem_of_mem_filter this
    have here := lies_flatMap length_pairBytes laid.binary.2 place
    simp only [pairBytes, lies_append, length_word, List.length_append] at here
    obtain ⟨smallA, smallB, smallW⟩ := small _ member
    exact ⟨Buffer.wordAt?_word here.1.1 smallA, Buffer.wordAt?_word here.1.2 smallB,
      Buffer.wordAt?_word here.2 smallW⟩

end

end RuleSet

end Phrasebook
