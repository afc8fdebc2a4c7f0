import Phrasebook.Proofs.RuleSet.Lookups
import Phrasebook.Proofs.RuleSet.Sections

/-!
Bytes behind a compiled grammar, and bytes that are missing from it. Whatever is read in a verified
buffer lies inside it, so bytes that are appended are not seen: the longer buffer is accepted with
the same layout and gives the same answers. Every section of a written grammar is checked to lie
inside, and the last one ends where the bytes end, so none of them can be missing.
-/

namespace Phrasebook

namespace Buffer

variable {buffer : Array UInt8} (rest : Array UInt8)

theorem wordAt?_append {offset : Nat} (room : offset + 4 ≤ buffer.size) :
    wordAt? (buffer ++ rest) offset = wordAt? buffer offset := by
  have longer : offset + 4 ≤ (buffer ++ rest).size := by
    rw [Array.size_append]
    omega
  rw [wordAt?, wordAt?, dif_pos room, dif_pos longer]
  simp only [Array.getElem_append_left (show offset < buffer.size by omega),
    Array.getElem_append_left (show offset + 1 < buffer.size by omega),
    Array.getElem_append_left (show offset + 2 < buffer.size by omega),
    Array.getElem_append_left (show offset + 3 < buffer.size by omega)]

/-- What was read is still read. -/
theorem wordAt?_append_of_eq_some {offset value : Nat} (found : wordAt? buffer offset = some value) :
    wordAt? (buffer ++ rest) offset = some value := by
  rw [wordAt?_append rest (RuleSet.Layout.room_of_wordAt? found), found]

theorem longAt?_append {offset : Nat} (room : offset + 8 ≤ buffer.size) :
    longAt? (buffer ++ rest) offset = longAt? buffer offset := by
  have low := wordAt?_append rest (show offset + 4 ≤ buffer.size by omega)
  have high := wordAt?_append rest (show offset + 4 + 4 ≤ buffer.size by omega)
  rw [longAt?, longAt?, low, high]

theorem zeroFrom?_append {stop : Nat} (inside : stop ≤ buffer.size) (i : Nat) :
    zeroFrom? (buffer ++ rest) i stop = zeroFrom? buffer i stop := by
  fun_induction zeroFrom? buffer i stop with
  | case1 i below outside =>
    rw [Array.getElem?_eq_none_iff] at outside
    omega
  | case2 i below byte found isZero =>
    have still : (buffer ++ rest)[i]? = some byte := by
      rw [Array.getElem?_append_left (by omega), found]
    rw [zeroFrom?, if_pos below, still]
    simp [isZero]
  | case3 i below byte found notZero ih =>
    have still : (buffer ++ rest)[i]? = some byte := by
      rw [Array.getElem?_append_left (by omega), found]
    rw [zeroFrom?, if_pos below, still, ← ih]
    simp [notZero]
  | case4 i beyond => rw [zeroFrom?, if_neg beyond]

/-- A zero byte is found before the stop. -/
theorem lt_of_zeroFrom? {i stop place : Nat} (found : zeroFrom? buffer i stop = some place) :
    place < stop := by
  fun_induction zeroFrom? buffer i stop with
  | case1 | case4 => cases found
  | case2 i below byte isByte isZero => exact Option.some.inj found ▸ below
  | case3 i below byte isByte notZero ih => exact ih found

theorem extract_append (start : Nat) {stop : Nat} (inside : stop ≤ buffer.size) :
    (buffer ++ rest).extract start stop = buffer.extract start stop := by
  rw [Array.extract_append, Nat.sub_eq_zero_of_le inside]
  simp

end Buffer

namespace RuleSet

open Layout

variable {buffer : Array UInt8} (rest : Array UInt8)

theorem poolText?_append {pool : Table} (inside : pool.stop 1 ≤ buffer.size) (offset : Nat) :
    poolText? (buffer ++ rest) pool offset = poolText? buffer pool offset := by
  rw [Table.stop, Nat.mul_one] at inside
  rw [poolText?, poolText?, Buffer.zeroFrom?_append rest inside]
  cases found : Buffer.zeroFrom? buffer (pool.offset + offset) (pool.offset + pool.count) with
  | none => rfl
  | some stop =>
    have before := Buffer.lt_of_zeroFrom? found
    simp only [Buffer.textBetween?]
    rw [Buffer.extract_append rest _ (by omega)]

namespace Layout

/-! ### What was checked is still met -/

theorem size_le_append (rest : Array UInt8) {n : Nat} (inside : n ≤ buffer.size) :
    n ≤ (buffer ++ rest).size := by
  rw [Array.size_append]
  omega

theorem header_append (room : headerSize ≤ buffer.size) {position : Nat}
    (within : position + 4 ≤ headerSize) :
    header (buffer ++ rest) position = header buffer position := by
  rw [header, header, Buffer.wordAt?_append rest (Nat.le_trans within room)]

theorem Below.append {table : Table} {width place limit : Nat}
    (below : Below buffer table width place limit) :
    Below (buffer ++ rest) table width place limit := by
  intro i inRange
  obtain ⟨value, found, small⟩ := below i inRange
  exact ⟨value, Buffer.wordAt?_append_of_eq_some rest found, small⟩

theorem Named.append {table pool : Table} {place : Nat} (inside : pool.stop 1 ≤ buffer.size)
    (named : Named buffer table pool place) : Named (buffer ++ rest) table pool place := by
  intro i inRange
  obtain ⟨offset, text, found, isText⟩ := named i inRange
  exact ⟨offset, text, Buffer.wordAt?_append_of_eq_some rest found,
    (poolText?_append rest inside offset).trans isText⟩

theorem SetsMet.append {sets : Table} {symbols records : Nat}
    (met : SetsMet buffer sets symbols records) :
    SetsMet (buffer ++ rest) sets symbols records := by
  intro i inRange
  obtain ⟨start, length, isStart, isLength, inside, entries⟩ := met i inRange
  refine ⟨start, length, Buffer.wordAt?_append_of_eq_some rest isStart,
    Buffer.wordAt?_append_of_eq_some rest isLength, size_le_append rest inside, ?_⟩
  intro j isEntry
  rw [Buffer.wordAt?_append rest (show start + j * 4 + 4 ≤ buffer.size by omega)]
  exact entries j isEntry

theorem BucketsMet.append {buckets binary : Table} (met : BucketsMet buffer buckets binary) :
    BucketsMet (buffer ++ rest) buckets binary := by
  refine ⟨met.1, ?_⟩
  intro i inRange
  obtain ⟨start, length, isStart, isLength, inside⟩ := met.2 i inRange
  exact ⟨start, length, Buffer.wordAt?_append_of_eq_some rest isStart,
    Buffer.wordAt?_append_of_eq_some rest isLength, inside⟩

theorem TagsRead.append {strings : Table} {offset : Nat} {locales : List Locale}
    (inside : strings.stop 1 ≤ buffer.size) (read : TagsRead buffer strings offset locales) :
    TagsRead (buffer ++ rest) strings offset locales := by
  intro i locale isLocale
  obtain ⟨place, tag, isPlace, isTag, isRead⟩ := read i locale isLocale
  exact ⟨place, tag, Buffer.wordAt?_append_of_eq_some rest isPlace,
    (poolText?_append rest inside place).trans isTag, isRead⟩

theorem ShardChecked.append {terminals strings sets : Table} {offset : Nat} {shard : ShardLayout}
    (terminalsInside : terminals.stop 1 ≤ buffer.size) (stringsInside : strings.stop 1 ≤ buffer.size)
    (checked : ShardChecked buffer terminals strings sets offset shard) :
    ShardChecked (buffer ++ rest) terminals strings sets offset shard where
  locales := Buffer.wordAt?_append_of_eq_some rest checked.locales
  exact := checked.exact.imp_right (Buffer.wordAt?_append_of_eq_some rest)
  folded := checked.folded.imp_right (Buffer.wordAt?_append_of_eq_some rest)
  unary := checked.unary.imp_right (Buffer.wordAt?_append_of_eq_some rest)
  buckets := checked.buckets.imp_right (Buffer.wordAt?_append_of_eq_some rest)
  binary := checked.binary.imp_right (Buffer.wordAt?_append_of_eq_some rest)
  inside := size_le_append rest checked.inside
  tags := checked.tags.append rest stringsInside
  exactTexts := checked.exactTexts.append rest terminalsInside
  exactSets := checked.exactSets.append rest
  foldedTexts := checked.foldedTexts.append rest terminalsInside
  foldedSets := checked.foldedSets.append rest
  unarySets := checked.unarySets.append rest
  bucketsMet := checked.bucketsMet.append rest
  binarySets := checked.binarySets.append rest

theorem slots_append {limit : Nat}
    (below : Below buffer ⟨header buffer 56, structuralCount⟩ 4 0 limit)
    (room : headerSize ≤ buffer.size) : slots (buffer ++ rest) = slots buffer := by
  have each (i : Nat) (inRange : i < structuralCount) :
      slot (buffer ++ rest) i = slot buffer i := by
    obtain ⟨value, found, _⟩ := below i inRange
    rw [Nat.add_zero] at found
    rw [slot, slot, header_append rest room (by decide), found,
      Buffer.wordAt?_append_of_eq_some rest found]
  have runs : (Vector.ofFn fun n : Fin (Structural.longestRun + 1) =>
      slot (buffer ++ rest) (5 + n.val)) = Vector.ofFn fun n => slot buffer (5 + n.val) := by
    congr 1
    funext n
    exact each _ (by have := n.isLt; rw [structuralCount]; omega)
  rw [slots, slots, each 0 (by decide), each 1 (by decide), each 2 (by decide), each 3 (by decide),
    each 4 (by decide), runs]

variable {layout : Layout}

theorem Reads.append {limit : Nat} (reads : layout.Reads buffer) (room : headerSize ≤ buffer.size)
    (below : Below buffer ⟨header buffer 56, structuralCount⟩ 4 0 limit) :
    layout.Reads (buffer ++ rest) := by
  have field {position : Nat} (within : position + 4 ≤ headerSize) :
      header (buffer ++ rest) position = header buffer position := header_append rest room within
  exact {
    hasNames := by rw [field (by decide), reads.hasNames]
    symbolCount := by rw [field (by decide), reads.symbolCount]
    terminals := by rw [field (by decide), field (by decide), reads.terminals]
    strings := by rw [field (by decide), field (by decide), reads.strings]
    records := by rw [field (by decide), field (by decide), reads.records]
    sets := by rw [field (by decide), field (by decide), reads.sets]
    filters := by rw [field (by decide), field (by decide), reads.filters]
    labels := by rw [field (by decide), field (by decide), reads.labels]
    names := by rw [field (by decide), field (by decide), reads.names]
    structural := by rw [slots_append rest below room, reads.structural] }

/-- What is in order in a buffer is in order in a longer one, at the same places. -/
theorem Checked.append (checked : layout.Checked buffer) : layout.Checked (buffer ++ rest) := by
  have field {position : Nat} (within : position + 4 ≤ headerSize) :
      header (buffer ++ rest) position = header buffer position :=
    header_append rest checked.headerInside within
  have magicInside : 4 ≤ buffer.size := Nat.le_trans (by decide) checked.headerInside
  exact {
    checked.toReads.append rest checked.headerInside checked.slotSymbols with
    headerInside := size_le_append rest checked.headerInside
    isMagic := by rw [Buffer.extract_append rest 0 magicInside, checked.isMagic]
    isVersion := by rw [field (by decide), checked.isVersion]
    terminalsInside := size_le_append rest checked.terminalsInside
    stringsInside := size_le_append rest checked.stringsInside
    recordsInside := size_le_append rest checked.recordsInside
    setsInside := size_le_append rest checked.setsInside
    filtersInside := size_le_append rest checked.filtersInside
    labelsInside := size_le_append rest checked.labelsInside
    namesInside := size_le_append rest checked.namesInside
    recordSymbols := checked.recordSymbols.append rest
    setsMet := checked.setsMet.append rest
    slotSymbols := by
      rw [field (by decide)]
      exact checked.slotSymbols.append rest
    labelTexts := checked.labelTexts.append rest checked.stringsInside
    labelSymbols := checked.labelSymbols.append rest
    nameTexts := checked.nameTexts.append rest checked.stringsInside
    offsetsInside := by
      rw [field (by decide), field (by decide)]
      exact size_le_append rest checked.offsetsInside
    shards := by
      rw [field (by decide), field (by decide)]
      apply checked.shards.imp
      rintro i shard ⟨offset, isOffset, isShard⟩
      exact ⟨offset, Buffer.wordAt?_append_of_eq_some rest isOffset,
        isShard.append rest checked.terminalsInside checked.stringsInside⟩ }

end Layout

/-! ### Lookups do not see what was appended -/

section
variable {table : Table} {width : Nat} {order order' : Nat → Option Ordering}

/-- Searches that compare every record alike find the same. -/
theorem search_congr {lo hi : Nat}
    (same : ∀ i < hi, order (table.offset + i * width) = order' (table.offset + i * width)) :
    search table width order lo hi = search table width order' lo hi := by
  fun_induction search table width order lo hi with
  | case1 lo hi below mid place absent =>
    have isMid : mid < hi := by omega
    rw [search, if_pos below]
    simp only [← same mid isMid, mid, place] at absent ⊢
    rw [absent]
  | case2 lo hi below mid place isLess ih =>
    have isMid : mid < hi := by omega
    rw [ih same, eq_comm, search, if_pos below]
    simp only [← same mid isMid, mid, place] at isLess ⊢
    rw [isLess]
  | case3 lo hi below mid place isGreater ih =>
    have isMid : mid < hi := by omega
    rw [ih fun i inRange => same i (Nat.lt_trans inRange isMid), eq_comm, search, if_pos below]
    simp only [← same mid isMid, mid, place] at isGreater ⊢
    rw [isGreater]
  | case4 lo hi below mid place isEqual =>
    have isMid : mid < hi := by omega
    rw [search, if_pos below]
    simp only [← same mid isMid, mid, place] at isEqual ⊢
    rw [isEqual]
  | case5 lo hi beyond => rw [search, if_neg beyond]

/-- What is read from the record that a search finds is the same where every record reads alike. -/
theorem bind_search_congr {value value' : Nat → Option β}
    (orders : ∀ i < table.count, order (table.offset + i * width) =
      order' (table.offset + i * width))
    (values : ∀ i < table.count, value (table.offset + i * width) =
      value' (table.offset + i * width)) :
    (search table width order 0 table.count).bind value =
      (search table width order' 0 table.count).bind value' := by
  rw [search_congr orders]
  cases found : search table width order' 0 table.count with
  | none => rfl
  | some offset =>
    obtain ⟨i, inRange, rfl⟩ := search_inside found
    exact values i inRange

end

/-- Both rule sets give the same answer to every question. -/
structure SameAnswers (r t : RuleSet) : Prop where
  symbolCount : t.layout.symbolCount = r.layout.symbolCount
  hasNames : t.layout.hasNames = r.layout.hasNames
  structural : t.layout.structural = r.layout.structural
  shardCount : t.shardCount = r.shardCount
  shardLocales : ∀ shard, t.shardLocales shard = r.shardLocales shard
  selectShards : ∀ texts, t.selectShards texts = r.selectShards texts
  terminals : t.terminals = r.terminals
  findTerminal : ∀ shard text caseSensitive,
    t.findTerminal shard text caseSensitive = r.findTerminal shard text caseSensitive
  findUnary : ∀ shard operand, t.findUnary shard operand = r.findUnary shard operand
  findBinary : ∀ shard left right, t.findBinary shard left right = r.findBinary shard left right
  heads : ∀ set, t.heads set = r.heads set
  isFilter : ∀ callback, t.isFilter callback = r.isFilter callback
  label : ∀ name, t.label? name = r.label? name
  debugName : ∀ symbol, t.debugName? symbol = r.debugName? symbol

/-- The rule set with more bytes behind it. -/
def extend (r : RuleSet) (rest : Array UInt8) : RuleSet := { r with buffer := r.buffer ++ rest }

section
variable {r : RuleSet}

theorem wordAt?_extend {offset : Nat} (room : offset + 4 ≤ r.buffer.size) :
    (r.extend rest).wordAt? offset = r.wordAt? offset :=
  Buffer.wordAt?_append rest room

theorem wordAt?_extend_of_eq_some {offset value : Nat} (found : r.wordAt? offset = some value) :
    (r.extend rest).wordAt? offset = r.wordAt? offset :=
  wordAt?_extend rest (Layout.room_of_wordAt? found)

theorem wordOrder_extend {table : Table} {width : Nat} (inside : table.stop width ≤ r.buffer.size)
    (wide : 4 ≤ width) (key i : Nat) (inRange : i < table.count) :
    (r.extend rest).wordOrder key (table.offset + i * width) =
      r.wordOrder key (table.offset + i * width) := by
  have room : table.offset + i * width + 4 ≤ r.buffer.size := by
    have := Nat.mul_le_mul_right width (Nat.succ_le_of_lt inRange)
    rw [Nat.succ_mul] at this
    rw [Table.stop] at inside
    omega
  rw [wordOrder, wordOrder, wordAt?_extend rest room]

theorem textOrder_extend {table pool : Table} (inside : pool.stop 1 ≤ r.buffer.size)
    (named : Layout.Named r.buffer table pool 0) (key : String) (i : Nat)
    (inRange : i < table.count) :
    (r.extend rest).textOrder (poolText? (r.extend rest).buffer pool) key
        (table.offset + i * 8) =
      r.textOrder (poolText? r.buffer pool) key (table.offset + i * 8) := by
  obtain ⟨offset, _, isOffset, _⟩ := named i inRange
  rw [Nat.add_zero] at isOffset
  have still : (r.extend rest).wordAt? (table.offset + i * 8) = r.wordAt? (table.offset + i * 8) :=
    wordAt?_extend_of_eq_some rest isOffset
  have texts : poolText? (r.extend rest).buffer pool = poolText? r.buffer pool := by
    funext place
    exact poolText?_append rest inside place
  rw [textOrder, textOrder, still, texts]

/-- The second word of each record is read as before. -/
theorem second_extend {table : Table} {limit : Nat} (below : Layout.Below r.buffer table 8 4 limit)
    (i : Nat) (inRange : i < table.count) :
    (r.extend rest).wordAt? (table.offset + i * 8 + 4) = r.wordAt? (table.offset + i * 8 + 4) := by
  obtain ⟨value, found, _⟩ := below i inRange
  exact wordAt?_extend_of_eq_some rest found

theorem findPair_extend {binary : Table} (inside : binary.stop 12 ≤ r.buffer.size)
    (left right : Symbol) {i count : Nat} (inRange : i + count ≤ binary.count) :
    (r.extend rest).findPair binary left right i count = r.findPair binary left right i count := by
  induction count generalizing i with
  | zero => rfl
  | succ count ih =>
    rw [Table.stop] at inside
    have first := wordAt?_extend rest (show binary.offset + i * 12 + 4 ≤ r.buffer.size by omega)
    have second := wordAt?_extend rest (show binary.offset + i * 12 + 4 + 4 ≤ r.buffer.size by omega)
    have third := wordAt?_extend rest (show binary.offset + i * 12 + 8 + 4 ≤ r.buffer.size by omega)
    rw [findPair, findPair, first, second, third, ih (by omega)]

/-- An entry that refers to a record of the buffer is decoded as before. -/
theorem decodeHead?_extend (checked : r.layout.Checked r.buffer) {entry : Int} {symbols : Nat}
    (below : Layout.EntryBelow entry symbols r.layout.records.count) :
    (r.extend rest).decodeHead? entry = r.decodeHead? entry := by
  unfold Layout.EntryBelow at below
  unfold decodeHead?
  split at below
  · next positive => rw [if_pos positive, if_pos positive]
  · next negative =>
    rw [if_neg negative, if_neg negative]
    have inside := checked.recordsInside
    rw [Table.stop, recordSize] at inside
    have word (place : Nat) (within : place + 4 ≤ 20) := wordAt?_extend rest
      (show r.layout.records.offset + (-entry - 1).toNat * recordSize + place + 4 ≤ r.buffer.size by
        rw [recordSize]
        omega)
    have long := Buffer.longAt?_append rest
      (show r.layout.records.offset + (-entry - 1).toNat * recordSize + 8 + 8 ≤ r.buffer.size by
        rw [recordSize]
        omega)
    have first := word 0 (by decide)
    rw [Nat.add_zero] at first
    have same : (r.extend rest).layout = r.layout := rfl
    have bytes : (r.extend rest).buffer = r.buffer ++ rest := rfl
    simp only [same, bytes, first, long, word 4 (by decide), word 16 (by decide)]

theorem heads_extend (checked : r.layout.Checked r.buffer) (set : Nat) :
    (r.extend rest).heads set = r.heads set := by
  have same : (r.extend rest).layout = r.layout := rfl
  unfold heads
  rw [same]
  by_cases inRange : set < r.layout.sets.count
  · rw [if_pos inRange, if_pos inRange]
    obtain ⟨start, count, isStart, isCount, inside, entries⟩ := checked.setsMet set inRange
    have first : r.wordAt? (r.layout.sets.offset + set * 8) = some start := isStart
    have second : r.wordAt? (r.layout.sets.offset + set * 8 + 4) = some count := isCount
    simp only [wordAt?_extend_of_eq_some rest first, wordAt?_extend_of_eq_some rest second, first,
      second, Option.getD_some]
    apply List.filterMap_congr
    intro j isEntry
    have room : start + j * 4 + 4 ≤ r.buffer.size := by
      have := List.mem_range.mp isEntry
      omega
    obtain ⟨entry, found⟩ := Layout.exists_wordAt? room
    have below := entries j (List.mem_range.mp isEntry)
    rw [found, Option.getD_some] at below
    have isWord : r.wordAt? (start + j * 4) = some entry := found
    rw [wordAt?_extend_of_eq_some rest isWord, isWord, Option.bind_some, Option.bind_some,
      decodeHead?_extend rest checked below]
  · rw [if_neg inRange, if_neg inRange]

/-- What is looked up in a shard is the same where it is in every checked shard. -/
theorem bind_shard_congr (checked : r.layout.Checked r.buffer) {i : Nat}
    {f g : ShardLayout → Option β}
    (same : ∀ shard offset, Layout.ShardChecked r.buffer r.layout.terminals r.layout.strings
      r.layout.sets offset shard → f shard = g shard) :
    (r.shard? i).bind f = (r.shard? i).bind g := by
  cases isShard : r.shard? i with
  | none => rfl
  | some shard =>
    obtain ⟨inRange, rfl⟩ := List.getElem?_eq_some_iff.mp isShard
    obtain ⟨offset, _, shardChecked⟩ := checked.shards.get
      (by rw [checked.shards.length_eq]; exact inRange) inRange
    exact same _ offset shardChecked

theorem findTerminal_extend (checked : r.layout.Checked r.buffer) (i : Nat) (text : String)
    (caseSensitive : Bool) :
    (r.extend rest).findTerminal i text caseSensitive = r.findTerminal i text caseSensitive := by
  apply bind_shard_congr checked
  intro shard offset shardChecked
  cases caseSensitive with
  | true =>
    exact bind_search_congr
      (textOrder_extend rest checked.terminalsInside shardChecked.exactTexts text)
      (second_extend rest shardChecked.exactSets)
  | false =>
    exact bind_search_congr
      (textOrder_extend rest checked.terminalsInside shardChecked.foldedTexts text)
      (second_extend rest shardChecked.foldedSets)

theorem findUnary_extend (checked : r.layout.Checked r.buffer) (i : Nat) (operand : Symbol) :
    (r.extend rest).findUnary i operand = r.findUnary i operand := by
  apply bind_shard_congr checked
  intro shard offset shardChecked
  have inside : shard.unary.stop 8 ≤ r.buffer.size :=
    Nat.le_of_add_right_le (Layout.room_of_wordAt? shardChecked.buckets.2)
  exact bind_search_congr (wordOrder_extend rest inside (by decide) operand)
    (second_extend rest shardChecked.unarySets)

theorem findBinary_extend (checked : r.layout.Checked r.buffer) (i : Nat) (left right : Symbol) :
    (r.extend rest).findBinary i left right = r.findBinary i left right := by
  apply bind_shard_congr checked
  intro shard offset shardChecked
  by_cases empty : shard.binary.count = 0
  · rw [if_pos empty, if_pos empty]
  · rw [if_neg empty, if_neg empty]
    have even := shardChecked.bucketsMet.1 (Nat.pos_of_ne_zero empty)
    have isBucket : bucketOf left right shard.buckets.count < shard.buckets.count :=
      Nat.mod_lt _ (Nat.pos_of_isPowerOfTwo even)
    obtain ⟨start, count, isStart, isCount, inside⟩ := shardChecked.bucketsMet.2 _ isBucket
    have first : r.wordAt? _ = some start := isStart
    have second : r.wordAt? _ = some count := isCount
    dsimp only [bind]
    rw [wordAt?_extend_of_eq_some rest first, wordAt?_extend_of_eq_some rest second, first, second]
    exact findPair_extend rest shardChecked.inside left right inside

theorem isFilter_extend (checked : r.layout.Checked r.buffer) (callback : UInt32) :
    (r.extend rest).isFilter callback = r.isFilter callback :=
  congrArg Option.isSome
    (search_congr (wordOrder_extend rest checked.filtersInside (by decide) callback.toNat))

theorem label?_extend (checked : r.layout.Checked r.buffer) (name : String) :
    (r.extend rest).label? name = r.label? name :=
  bind_search_congr (textOrder_extend rest checked.stringsInside checked.labelTexts name)
    (second_extend rest checked.labelSymbols)

theorem debugName?_extend (checked : r.layout.Checked r.buffer) (symbol : Symbol) :
    (r.extend rest).debugName? symbol = r.debugName? symbol := by
  apply bind_search_congr (wordOrder_extend rest checked.namesInside (by decide) symbol)
  intro i inRange
  obtain ⟨offset, _, found, _⟩ := checked.nameTexts i inRange
  have isWord : r.wordAt? (r.layout.names.offset + i * 8 + 4) = some offset := found
  dsimp only [bind]
  rw [wordAt?_extend_of_eq_some rest isWord, isWord]
  exact poolText?_append rest checked.stringsInside offset

theorem terminals_extend (checked : r.layout.Checked r.buffer) :
    (r.extend rest).terminals = r.terminals := by
  have inside := checked.terminalsInside
  rw [Table.stop, Nat.mul_one] at inside
  have bytes := Buffer.extract_append rest r.layout.terminals.offset inside
  simp only [terminals, extend, poolTexts, bytes]

/-- A verified rule set does not see bytes behind it. -/
theorem sameAnswers_extend (checked : r.layout.Checked r.buffer) :
    r.SameAnswers (r.extend rest) where
  symbolCount := rfl
  hasNames := rfl
  structural := rfl
  shardCount := rfl
  shardLocales _ := rfl
  selectShards _ := rfl
  terminals := terminals_extend rest checked
  findTerminal := findTerminal_extend rest checked
  findUnary := findUnary_extend rest checked
  findBinary := findBinary_extend rest checked
  heads := heads_extend rest checked
  isFilter := isFilter_extend rest checked
  label := label?_extend rest checked
  debugName := debugName?_extend rest checked

end

/-- A buffer that is accepted is accepted with more bytes behind it, and gives the same answers. -/
theorem ofBytes_append (accepted : ofBytes buffer = .ok r) :
    ofBytes (buffer ++ rest) = .ok (r.extend rest) ∧ r.SameAnswers (r.extend rest) := by
  obtain ⟨rfl, checked⟩ := ofBytes_eq_ok.mp accepted
  exact ⟨ofBytes_eq_ok.mpr ⟨rfl, checked.append rest⟩, sameAnswers_extend rest checked⟩

namespace Blocks

theorem length_bytes (b : Blocks) : b.bytes.length = b.namesAt + b.names.length * 8 := by
  rw [bytes, List.length_append, length_nameBytes]
  simp only [List.length_append, length_header, namesAt, labelsAt, filtersAt, structuralAt,
    offsetsAt, shardsAt, setsAt, entriesAt, recordsAt, stringsAt]

end Blocks

/-- No byte of a written grammar can be missing: its names are the last section, and they are
checked to end inside the buffer. -/
theorem length_le_of_ofBytes {n : NormalForm} {withNames : Bool}
    (fit : (encode n withNames).length < wordBound) {part missing : List UInt8}
    (whole : part ++ missing = encode n withNames) {r : RuleSet}
    (accepted : ofBytes part.toArray = .ok r) : (encode n withNames).length ≤ part.length := by
  obtain ⟨isPart, checked⟩ := ofBytes_eq_ok.mp accepted
  rw [isPart] at checked
  have reads := (checked.append missing.toArray).toReads
  rw [List.append_toArray, whole] at reads
  have small : (encode n withNames).toArray.size < wordBound := by rwa [List.size_toArray]
  have fits := (Blocks.ofNormalForm n withNames).laid.fits small reads
  have inside := checked.namesInside
  rw [fits.names, Table.stop, List.size_toArray] at inside
  calc
    (encode n withNames).length = _ := Blocks.length_bytes _
    _ ≤ part.length := inside

/-- Grammars are written so that none of their bytes can be left out, and what is accepted is
accepted with any bytes behind it, and gives the same answers. -/
theorem ofBytes_extent :
    (∀ (n : NormalForm) (withNames : Bool), (encode n withNames).length < wordBound →
      ∀ part, part <+: encode n withNames → part ≠ encode n withNames →
        ∃ e, ofBytes part.toArray = .error e) ∧
    (∀ buffer r, ofBytes buffer = .ok r →
      ∀ suffix, ∃ t, ofBytes (buffer ++ suffix) = .ok t ∧ r.SameAnswers t) := by
  constructor
  · intro n withNames fit part start proper
    cases result : ofBytes part.toArray with
    | error e => exact ⟨e, rfl⟩
    | ok r =>
      obtain ⟨missing, whole⟩ := start
      have long := length_le_of_ofBytes fit whole result
      exact absurd (List.IsPrefix.eq_of_length_le ⟨missing, whole⟩ long) proper
  · intro buffer r accepted suffix
    exact ⟨r.extend suffix, ofBytes_append suffix accepted⟩

/-- The last byte is missing, or two more follow. -/
theorem ofBytes_extent_labelledPair :
    (∃ e, ofBytes ((encode labelledPair true).dropLast).toArray = .error e) ∧
    ∃ r t, ofBytes (encode labelledPair true).toArray = .ok r ∧
      ofBytes ((encode labelledPair true).toArray ++ #[4, 5]) = .ok t ∧ r.SameAnswers t := by
  constructor
  · have length : 0 < (encode labelledPair true).length ∧
        (encode labelledPair true).length < wordBound := by
      rw [encode_eq_listed]
      decide +kernel
    obtain ⟨nonempty, fit⟩ := length
    have proper : (encode labelledPair true).dropLast ≠ encode labelledPair true := by
      intro same
      have lengths := congrArg List.length same
      rw [List.length_dropLast] at lengths
      omega
    exact ofBytes_extent.1 labelledPair true fit _ (List.dropLast_prefix _) proper
  · have accepted := labelledPair_accepted
    cases result : ofBytes (encode labelledPair true).toArray with
    | error e =>
      rw [result] at accepted
      cases accepted
    | ok r =>
      obtain ⟨t, isRest, same⟩ := ofBytes_extent.2 _ r result #[4, 5]
      exact ⟨r, t, rfl, isRest, same⟩

end RuleSet

end Phrasebook
