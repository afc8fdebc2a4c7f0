import Phrasebook.Proofs.RuleSet.Faithful
import Phrasebook.Proofs.Text.LocaleTags

namespace Phrasebook.RuleSet

/-- Labels and names are of symbols in use and have no NUL. -/
structure Legible (n : NormalForm) : Prop where
  labels : ∀ name s, n.labels[name]? = some s → NulFree name ∧ s ≤ n.symbolCount
  names : ∀ s name, n.nameOf? s = some name → NulFree name ∧ s ≤ n.symbolCount

/-- Spreading records over buckets brings in none. -/
theorem mem_of_mem_bucketLists {records : List ((Symbol × Symbol) × Nat)}
    {record : (Symbol × Symbol) × Nat} (member : record ∈ (bucketLists records).flatten) :
    record ∈ records := by
  obtain ⟨bucket, isBucket, inBucket⟩ := List.mem_flatten.mp member
  obtain ⟨i, found⟩ := List.mem_iff_getElem?.mp isBucket
  have inRange : i < bucketCount records := by
    rw [← length_bucketLists]
    exact (List.getElem?_eq_some_iff.mp found).1
  rw [bucketLists, List.getElem?_map, Array.getElem?_toList, getElem?_intoBuckets _ _ inRange] at found
  obtain rfl := Option.some.inj found
  exact List.mem_of_mem_filter inBucket

section
variable {buffer : Array UInt8} {table : Table} {items : List β}

/-- A table of two words a record. -/
theorem exists_of_pairs {key value : β → Nat}
    (lies : Lies buffer table.offset (items.flatMap fun x => word (key x) ++ word (value x)))
    (count : table.count = items.length) {i : Nat} (inRange : i < table.count) :
    ∃ x ∈ items, Buffer.wordAt? buffer (table.offset + i * 8) = some (key x % wordBound) ∧
      Buffer.wordAt? buffer (table.offset + i * 8 + 4) = some (value x % wordBound) := by
  have uniform (x : β) : (word (key x) ++ word (value x)).length = 8 := by
    simp [length_word]
  have inItems : i < items.length := count ▸ inRange
  have here := lies_flatMap uniform lies (List.getElem?_eq_getElem inItems)
  rw [lies_append, length_word] at here
  exact ⟨items[i], List.getElem_mem inItems, Buffer.wordAt?_of_lies here.1,
    Buffer.wordAt?_of_lies here.2⟩

theorem below_of_pairs {key value : β → Nat}
    (lies : Lies buffer table.offset (items.flatMap fun x => word (key x) ++ word (value x)))
    (count : table.count = items.length) {limit : Nat} (low : limit ≤ wordBound)
    (small : ∀ x ∈ items, value x < limit) : Layout.Below buffer table 8 4 limit := by
  intro i inRange
  obtain ⟨x, member, _, isValue⟩ := exists_of_pairs lies count inRange
  have below := small x member
  rw [Nat.mod_eq_of_lt (Nat.lt_of_lt_of_le below low)] at isValue
  exact ⟨value x, isValue, below⟩

end

namespace Encoded

variable {n : NormalForm} {withNames : Bool} {r : RuleSet}

theorem recordSymbols (e : Encoded n withNames r) :
    Layout.Below r.buffer r.layout.records recordSize 0 (n.symbolCount + 1) := by
  intro i inRange
  rw [e.fits.records] at inRange ⊢
  have found : (interned n withNames).records[i]? =
      some ((Blocks.ofNormalForm n withNames).records[i]) :=
    (Array.getElem?_toList ..).symm.trans (List.getElem?_eq_getElem inRange)
  obtain ⟨b, has⟩ := (interns_shards n _ _).1.recordsMeet i _ found
  have le := e.bounded.heads b _ has
  have here := lies_flatMap length_encodeRecord e.laid.records (List.getElem?_eq_getElem inRange)
  simp only [encodeRecord, lies_append] at here
  have below := Nat.lt_succ_of_le le
  exact ⟨_, Buffer.wordAt?_word here.1.1.1 (Nat.lt_of_lt_of_le below e.limit_le), below⟩

/-- An entry of a set refers to a symbol or to a record. -/
theorem entryBelow (e : Encoded n withNames r) {entry : Int} {head : Head}
    (isEntry : EntryOf (interned n withNames).records entry head) (le : head.symbol ≤ n.symbolCount) :
    Layout.EntryBelow entry (n.symbolCount + 1) (Blocks.ofNormalForm n withNames).records.length := by
  unfold Layout.EntryBelow
  rcases isEntry with ⟨_, rfl⟩ | ⟨i, found, rfl⟩
  · rw [toSigned_mod (Nat.lt_of_le_of_lt le e.few), if_pos (Int.natCast_nonneg _),
      Int.toNat_natCast]
    exact Nat.lt_succ_of_le le
  · have index : (-(-(i : Int) - 1) - 1).toNat = i := by omega
    rw [if_neg (by omega), index]
    exact (List.getElem?_eq_some_iff.mp ((Array.getElem?_toList ..).trans found)).1

theorem setsMet (e : Encoded n withNames r) :
    Layout.SetsMet r.buffer r.layout.sets (n.symbolCount + 1) r.layout.records.count := by
  intro i inRange
  rw [e.fits.sets] at inRange ⊢
  rw [e.fits.records]
  have found := List.getElem?_eq_getElem inRange
  generalize (Blocks.ofNormalForm n withNames).sets[i] = entries at found
  obtain ⟨heads, each, has⟩ :=
    (interns_shards n _ _).1.setsMeet i entries ((Array.getElem?_toList ..).symm.trans found)
  obtain ⟨start, directory, lies⟩ := lies_set e.laid found
  rw [lies_append, length_word] at directory
  have size := lies.le_size
  rw [length_flatMap length_signedWord] at size
  have fit := e.fit
  refine ⟨start, entries.length, Buffer.wordAt?_word directory.1 (by omega),
    Buffer.wordAt?_word directory.2 (by omega), size, fun j inEntries => ?_⟩
  have inHeads : j < heads.length := each.length_eq ▸ inEntries
  have isEntry : EntryOf (interned n withNames).records entries[j] heads[j] :=
    each.get inEntries inHeads
  obtain ⟨b, isHead⟩ := has _ (List.getElem_mem inHeads)
  have le := e.bounded.heads b _ isHead
  have records : (Blocks.ofNormalForm n withNames).records.length < 2 ^ 31 := by
    have := e.laid.records.le_size
    rw [Blocks.length_recordBytes, recordSize] at this
    rw [wordBound] at fit
    omega
  have bounds : -(2 ^ 31) ≤ entries[j] ∧ entries[j] < 2 ^ 31 :=
    EntryOf.bounds records isEntry (Nat.lt_of_le_of_lt le e.few)
  obtain ⟨value, isValue, signed⟩ := Option.map_eq_some_iff.mp (Buffer.wordAt?_signedWord
    (lies_flatMap length_signedWord lies (List.getElem?_eq_getElem inEntries)) bounds.1 bounds.2)
  rw [isValue, Option.getD_some, signed]
  exact e.entryBelow isEntry le

theorem slotSymbols (e : Encoded n withNames r) :
    Layout.Below r.buffer ⟨Layout.header r.buffer 56, structuralCount⟩ 4 0 (n.symbolCount + 1) := by
  have size := e.laid.structural.le_size
  have fit := e.fit
  have place : Layout.header r.buffer 56 = (Blocks.ofNormalForm n withNames).structuralAt :=
    e.laid.header_eq (i := 13) rfl (by omega)
  intro i inRange
  have inSlots : i < n.structural.toList.length := by
    rw [Structural.Symbols.toList, List.length_append, Vector.length_toList]
    exact inRange
  have here := lies_flatMap length_word e.laid.structural (List.getElem?_eq_getElem inSlots)
  have below := Nat.lt_succ_of_le (e.slots _ (List.getElem_mem inSlots))
  refine ⟨_, ?_, below⟩
  rw [place]
  exact Buffer.wordAt?_word here (Nat.lt_of_lt_of_le below e.limit_le)

/-- A string that was written can be read. -/
theorem string_reads (e : Encoded n withNames r) {text : String}
    (member : text ∈ stringsOf n withNames) (clean : NulFree text) :
    (Pool.ofTexts (stringsOf n withNames)).offset text < wordBound ∧
      poolText? r.buffer r.layout.strings ((Pool.ofTexts (stringsOf n withNames)).offset text) =
        some text := by
  have lies : Lies r.buffer r.layout.strings.offset (Pool.ofTexts (stringsOf n withNames)).bytes := by
    rw [e.fits.strings]
    exact e.laid.strings
  have count : r.layout.strings.count = (Pool.ofTexts (stringsOf n withNames)).bytes.length := by
    rw [e.fits.strings]
    rfl
  obtain ⟨small, isText⟩ := Pool.poolText?_ofTexts lies count member clean
  exact ⟨Nat.lt_trans small e.fit, isText⟩

theorem label_mem_stringsOf {name : String} {symbol : Symbol}
    (member : (name, symbol) ∈ n.labels.toList) : name ∈ stringsOf n withNames := by
  have isKey : name ∈ n.labels.keys := by
    rw [Std.TreeMap.mem_keys, Std.TreeMap.mem_iff_isSome_getElem?,
      Std.TreeMap.mem_toList_iff_getElem?_eq_some.mp member]
    rfl
  exact List.mem_append_left _ (List.mem_append_right _ isKey)

theorem name_mem_stringsOf {symbol : Symbol} {name : String}
    (member : (symbol, name) ∈ n.numbering.names.toList) : name ∈ stringsOf n true := by
  have values : n.numbering.names.values = n.numbering.names.toList.map (·.2) :=
    Std.TreeMap.foldr_eq_foldr_toList.trans (List.map_eq_foldr ..).symm
  refine List.mem_append_right _ ?_
  rw [if_pos rfl, values]
  exact List.mem_map.mpr ⟨(symbol, name), member, rfl⟩

theorem locale_mem_stringsOf {i : Nat} {shard : Shard} (found : n.shards[i]? = some shard)
    {locale : Locale} (member : locale ∈ shard.locales) : locale.display ∈ stringsOf n withNames := by
  refine List.mem_append_left _ (List.mem_append_left _ (List.mem_flatMap.mpr ⟨shard, ?_, ?_⟩))
  · exact Array.mem_toList_iff.mpr (Array.mem_of_getElem? found)
  · exact List.mem_map.mpr ⟨locale, member, rfl⟩

/-- The table of labels, each with the place of its name. -/
theorem labels_lie (e : Encoded n withNames r) :
    r.layout.labels.count = n.labels.toList.length ∧
      Lies r.buffer r.layout.labels.offset (n.labels.toList.flatMap fun record =>
        word ((Pool.ofTexts (stringsOf n withNames)).offset record.1) ++ word record.2) := by
  rw [e.fits.labels]
  refine ⟨List.length_map .., ?_⟩
  have lies := e.laid.labels
  have records : (Blocks.ofNormalForm n withNames).labels = n.labels.toList.map fun record =>
      ((Pool.ofTexts (stringsOf n withNames)).offset record.1, record.2) := rfl
  rw [Blocks.labelBytes, records, List.flatMap_map] at lies
  exact lies

/-- The table of names, each with its place. -/
theorem names_lie (e : Encoded n true r) :
    r.layout.names.count = n.numbering.names.toList.length ∧
      Lies r.buffer r.layout.names.offset (n.numbering.names.toList.flatMap fun record =>
        word record.1 ++ word ((Pool.ofTexts (stringsOf n true)).offset record.2)) := by
  rw [e.fits.names]
  refine ⟨List.length_map .., ?_⟩
  have lies := e.laid.names
  have records : (Blocks.ofNormalForm n true).names = n.numbering.names.toList.map fun record =>
      (record.1, (Pool.ofTexts (stringsOf n true)).offset record.2) := rfl
  rw [Blocks.nameBytes, records, List.flatMap_map] at lies
  exact lies

theorem names_count (e : Encoded n false r) : r.layout.names.count = 0 := by
  rw [e.fits.names]
  rfl

theorem labelTexts (e : Encoded n withNames r) (legible : Legible n) :
    Layout.Named r.buffer r.layout.labels r.layout.strings 0 := by
  intro i inRange
  obtain ⟨⟨name, symbol⟩, member, isName, _⟩ :=
    exists_of_pairs e.labels_lie.2 e.labels_lie.1 inRange
  have clean := (legible.labels name symbol (Std.TreeMap.mem_toList_iff_getElem?_eq_some.mp member)).1
  obtain ⟨small, isText⟩ := e.string_reads (label_mem_stringsOf member) clean
  rw [Nat.mod_eq_of_lt small] at isName
  exact ⟨_, name, isName, isText⟩

theorem labelSymbols (e : Encoded n withNames r) (legible : Legible n) :
    Layout.Below r.buffer r.layout.labels 8 4 (n.symbolCount + 1) := by
  refine below_of_pairs e.labels_lie.2 e.labels_lie.1 e.limit_le fun record member => ?_
  obtain ⟨name, symbol⟩ := record
  exact Nat.lt_succ_of_le
    (legible.labels name symbol (Std.TreeMap.mem_toList_iff_getElem?_eq_some.mp member)).2

theorem nameTexts (e : Encoded n withNames r) (legible : Legible n) :
    Layout.Named r.buffer r.layout.names r.layout.strings 4 := by
  intro i inRange
  cases withNames with
  | false =>
    rw [e.names_count] at inRange
    cases inRange
  | true =>
    obtain ⟨⟨symbol, name⟩, member, _, isName⟩ :=
      exists_of_pairs e.names_lie.2 e.names_lie.1 inRange
    have clean := (legible.names symbol name (Std.TreeMap.mem_toList_iff_getElem?_eq_some.mp member)).1
    obtain ⟨small, isText⟩ := e.string_reads (name_mem_stringsOf member) clean
    rw [Nat.mod_eq_of_lt small] at isName
    exact ⟨_, name, isName, isText⟩

section
variable {i : Nat} {shard : Shard} {tables : Numbered} {offset : Nat}

/-- The literals of a shard can be read, and their head sets are there. -/
theorem literals_met (e : Encoded n withNames r) (found : n.shards[i]? = some shard)
    (caseSensitive : Bool) {m : Std.TreeMap String (List Head)}
    (isKey : ∀ text ∈ m, shard.tables.HasKey (.literal text caseSensitive))
    {records : List (String × Nat)} (tabulates : (interned n withNames).Tabulates records m.toList)
    {table : Table} (count : table.count = records.length)
    (lies : Lies r.buffer table.offset (records.flatMap fun record =>
      word ((Pool.ofTexts (literalsOf n)).offset record.1) ++ word record.2)) :
    Layout.Named r.buffer table r.layout.terminals 0 ∧
      Layout.Below r.buffer table 8 4 r.layout.sets.count := by
  constructor
  · intro j inRange
    obtain ⟨record, member, isText, _⟩ := exists_of_pairs lies count inRange
    obtain ⟨small, text⟩ := e.terminal?_eq found (isKey _ (Compiled.mem_of_record tabulates member))
    rw [Nat.mod_eq_of_lt small] at isText
    exact ⟨_, record.1, isText, text⟩
  · exact below_of_pairs lies count e.sets_le fun record member => e.set_lt tabulates member

theorem tags_read (e : Encoded n withNames r) (found : n.shards[i]? = some shard)
    (lies : Lies r.buffer offset (tables.bytes (Pool.ofTexts (literalsOf n))
      (Pool.ofTexts (stringsOf n withNames)) shard.locales)) :
    Layout.TagsRead r.buffer r.layout.strings (offset + 4) shard.locales := by
  intro j locale isLocale
  have member := List.mem_of_getElem? isLocale
  obtain ⟨small, isText⟩ := e.string_reads (locale_mem_stringsOf found member)
    locale.nulFree_display
  have isOffset : (shard.locales.map ((Pool.ofTexts (stringsOf n withNames)).offset ·.display))[j]? =
      some ((Pool.ofTexts (stringsOf n withNames)).offset locale.display) := by
    rw [List.getElem?_map, isLocale]
    rfl
  have here := lies_flatMap length_word (Numbered.lies_locales lies) isOffset
  exact ⟨_, locale.display, Buffer.wordAt?_word here small, isText, locale.read_display⟩

/-- The buckets lie end to end and cover the pairs. -/
theorem buckets_met (laid : tables.Laid (Pool.ofTexts (literalsOf n)) r.buffer
      (tables.layout shard.locales offset)) (fit : r.buffer.size < wordBound) :
    Layout.BucketsMet r.buffer (tables.layout shard.locales offset).buckets
      (tables.layout shard.locales offset).binary := by
  refine ⟨fun _ => Nat.isPowerOfTwo_nextPowerOfTwo _, fun j inRange => ?_⟩
  have inLists : j < (bucketLists tables.binary).length := by
    rw [length_bucketLists]
    exact inRange
  have bucket := List.getElem?_eq_getElem inLists
  have range := getElem?_bucketRanges (bucketLists tables.binary) 0 bucket
  have inside := length_take_flatten (bucketLists tables.binary) bucket
  rw [length_flatten_bucketLists] at inside
  have binarySize := laid.binary.2.le_size
  rw [length_flatMap length_pairBytes, length_flatten_bucketLists] at binarySize
  have uniform (x : Nat × Nat) : (word x.1 ++ word x.2).length = 8 := by
    simp [length_word]
  obtain ⟨isStart, isCount⟩ := reads_two (lies_flatMap uniform laid.buckets.2 range) (by omega)
    (by omega)
  refine ⟨_, _, isStart, isCount, ?_⟩
  rw [Nat.zero_add]
  exact inside

/-- A shard is accepted where it was written. -/
theorem shardChecked (e : Encoded n withNames r)
    (found : n.shards[i]? = some shard)
    (lies : Lies r.buffer offset (tables.bytes (Pool.ofTexts (literalsOf n))
      (Pool.ofTexts (stringsOf n withNames)) shard.locales))
    (numbers : (interned n withNames).Numbers shard.tables tables) :
    Layout.ShardChecked r.buffer r.layout.terminals r.layout.strings r.layout.sets offset
      (tables.layout shard.locales offset) := by
  obtain ⟨reads, laid⟩ := Numbered.reads_layout e.fit lies
  obtain ⟨exactTexts, exactSets⟩ :=
    e.literals_met found true (fun text isKey => isKey) numbers.exact laid.exact.1 laid.exact.2
  obtain ⟨foldedTexts, foldedSets⟩ :=
    e.literals_met found false (fun text isKey => isKey) numbers.folded laid.folded.1 laid.folded.2
  refine { reads with
    inside := ?_
    tags := e.tags_read found lies
    exactTexts, exactSets, foldedTexts, foldedSets
    unarySets := below_of_pairs laid.unary.2 laid.unary.1 e.sets_le fun record member =>
      e.set_lt numbers.unary member
    bucketsMet := buckets_met laid e.fit
    binarySets := ?_ }
  · have size := laid.binary.2.le_size
    rw [length_flatMap length_pairBytes, length_flatten_bucketLists] at size
    exact size
  · intro j inRange
    have inPairs : j < (bucketLists tables.binary).flatten.length := by
      rw [length_flatten_bucketLists]
      exact inRange
    have here := lies_flatMap length_pairBytes laid.binary.2 (List.getElem?_eq_getElem inPairs)
    simp only [pairBytes, lies_append, length_word, List.length_append] at here
    have member := mem_of_mem_bucketLists (List.getElem_mem inPairs)
    exact ⟨_, Buffer.wordAt?_word here.2 (e.set_small numbers.binary member),
      e.set_lt numbers.binary member⟩

end

/-- What was written is accepted. -/
theorem checked (e : Encoded n withNames r) (legible : Legible n)
    (shards : List.Forall₂ (fun i shard => ∃ offset,
        Buffer.wordAt? r.buffer (Layout.header r.buffer 48 + i * 4) = some offset ∧
          Layout.ShardChecked r.buffer r.layout.terminals r.layout.strings r.layout.sets offset shard)
      (List.range (Layout.header r.buffer 52)) r.layout.shards) : r.layout.Checked r.buffer := by
  have fit := e.fit
  have terminals := e.laid.terminals.le_size
  have records := e.laid.records.le_size
  have sets := e.laid.sets.le_size
  have offsets := e.laid.offsets.le_size
  have filters := e.laid.filters.le_size
  have labels := e.laid.labels.le_size
  have names := e.laid.names.le_size
  rw [Blocks.length_recordBytes] at records
  rw [Blocks.length_setBytes] at sets
  rw [Blocks.length_offsetBytes] at offsets
  rw [Blocks.length_filterBytes] at filters
  rw [Blocks.length_labelBytes] at labels
  rw [Blocks.length_nameBytes] at names
  have symbols := e.symbolCount_eq
  refine { e.reads with
    headerInside := Nat.le_of_add_right_le terminals
    isMagic := ?_
    isVersion := e.laid.header_eq (i := 0) rfl (by decide)
    terminalsInside := ?_
    stringsInside := ?_
    recordsInside := ?_
    setsInside := ?_
    filtersInside := ?_
    labelsInside := ?_
    namesInside := ?_
    recordSymbols := symbols ▸ e.recordSymbols
    setsMet := symbols ▸ e.setsMet
    slotSymbols := symbols ▸ e.slotSymbols
    labelTexts := e.labelTexts legible
    labelSymbols := symbols ▸ e.labelSymbols legible
    nameTexts := e.nameTexts legible
    offsetsInside := ?_
    shards }
  · exact congrArg Array.toList (Buffer.extract_of_lies e.laid.magic)
  · rw [e.fits.terminals, Table.stop, Nat.mul_one]
    exact terminals
  · rw [e.fits.strings, Table.stop, Nat.mul_one]
    exact e.laid.strings.le_size
  · rw [e.fits.records]
    exact records
  · rw [e.fits.sets]
    exact sets
  · rw [e.fits.filters]
    exact filters
  · rw [e.fits.labels]
    exact labels
  · rw [e.fits.names]
    exact names
  · have place : Layout.header r.buffer 48 = (Blocks.ofNormalForm n withNames).offsetsAt :=
      e.laid.header_eq (i := 11) rfl (by omega)
    have count : Layout.header r.buffer 52 = (Blocks.ofNormalForm n withNames).shards.length :=
      e.laid.header_eq (i := 12) rfl (by omega)
    rw [place, count]
    exact offsets

end Encoded

/-- The layout that a header gives, with these shards. -/
def Layout.ofHeader (buffer : Array UInt8) (shards : List ShardLayout) : Layout where
  hasNames := header buffer 8 % 2 == 1
  symbolCount := header buffer 12
  terminals := ⟨header buffer 16, header buffer 20⟩
  strings := ⟨header buffer 24, header buffer 28⟩
  records := ⟨header buffer 32, header buffer 36⟩
  sets := ⟨header buffer 40, header buffer 44⟩
  filters := ⟨header buffer 60, header buffer 64⟩
  labels := ⟨header buffer 68, header buffer 72⟩
  names := ⟨header buffer 76, header buffer 80⟩
  structural := slots buffer
  shards

theorem Layout.reads_ofHeader (buffer : Array UInt8) (shards : List ShardLayout) :
    Reads buffer (ofHeader buffer shards) :=
  ⟨rfl, rfl, rfl, rfl, rfl, rfl, rfl, rfl, rfl, rfl⟩

theorem exists_forall₂ {P : α → β → Prop} {xs : List α} (each : ∀ x ∈ xs, ∃ y, P x y) :
    ∃ ys, List.Forall₂ P xs ys := by
  induction xs with
  | nil => exact ⟨[], .nil⟩
  | cons x rest ih =>
    obtain ⟨y, here⟩ := each x List.mem_cons_self
    obtain ⟨ys, later⟩ := ih fun x member => each x (List.mem_cons_of_mem _ member)
    exact ⟨y :: ys, .cons here later⟩

/-- Writing a normal form and reading it back succeeds. -/
theorem exists_compiled {n : NormalForm} {withNames : Bool} (bounded : n.Bounded)
    (few : n.symbolCount < 2 ^ 31) (slots : ∀ s ∈ n.structural.toList, s ≤ n.symbolCount)
    (legible : Legible n) (fit : (encode n withNames).length < wordBound) :
    ∃ r, compile n withNames = .ok r ∧ Compiled n withNames r := by
  generalize isBuffer : (encode n withNames).toArray = buffer
  have small : buffer.size < wordBound := by
    rw [← isBuffer, List.size_toArray]
    exact fit
  have encoded (shards : List ShardLayout) :
      Encoded n withNames ⟨buffer, Layout.ofHeader buffer shards⟩ :=
    ⟨isBuffer.symm, Layout.reads_ofHeader buffer shards, small, bounded, few, slots⟩
  have each (i : Nat) (member : i ∈ List.range (Layout.header buffer 52)) : ∃ shard offset,
      Buffer.wordAt? buffer (Layout.header buffer 48 + i * 4) = some offset ∧
        Layout.ShardChecked buffer (Layout.ofHeader buffer []).terminals
          (Layout.ofHeader buffer []).strings (Layout.ofHeader buffer []).sets offset shard := by
    have e := encoded []
    have laid : (Blocks.ofNormalForm n withNames).Laid buffer := e.laid
    have offsets := laid.offsets.le_size
    rw [Blocks.length_offsetBytes] at offsets
    have place : Layout.header buffer 48 = (Blocks.ofNormalForm n withNames).offsetsAt :=
      laid.header_eq (i := 11) rfl (by omega)
    have count : Layout.header buffer 52 = (Blocks.ofNormalForm n withNames).shards.length :=
      laid.header_eq (i := 12) rfl (by omega)
    rw [count, length_shards, List.mem_range] at member
    have found := Array.getElem?_eq_getElem member
    obtain ⟨tables, offset, isOffset, lies, numbers⟩ := shard_lies laid small found
    rw [place]
    exact ⟨tables.layout _ offset, offset, isOffset, e.shardChecked found lies numbers⟩
  obtain ⟨shards, isShards⟩ := exists_forall₂ each
  have e := encoded shards
  have checked := e.checked legible isShards
  exact ⟨_, ofBytes_eq_ok.mpr ⟨isBuffer.symm, checked⟩, e, checked⟩

end Phrasebook.RuleSet
