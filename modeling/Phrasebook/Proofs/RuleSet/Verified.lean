import Mathlib
import Phrasebook.RuleSet.Basic

/-!
What verification accepts. Each check is met exactly by the buffers of which a plain statement
holds, and `verify_eq_ok` puts these together: a buffer is accepted with a layout if and only if the
layout is `Checked` in it.
-/

namespace Phrasebook.RuleSet.Layout

theorem bind_eq_ok {x : Except ε α} {f : α → Except ε β} {b : β} :
    x >>= f = .ok b ↔ ∃ a, x = .ok a ∧ f a = .ok b := by
  cases x with
  | error e => exact ⟨nofun, fun ⟨_, h, _⟩ => nomatch h⟩
  | ok a => exact ⟨fun h => ⟨a, rfl, h⟩, fun ⟨_, rfl, h⟩ => h⟩

theorem mapM_eq_ok {f : α → Except ε β} {items : List α} {results : List β} :
    items.mapM f = .ok results ↔
      List.Forall₂ (fun item result => f item = .ok result) items results := by
  induction items generalizing results with
  | nil =>
    rw [List.mapM_nil, List.forall₂_nil_left_iff]
    constructor
    · intro h
      cases h
      rfl
    · rintro rfl
      rfl
  | cons a rest ih =>
    rw [List.mapM_cons, List.forall₂_cons_left_iff, bind_eq_ok]
    constructor
    · rintro ⟨b, first, h⟩
      obtain ⟨others, later, h⟩ := bind_eq_ok.mp h
      cases h
      exact ⟨b, others, first, ih.mp later, rfl⟩
    · rintro ⟨b, others, first, later, rfl⟩
      exact ⟨b, first, bind_eq_ok.mpr ⟨others, ih.mpr later, rfl⟩⟩

theorem forM_eq_ok {items : List α} {check : α → Except ε Unit} :
    items.forM check = .ok () ↔ ∀ a ∈ items, check a = .ok () := by
  induction items with
  | nil =>
    constructor
    · intro _ a member
      cases member
    · intro _
      rfl
  | cons a rest ih =>
    rw [List.forM_eq_forM, List.forM_cons, bind_eq_ok, List.forall_mem_cons]
    exact Unique.exists_iff.trans (and_congr_right fun _ => ih)

theorem checkAll_eq_ok {count : Nat} {check : Nat → Except Error Unit} :
    checkAll count check = .ok () ↔ ∀ i < count, check i = .ok () := by
  unfold checkAll
  simp only [forM_eq_ok, List.mem_range]

theorem checkIndex_eq_ok {part : Section} {index limit : Nat} :
    checkIndex part index limit = .ok () ↔ index < limit := by
  unfold checkIndex
  split
  · next below => simp [below]
  · next above => simp [above]

section
variable {buffer : Array UInt8}

theorem wordAt?_isSome {offset : Nat} :
    (Buffer.wordAt? buffer offset).isSome = true ↔ offset + 4 ≤ buffer.size := by
  unfold Buffer.wordAt?
  split
  · next room => simp [room]
  · next outside => simp [outside]

theorem exists_wordAt? {offset : Nat} (room : offset + 4 ≤ buffer.size) :
    ∃ value, Buffer.wordAt? buffer offset = some value :=
  Option.isSome_iff_exists.mp (wordAt?_isSome.mpr room)

theorem room_of_wordAt? {offset value : Nat} (found : Buffer.wordAt? buffer offset = some value) :
    offset + 4 ≤ buffer.size :=
  wordAt?_isSome.mp (Option.isSome_iff_exists.mpr ⟨value, found⟩)

theorem checkRange_eq_ok {part : Section} {offset length : Nat} :
    checkRange buffer part offset length = .ok () ↔ offset + length ≤ buffer.size := by
  unfold checkRange
  split
  · next inside => simp [inside]
  · next outside => simp [outside]

theorem readTable_eq_ok {part : Section} {position width : Nat} {table : Table} :
    readTable buffer part position width = .ok table ↔
      table = ⟨header buffer position, header buffer (position + 4)⟩ ∧
        table.stop width ≤ buffer.size := by
  unfold readTable
  simp only [bind_eq_ok, Unique.exists_iff, PUnit.default_eq_unit, checkRange_eq_ok]
  constructor
  · rintro ⟨inside, eq⟩
    cases eq
    exact ⟨rfl, inside⟩
  · rintro ⟨rfl, inside⟩
    exact ⟨inside, rfl⟩

theorem readWord_eq_ok {part : Section} {offset value : Nat} :
    readWord buffer part offset = .ok value ↔ Buffer.wordAt? buffer offset = some value := by
  unfold readWord
  split
  · next word found => rw [found, Except.ok.injEq, Option.some.injEq]
  · next outside => simp [outside]

theorem readText_eq_ok {pool : Table} {offset : Nat} {text : String} :
    readText buffer pool offset = .ok text ↔ poolText? buffer pool offset = some text := by
  unfold readText
  split
  · next other found => rw [found, Except.ok.injEq, Option.some.injEq]
  · next absent => simp [absent]

theorem checkWord_eq_ok {part : Section} {offset limit : Nat} :
    checkWord buffer part offset limit = .ok () ↔
      ∃ value, Buffer.wordAt? buffer offset = some value ∧ value < limit := by
  unfold checkWord
  simp only [bind_eq_ok, readWord_eq_ok, checkIndex_eq_ok]

theorem readCounted_eq_ok {part : Section} {offset width : Nat} {table : Table} :
    readCounted buffer part offset width = .ok table ↔
      table.offset = offset + 4 ∧ Buffer.wordAt? buffer offset = some table.count ∧
        table.stop width ≤ buffer.size := by
  unfold readCounted
  simp only [bind_eq_ok, Unique.exists_iff, PUnit.default_eq_unit, readWord_eq_ok, checkRange_eq_ok]
  constructor
  · rintro ⟨count, isCount, inside, eq⟩
    cases eq
    exact ⟨rfl, isCount, inside⟩
  · obtain ⟨start, count⟩ := table
    rintro ⟨place, isCount, inside⟩
    dsimp only at place
    subst place
    exact ⟨count, isCount, inside, rfl⟩

/-- In every record of a table, the word at `place` is below a limit. -/
def Below (buffer : Array UInt8) (table : Table) (width place limit : Nat) : Prop :=
  ∀ i < table.count, ∃ value,
    Buffer.wordAt? buffer (table.offset + i * width + place) = some value ∧ value < limit

/-- In every record of a table, the word at `place` is the offset of a text of the pool. -/
def Named (buffer : Array UInt8) (table pool : Table) (place : Nat) : Prop :=
  ∀ i < table.count, ∃ offset text,
    Buffer.wordAt? buffer (table.offset + i * 8 + place) = some offset ∧
      poolText? buffer pool offset = some text

/-- An entry is a symbol or the number of a record. -/
def EntryBelow (entry : Int) (symbols records : Nat) : Prop :=
  if 0 ≤ entry then entry.toNat < symbols else (-entry - 1).toNat < records

/-- Every set of the directory has entries inside the buffer, each with a meaning. -/
def SetsMet (buffer : Array UInt8) (sets : Table) (symbols records : Nat) : Prop :=
  ∀ i < sets.count, ∃ start length,
    Buffer.wordAt? buffer (sets.offset + i * 8) = some start ∧
    Buffer.wordAt? buffer (sets.offset + i * 8 + 4) = some length ∧
    start + length * 4 ≤ buffer.size ∧
    ∀ j < length, EntryBelow (toSigned ((Buffer.wordAt? buffer (start + j * 4)).getD 0))
      symbols records

/-- There is a bucket for every hash, and each bucket is a range of pairs. -/
def BucketsMet (buffer : Array UInt8) (buckets binary : Table) : Prop :=
  (0 < binary.count → buckets.count.isPowerOfTwo) ∧
    ∀ i < buckets.count, ∃ start length,
      Buffer.wordAt? buffer (buckets.offset + i * 8) = some start ∧
      Buffer.wordAt? buffer (buckets.offset + i * 8 + 4) = some length ∧
      start + length ≤ binary.count

/-- The tags of the locales, one word each from `offset` on. -/
def TagsRead (buffer : Array UInt8) (strings : Table) (offset : Nat) (locales : List Locale) :
    Prop :=
  ∀ (i : Nat) locale, locales[i]? = some locale → ∃ place tag,
    Buffer.wordAt? buffer (offset + i * 4) = some place ∧
      poolText? buffer strings place = some tag ∧ Locale.read tag = .ok locale

theorem checkEntry_eq_ok {entry : Int} {symbols records : Nat} :
    checkEntry entry symbols records = .ok () ↔ EntryBelow entry symbols records := by
  unfold checkEntry EntryBelow
  split
  · exact checkIndex_eq_ok
  · exact checkIndex_eq_ok

theorem checkRecords_eq_ok {records : Table} {symbols : Nat} :
    checkRecords buffer records symbols = .ok () ↔ Below buffer records recordSize 0 symbols := by
  unfold checkRecords Below
  simp only [checkAll_eq_ok, checkWord_eq_ok, Nat.add_zero]

theorem checkSets_eq_ok {sets : Table} {symbols records : Nat} :
    checkSets buffer sets symbols records = .ok () ↔ SetsMet buffer sets symbols records := by
  unfold checkSets SetsMet
  simp only [checkAll_eq_ok, bind_eq_ok, Unique.exists_iff, PUnit.default_eq_unit, readWord_eq_ok, checkRange_eq_ok,
    checkEntry_eq_ok]
  simp only [exists_and_left]

theorem checkLiterals_eq_ok {part : Section} {table terminals : Table} {sets : Nat} :
    checkLiterals buffer part table terminals sets = .ok () ↔
      Named buffer table terminals 0 ∧ Below buffer table 8 4 sets := by
  unfold checkLiterals Named Below
  simp only [checkAll_eq_ok, bind_eq_ok, readWord_eq_ok, readText_eq_ok, checkWord_eq_ok,
    Nat.add_zero, ← forall₂_and]
  refine forall₂_congr fun i _ => ?_
  constructor
  · rintro ⟨name, isName, text, isText, below⟩
    exact ⟨⟨name, text, isName, isText⟩, below⟩
  · rintro ⟨⟨name, text, isName, isText⟩, below⟩
    exact ⟨name, isName, text, isText, below⟩

theorem checkLabels_eq_ok {labels strings : Table} {symbols : Nat} :
    checkLabels buffer labels strings symbols = .ok () ↔
      Named buffer labels strings 0 ∧ Below buffer labels 8 4 symbols :=
  @checkLiterals_eq_ok buffer .labels labels strings symbols

theorem checkNames_eq_ok {names strings : Table} :
    checkNames buffer names strings = .ok () ↔ Named buffer names strings 4 := by
  unfold checkNames Named
  simp only [checkAll_eq_ok, bind_eq_ok, readWord_eq_ok, readText_eq_ok]
  refine forall₂_congr fun i _ => ?_
  constructor
  · rintro ⟨name, isName, text, isText, _⟩
    exact ⟨name, text, isName, isText⟩
  · rintro ⟨name, text, isName, isText⟩
    exact ⟨name, isName, text, isText, rfl⟩

theorem checkBuckets_eq_ok {buckets binary : Table} :
    checkBuckets buffer buckets binary = .ok () ↔ BucketsMet buffer buckets binary := by
  have bucket (start length : Nat) : checkIndex .buckets (start + length) (binary.count + 1) = .ok () ↔
      start + length ≤ binary.count := checkIndex_eq_ok.trans Nat.lt_succ_iff
  unfold checkBuckets BucketsMet
  by_cases uneven : (binary.count > 0 && !decide buckets.count.isPowerOfTwo) = true
  · simp only [if_pos uneven]
    simp only [Bool.and_eq_true, decide_eq_true_eq, Bool.not_eq_true', decide_eq_false_iff_not]
      at uneven
    constructor
    · intro h
      cases h
    · rintro ⟨even, _⟩
      exact absurd (even uneven.1) uneven.2
  · simp only [if_neg uneven]
    simp only [Bool.and_eq_true, decide_eq_true_eq, Bool.not_eq_true', decide_eq_false_iff_not,
      not_and, not_not] at uneven
    refine Iff.trans ?_ (and_iff_right uneven).symm
    simp only [bind_eq_ok, checkAll_eq_ok, readWord_eq_ok, bucket]
    simp only [exists_and_left]

theorem readLocales_eq_ok {table strings : Table} {shard : Nat} {locales : List Locale} :
    readLocales buffer table strings shard = .ok locales ↔
      locales.length = table.count ∧ TagsRead buffer strings table.offset locales := by
  unfold readLocales TagsRead
  rw [mapM_eq_ok, List.forall₂_iff_get]
  simp only [List.length_range, bind_eq_ok, readWord_eq_ok, readText_eq_ok, List.get_eq_getElem,
    List.getElem_range]
  constructor
  · rintro ⟨length, each⟩
    refine ⟨length.symm, fun i locale found => ?_⟩
    obtain ⟨inRange, rfl⟩ := List.getElem?_eq_some_iff.mp found
    obtain ⟨place, isPlace, tag, isTag, read⟩ := each i (length ▸ inRange) inRange
    refine ⟨place, tag, isPlace, isTag, ?_⟩
    split at read
    · next locale isLocale => rw [isLocale, Except.ok.inj read]
    · cases read
  · rintro ⟨length, each⟩
    refine ⟨length.symm, fun i _ inRange => ?_⟩
    obtain ⟨place, tag, isPlace, isTag, isLocale⟩ := each i _ (List.getElem?_eq_getElem inRange)
    exact ⟨place, isPlace, tag, isTag, by rw [isLocale]⟩

/-- The tables of a shard, each after the one before it. -/
structure ShardReads (buffer : Array UInt8) (offset : Nat) (shard : ShardLayout) : Prop where
  locales : Buffer.wordAt? buffer offset = some shard.locales.length
  exact : shard.exact.offset = offset + 4 + shard.locales.length * 4 + 4 ∧
    Buffer.wordAt? buffer (offset + 4 + shard.locales.length * 4) = some shard.exact.count
  folded : shard.folded.offset = shard.exact.stop 8 + 4 ∧
    Buffer.wordAt? buffer (shard.exact.stop 8) = some shard.folded.count
  unary : shard.unary.offset = shard.folded.stop 8 + 4 ∧
    Buffer.wordAt? buffer (shard.folded.stop 8) = some shard.unary.count
  buckets : shard.buckets.offset = shard.unary.stop 8 + 4 ∧
    Buffer.wordAt? buffer (shard.unary.stop 8) = some shard.buckets.count
  binary : shard.binary.offset = shard.buckets.stop 8 + 4 ∧
    Buffer.wordAt? buffer (shard.buckets.stop 8) = some shard.binary.count

/-- The tables of a shard lie inside the buffer and refer only to what is there. -/
structure ShardChecked (buffer : Array UInt8) (terminals strings sets : Table) (offset : Nat)
    (shard : ShardLayout) : Prop extends ShardReads buffer offset shard where
  inside : shard.binary.stop 12 ≤ buffer.size
  tags : TagsRead buffer strings (offset + 4) shard.locales
  exactTexts : Named buffer shard.exact terminals 0
  exactSets : Below buffer shard.exact 8 4 sets.count
  foldedTexts : Named buffer shard.folded terminals 0
  foldedSets : Below buffer shard.folded 8 4 sets.count
  unarySets : Below buffer shard.unary 8 4 sets.count
  bucketsMet : BucketsMet buffer shard.buckets shard.binary
  binarySets : Below buffer shard.binary 12 8 sets.count

theorem readShard_eq_ok {terminals strings sets : Table} {i offset : Nat} {shard : ShardLayout} :
    readShard buffer terminals strings sets i offset = .ok shard ↔
      ShardChecked buffer terminals strings sets offset shard := by
  unfold readShard
  simp only [bind_eq_ok, Unique.exists_iff, PUnit.default_eq_unit, readCounted_eq_ok,
    readLocales_eq_ok, checkLiterals_eq_ok, checkAll_eq_ok, checkWord_eq_ok, checkBuckets_eq_ok]
  constructor
  · rintro ⟨localeTable, ⟨place, count, _⟩, exact, isExact, folded, isFolded, unary, isUnary, buckets,
      isBuckets, binary, isBinary, locales, ⟨length, tags⟩, exactTexts, foldedTexts, unarySets,
      bucketsMet, binarySets, eq⟩
    cases eq
    have isExact : exact.offset = offset + 4 + locales.length * 4 + 4 ∧
        Buffer.wordAt? buffer (offset + 4 + locales.length * 4) = some exact.count := by
      rw [Table.stop, place, ← length] at isExact
      exact ⟨isExact.1, isExact.2.1⟩
    exact {
      locales := length ▸ count
      exact := isExact
      folded := ⟨isFolded.1, isFolded.2.1⟩
      unary := ⟨isUnary.1, isUnary.2.1⟩
      buckets := ⟨isBuckets.1, isBuckets.2.1⟩
      binary := ⟨isBinary.1, isBinary.2.1⟩
      inside := isBinary.2.2
      tags := place ▸ tags
      exactTexts := exactTexts.1
      exactSets := exactTexts.2
      foldedTexts := foldedTexts.1
      foldedSets := foldedTexts.2
      unarySets
      bucketsMet
      binarySets }
  · intro checked
    have ends {place count : Nat} (found : Buffer.wordAt? buffer place = some count) :
        place ≤ buffer.size := Nat.le_of_add_right_le (room_of_wordAt? found)
    exact ⟨⟨offset + 4, shard.locales.length⟩, ⟨rfl, checked.locales, ends checked.exact.2⟩,
      shard.exact, ⟨checked.exact.1, checked.exact.2, ends checked.folded.2⟩,
      shard.folded, ⟨checked.folded.1, checked.folded.2, ends checked.unary.2⟩,
      shard.unary, ⟨checked.unary.1, checked.unary.2, ends checked.buckets.2⟩,
      shard.buckets, ⟨checked.buckets.1, checked.buckets.2, ends checked.binary.2⟩,
      shard.binary, ⟨checked.binary.1, checked.binary.2, checked.inside⟩,
      shard.locales, ⟨rfl, checked.tags⟩, ⟨checked.exactTexts, checked.exactSets⟩,
      ⟨checked.foldedTexts, checked.foldedSets⟩, checked.unarySets, checked.bucketsMet,
      checked.binarySets, rfl⟩

/-- The symbol in a structural slot. -/
def slot (buffer : Array UInt8) (i : Nat) : Symbol :=
  (Buffer.wordAt? buffer (header buffer 56 + i * 4)).getD 0

/-- The structural symbols that a buffer holds. -/
def slots (buffer : Array UInt8) : Structural.Symbols :=
  { start := slot buffer 0
    stop := slot buffer 1
    token := slot buffer 2
    uppercaseToken := slot buffer 3
    digits := slot buffer 4
    runs := Vector.ofFn fun n => slot buffer (5 + n.val) }

theorem readStructural_eq_ok {symbols : Nat} {structural : Structural.Symbols} :
    readStructural buffer symbols = .ok structural ↔
      Below buffer ⟨header buffer 56, structuralCount⟩ 4 0 symbols ∧ structural = slots buffer := by
  unfold readStructural Below
  simp only [bind_eq_ok, Unique.exists_iff, PUnit.default_eq_unit, checkRange_eq_ok,
    checkAll_eq_ok, checkWord_eq_ok, Nat.add_zero]
  constructor
  · rintro ⟨_, below, eq⟩
    cases eq
    exact ⟨below, rfl⟩
  · rintro ⟨below, rfl⟩
    obtain ⟨_, last, _⟩ := below 25 (by decide)
    exact ⟨room_of_wordAt? last, below, rfl⟩

/-- What the header says about a verified layout. -/
structure Reads (buffer : Array UInt8) (layout : Layout) : Prop where
  hasNames : layout.hasNames = (header buffer 8 % 2 == 1)
  symbolCount : layout.symbolCount = header buffer 12
  terminals : layout.terminals = ⟨header buffer 16, header buffer 20⟩
  strings : layout.strings = ⟨header buffer 24, header buffer 28⟩
  records : layout.records = ⟨header buffer 32, header buffer 36⟩
  sets : layout.sets = ⟨header buffer 40, header buffer 44⟩
  filters : layout.filters = ⟨header buffer 60, header buffer 64⟩
  labels : layout.labels = ⟨header buffer 68, header buffer 72⟩
  names : layout.names = ⟨header buffer 76, header buffer 80⟩
  structural : layout.structural = slots buffer

/-- Every section lies inside the buffer and refers only to what is there. -/
structure Checked (buffer : Array UInt8) (layout : Layout) : Prop extends Reads buffer layout where
  headerInside : headerSize ≤ buffer.size
  isMagic : (buffer.extract 0 4).toList = magic
  isVersion : header buffer 4 = version
  terminalsInside : layout.terminals.stop 1 ≤ buffer.size
  stringsInside : layout.strings.stop 1 ≤ buffer.size
  recordsInside : layout.records.stop recordSize ≤ buffer.size
  setsInside : layout.sets.stop 8 ≤ buffer.size
  filtersInside : layout.filters.stop 4 ≤ buffer.size
  labelsInside : layout.labels.stop 8 ≤ buffer.size
  namesInside : layout.names.stop 8 ≤ buffer.size
  recordSymbols : Below buffer layout.records recordSize 0 (layout.symbolCount + 1)
  setsMet : SetsMet buffer layout.sets (layout.symbolCount + 1) layout.records.count
  slotSymbols : Below buffer ⟨header buffer 56, structuralCount⟩ 4 0 (layout.symbolCount + 1)
  labelTexts : Named buffer layout.labels layout.strings 0
  labelSymbols : Below buffer layout.labels 8 4 (layout.symbolCount + 1)
  nameTexts : Named buffer layout.names layout.strings 4
  offsetsInside : header buffer 48 + header buffer 52 * 4 ≤ buffer.size
  shards : List.Forall₂ (fun i shard => ∃ offset,
      Buffer.wordAt? buffer (header buffer 48 + i * 4) = some offset ∧
        ShardChecked buffer layout.terminals layout.strings layout.sets offset shard)
    (List.range (header buffer 52)) layout.shards

theorem readShards_eq_ok {terminals strings sets : Table} {shards : List ShardLayout} :
    readShards buffer terminals strings sets = .ok shards ↔
      header buffer 48 + header buffer 52 * 4 ≤ buffer.size ∧
      List.Forall₂ (fun i shard => ∃ offset,
          Buffer.wordAt? buffer (header buffer 48 + i * 4) = some offset ∧
            ShardChecked buffer terminals strings sets offset shard)
        (List.range (header buffer 52)) shards := by
  unfold readShards
  simp only [bind_eq_ok, readTable_eq_ok, mapM_eq_ok, readWord_eq_ok, readShard_eq_ok]
  constructor
  · rintro ⟨table, ⟨rfl, inside⟩, each⟩
    exact ⟨inside, each⟩
  · rintro ⟨inside, each⟩
    exact ⟨_, ⟨rfl, inside⟩, each⟩

/-- Verification accepts a buffer exactly if everything in it is in order. -/
theorem verify_eq_ok {layout : Layout} : verify buffer = .ok layout ↔ Checked buffer layout := by
  unfold verify
  by_cases short : buffer.size < headerSize
  · simp only [if_pos short]
    constructor
    · intro h
      cases h
    · intro checked
      exact absurd checked.headerInside (Nat.not_le_of_lt short)
  simp only [if_neg short]
  by_cases isMagic : ((buffer.extract 0 4).toList != magic) = true
  · simp only [if_pos isMagic]
    constructor
    · intro h
      cases h
    · intro checked
      exact absurd checked.isMagic (bne_iff_ne.mp isMagic)
  simp only [if_neg isMagic]
  by_cases isVersion : (header buffer 4 != version) = true
  · simp only [if_pos isVersion]
    constructor
    · intro h
      cases h
    · intro checked
      exact absurd checked.isVersion (bne_iff_ne.mp isVersion)
  simp only [if_neg isVersion]
  simp only [bind_eq_ok, Unique.exists_iff, PUnit.default_eq_unit, readTable_eq_ok,
    checkRecords_eq_ok, checkSets_eq_ok, readStructural_eq_ok, checkLabels_eq_ok, checkNames_eq_ok,
    readShards_eq_ok]
  constructor
  · rintro ⟨terminals, isTerminals, strings, isStrings, records, isRecords, sets, isSets, filters,
      isFilters, labels, isLabels, names, isNames, recordSymbols, setsMet, structural,
      ⟨slotSymbols, isStructural⟩, ⟨labelTexts, labelSymbols⟩, nameTexts, shards,
      ⟨offsetsInside, isShards⟩, eq⟩
    cases eq
    exact {
      hasNames := rfl
      symbolCount := rfl
      terminals := isTerminals.1
      strings := isStrings.1
      records := isRecords.1
      sets := isSets.1
      filters := isFilters.1
      labels := isLabels.1
      names := isNames.1
      structural := isStructural
      headerInside := Nat.le_of_not_lt short
      isMagic := by simpa using isMagic
      isVersion := by simpa using isVersion
      terminalsInside := isTerminals.2
      stringsInside := isStrings.2
      recordsInside := isRecords.2
      setsInside := isSets.2
      filtersInside := isFilters.2
      labelsInside := isLabels.2
      namesInside := isNames.2
      recordSymbols
      setsMet
      slotSymbols
      labelTexts
      labelSymbols
      nameTexts
      offsetsInside
      shards := isShards }
  · intro checked
    rw [← checked.symbolCount]
    refine ⟨_, ⟨checked.terminals, checked.terminalsInside⟩,
      _, ⟨checked.strings, checked.stringsInside⟩, _, ⟨checked.records, checked.recordsInside⟩,
      _, ⟨checked.sets, checked.setsInside⟩, _, ⟨checked.filters, checked.filtersInside⟩,
      _, ⟨checked.labels, checked.labelsInside⟩, _, ⟨checked.names, checked.namesInside⟩,
      checked.recordSymbols, checked.setsMet, _, ⟨checked.slotSymbols, checked.structural⟩,
      ⟨checked.labelTexts, checked.labelSymbols⟩, checked.nameTexts, _,
      ⟨checked.offsetsInside, checked.shards⟩, ?_⟩
    rw [← checked.hasNames]
    rfl

end

end Phrasebook.RuleSet.Layout

namespace Phrasebook.RuleSet

theorem ofBytes_eq_ok {buffer : Array UInt8} {r : RuleSet} :
    ofBytes buffer = .ok r ↔ r.buffer = buffer ∧ r.layout.Checked r.buffer := by
  unfold ofBytes
  rw [← Layout.verify_eq_ok]
  cases verified : Layout.verify buffer with
  | error e =>
    constructor
    · intro h
      cases h
    · rintro ⟨rfl, h⟩
      rw [verified] at h
      cases h
  | ok layout =>
    obtain ⟨bytes, other⟩ := r
    constructor
    · intro h
      cases h
      exact ⟨rfl, verified⟩
    · rintro ⟨rfl, h⟩
      rw [verified] at h
      cases h
      rfl

end Phrasebook.RuleSet
