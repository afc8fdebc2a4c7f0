import Phrasebook.Proofs.RuleSet.Listing
import Phrasebook.Proofs.RuleSet.Search
import Phrasebook.Proofs.RuleSet.Verified

namespace Phrasebook.RuleSet

/-- Every record of a table can be compared with what is sought. -/
def Comparable (table : Table) (width : Nat) (order : Nat → Option Ordering) : Prop :=
  ∀ i < table.count, (order (table.offset + i * width)).isSome = true

/-- A search ends at a record of its range. -/
theorem search_inside {table : Table} {width : Nat} {order : Nat → Option Ordering}
    {lo hi offset : Nat} (found : search table width order lo hi = some offset) :
    ∃ i < hi, offset = table.offset + i * width := by
  fun_induction search table width order lo hi with
  | case1 => cases found
  | case2 lo hi lt mid place isLess ih => exact ih found
  | case3 lo hi lt mid place isGreater ih =>
    obtain ⟨i, below, eq⟩ := ih found
    exact ⟨i, by omega, eq⟩
  | case4 lo hi lt mid place isEqual =>
    exact ⟨mid, by omega, (Option.some.inj found).symm⟩
  | case5 => cases found

/-- The product whose lower bits choose the bucket of a pair. -/
def pairHash (left right : Symbol) : Nat :=
  ((((UInt64.ofNat left <<< 32) ||| UInt64.ofNat right) * 0x9e3779b97f4a7c15) >>> 32).toNat

/-- Masking the hash is the same as cutting it to a number of buckets that is a power of two. -/
theorem bucketOf_eq_and {left right : Symbol} {count : Nat} (even : count.isPowerOfTwo) :
    bucketOf left right count = pairHash left right &&& (count - 1) := by
  obtain ⟨k, power⟩ := even
  rw [power, Nat.and_two_pow_sub_one_eq_mod]
  rfl

variable (r : RuleSet)

/-- How a search compares the number that opens a record with the one sought. -/
def wordOrder (key offset : Nat) : Option Ordering := (r.wordAt? offset).map (compare · key)

/-- How a search compares the text that opens a record with the one sought. -/
def textOrder (text? : Nat → Option String) (key : String) (offset : Nat) : Option Ordering :=
  ((r.wordAt? offset).bind text?).map (compare · key)

theorem searchWord_eq (table : Table) (width key : Nat) :
    r.searchWord table width key = search table width (r.wordOrder key) 0 table.count := rfl

theorem searchText_eq (table : Table) (text? : Nat → Option String) (key : String) :
    r.searchText table text? key = search table 8 (r.textOrder text? key) 0 table.count := rfl

/-- No lookup in a shard meets a read that fails, and each gives the number of a head set. -/
structure ShardSafe (i : Nat) (shard : ShardLayout) : Prop where
  literals : ∀ text, Comparable shard.exact 8 (r.textOrder r.terminal? text) ∧
    Comparable shard.folded 8 (r.textOrder r.terminal? text)
  literalFound : ∀ text,
    (r.findTerminal i text true).isSome = (r.searchText shard.exact r.terminal? text).isSome ∧
    (r.findTerminal i text false).isSome = (r.searchText shard.folded r.terminal? text).isSome
  literalSet : ∀ text caseSensitive set, r.findTerminal i text caseSensitive = some set →
    set < r.layout.sets.count
  unary : ∀ operand, Comparable shard.unary 8 (r.wordOrder operand)
  unaryFound : ∀ operand,
    (r.findUnary i operand).isSome = (r.searchWord shard.unary 8 operand).isSome
  unarySet : ∀ operand set, r.findUnary i operand = some set → set < r.layout.sets.count
  bucket : 0 < shard.binary.count → ∀ left right,
    bucketOf left right shard.buckets.count = pairHash left right &&& (shard.buckets.count - 1) ∧
    ∃ start count,
      r.wordAt? (shard.buckets.offset + bucketOf left right shard.buckets.count * 8) = some start ∧
      r.wordAt? (shard.buckets.offset + bucketOf left right shard.buckets.count * 8 + 4) =
        some count ∧ start + count ≤ shard.binary.count
  pairs : ∀ k < shard.binary.count, ∃ left right set,
    r.wordAt? (shard.binary.offset + k * 12) = some left ∧
    r.wordAt? (shard.binary.offset + k * 12 + 4) = some right ∧
    r.wordAt? (shard.binary.offset + k * 12 + 8) = some set
  binarySet : ∀ left right set, r.findBinary i left right = some set → set < r.layout.sets.count

/-- No lookup meets a read that fails, and every number it gives can be used. -/
structure Safe : Prop where
  filters : ∀ callback : UInt32, Comparable r.layout.filters 4 (r.wordOrder callback.toNat)
  labels : ∀ name, Comparable r.layout.labels 8 (r.textOrder r.string? name)
  labelFound : ∀ name,
    (r.label? name).isSome = (r.searchText r.layout.labels r.string? name).isSome
  labelSymbol : ∀ name symbol, r.label? name = some symbol → symbol ≤ r.layout.symbolCount
  names : ∀ symbol, Comparable r.layout.names 8 (r.wordOrder symbol)
  nameFound : ∀ symbol,
    (r.debugName? symbol).isSome = (r.searchWord r.layout.names 8 symbol).isSome
  structural : ∀ symbol ∈ r.layout.structural.toList, symbol ≤ r.layout.symbolCount
  shards : ∀ i shard, r.shard? i = some shard → r.ShardSafe i shard
  heads : ∀ set < r.layout.sets.count, ∃ count,
    r.wordAt? (r.layout.sets.offset + set * 8 + 4) = some count ∧
      (r.heads set).length = count ∧ ∀ head ∈ r.heads set, head.symbol ≤ r.layout.symbolCount

section
variable {r}

/-- What a search finds can be read, if every record can. -/
theorem isSome_bind_search {table : Table} {width : Nat} {order : Nat → Option Ordering}
    {value? : Nat → Option β}
    (readable : ∀ i < table.count, (value? (table.offset + i * width)).isSome = true) :
    ((search table width order 0 table.count).bind value?).isSome =
      (search table width order 0 table.count).isSome := by
  cases found : search table width order 0 table.count with
  | none => rfl
  | some offset =>
    obtain ⟨i, inRange, rfl⟩ := search_inside found
    exact readable i inRange

theorem comparable_word {table : Table} {width : Nat} (inside : table.stop width ≤ r.buffer.size)
    (wide : 4 ≤ width) (key : Nat) : Comparable table width (r.wordOrder key) := by
  intro i inRange
  have room : table.offset + i * width + 4 ≤ r.buffer.size := by
    have := Nat.mul_le_mul_right width (Nat.succ_le_of_lt inRange)
    rw [Nat.succ_mul] at this
    rw [Table.stop] at inside
    omega
  obtain ⟨value, found⟩ := Layout.exists_wordAt? room
  simp [wordOrder, wordAt?, found]

theorem comparable_text {table pool : Table} (named : Layout.Named r.buffer table pool 0)
    (key : String) : Comparable table 8 (r.textOrder (poolText? r.buffer pool) key) := by
  intro i inRange
  obtain ⟨offset, text, isOffset, isText⟩ := named i inRange
  rw [Nat.add_zero] at isOffset
  simp [textOrder, wordAt?, isOffset, isText]

/-- The second word of each record can be read. -/
theorem readable_of_below {table : Table} {limit : Nat}
    (below : Layout.Below r.buffer table 8 4 limit) (i : Nat) (inRange : i < table.count) :
    (r.wordAt? (table.offset + i * 8 + 4)).isSome = true := by
  obtain ⟨value, found, _⟩ := below i inRange
  simp [wordAt?, found]

/-- The second word of a record that was found is below its limit. -/
theorem lt_of_search {table : Table} {order : Nat → Option Ordering} {limit value : Nat}
    (below : Layout.Below r.buffer table 8 4 limit)
    (found : ((search table 8 order 0 table.count).bind fun offset => r.wordAt? (offset + 4)) =
      some value) : value < limit := by
  obtain ⟨offset, isOffset, isValue⟩ := Option.bind_eq_some_iff.mp found
  obtain ⟨i, inRange, rfl⟩ := search_inside isOffset
  obtain ⟨other, isOther, small⟩ := below i inRange
  rw [wordAt?, isOther] at isValue
  exact Option.some.inj isValue ▸ small

theorem lt_of_findPair {binary : Table} {left right : Symbol} {limit i count set : Nat}
    (below : Layout.Below r.buffer binary 12 8 limit) (inside : i + count ≤ binary.count)
    (found : r.findPair binary left right i count = some set) : set < limit := by
  induction count generalizing i with
  | zero => cases found
  | succ count ih =>
    obtain ⟨value, isValue, small⟩ := below i (by omega)
    have later := ih (i := i + 1) (by omega)
    rw [findPair] at found
    simp only [wordAt?, isValue] at found
    split at found
    · exact Option.some.inj found ▸ small
    · exact later found

theorem shardSafe {i : Nat} {shard : ShardLayout} {offset : Nat} (isShard : r.shard? i = some shard)
    (checked : Layout.ShardChecked r.buffer r.layout.terminals r.layout.strings r.layout.sets offset
      shard) : r.ShardSafe i shard := by
  have unaryInside : shard.unary.stop 8 ≤ r.buffer.size :=
    Nat.le_of_add_right_le (Layout.room_of_wordAt? checked.buckets.2)
  have bucket (nonempty : 0 < shard.binary.count) (left right : Symbol) :
      bucketOf left right shard.buckets.count = pairHash left right &&& (shard.buckets.count - 1) ∧
      ∃ start count,
        r.wordAt? (shard.buckets.offset + bucketOf left right shard.buckets.count * 8) = some start ∧
        r.wordAt? (shard.buckets.offset + bucketOf left right shard.buckets.count * 8 + 4) =
          some count ∧ start + count ≤ shard.binary.count := by
    have even := checked.bucketsMet.1 nonempty
    have positive := Nat.pos_of_isPowerOfTwo even
    exact ⟨bucketOf_eq_and even, checked.bucketsMet.2 _ (Nat.mod_lt _ positive)⟩
  refine
    { literals := fun text => ?literals
      literalFound := fun text => ?literalFound
      literalSet := fun text caseSensitive set found => ?literalSet
      unary := comparable_word unaryInside (by decide)
      unaryFound := fun operand => ?unaryFound
      unarySet := fun operand set found => ?unarySet
      bucket
      pairs := fun k inRange => ?pairs
      binarySet := fun left right set found => ?binarySet }
  case literals =>
    exact ⟨comparable_text checked.exactTexts text, comparable_text checked.foldedTexts text⟩
  case literalFound =>
    simp only [findTerminal_eq_search isShard, searchText_eq]
    exact ⟨isSome_bind_search (readable_of_below checked.exactSets),
      isSome_bind_search (readable_of_below checked.foldedSets)⟩
  case literalSet =>
    rw [findTerminal_eq_search isShard] at found
    cases caseSensitive with
    | true => exact lt_of_search checked.exactSets found
    | false => exact lt_of_search checked.foldedSets found
  case unaryFound =>
    rw [findUnary_eq_search isShard, searchWord_eq]
    exact isSome_bind_search (readable_of_below checked.unarySets)
  case unarySet =>
    rw [findUnary_eq_search isShard] at found
    exact lt_of_search checked.unarySets found
  case pairs =>
    have inside := checked.inside
    rw [Table.stop] at inside
    have leftInside : shard.binary.offset + k * 12 + 4 ≤ r.buffer.size := by omega
    have rightInside : shard.binary.offset + k * 12 + 4 + 4 ≤ r.buffer.size := by omega
    obtain ⟨left, isLeft⟩ := Layout.exists_wordAt? leftInside
    obtain ⟨right, isRight⟩ := Layout.exists_wordAt? rightInside
    obtain ⟨set, isSet, _⟩ := checked.binarySets k inRange
    exact ⟨left, right, set, isLeft, isRight, isSet⟩
  case binarySet =>
    simp only [findBinary, isShard, bind, Option.bind_some] at found
    split at found
    · cases found
    · next nonempty =>
      obtain ⟨_, start, count, isStart, isCount, inside⟩ :=
        bucket (Nat.pos_of_ne_zero nonempty) left right
      rw [isStart, isCount] at found
      exact lt_of_findPair checked.binarySets inside found

/-- An entry that refers to something is decoded to a head. -/
theorem exists_decodeHead? (checked : r.layout.Checked r.buffer) {entry : Int}
    (below : Layout.EntryBelow entry (r.layout.symbolCount + 1) r.layout.records.count) :
    ∃ head, r.decodeHead? entry = some head ∧ head.symbol ≤ r.layout.symbolCount := by
  unfold Layout.EntryBelow at below
  unfold decodeHead?
  split at below
  · next positive =>
    rw [if_pos positive]
    exact ⟨_, rfl, Nat.le_of_lt_succ below⟩
  · next negative =>
    rw [if_neg negative]
    generalize (-entry - 1).toNat = i at below
    have inside := checked.recordsInside
    rw [Table.stop, recordSize] at inside
    obtain ⟨symbol, isSymbol, small⟩ := checked.recordSymbols i below
    rw [Nat.add_zero] at isSymbol
    have word (place : Nat) (within : place + 4 ≤ 20) :
        ∃ value, Buffer.wordAt? r.buffer (r.layout.records.offset + i * recordSize + place) =
          some value := by
      rw [recordSize]
      exact Layout.exists_wordAt? (by omega)
    obtain ⟨callback, isCallback⟩ := word 4 (by decide)
    obtain ⟨low, isLow⟩ := word 8 (by decide)
    obtain ⟨high, isHigh⟩ := word 12 (by decide)
    obtain ⟨gap, isGap⟩ := word 16 (by decide)
    have isParam : Buffer.longAt? r.buffer (r.layout.records.offset + i * recordSize + 8) =
        some (low + wordBound * high) := by
      rw [Buffer.longAt?, isLow, Nat.add_assoc, isHigh]
    simp only [wordAt?, isSymbol, isCallback, isParam, isGap, bind, Option.bind_some]
    exact ⟨_, rfl, Nat.le_of_lt_succ small⟩

theorem length_heads (checked : r.layout.Checked r.buffer) {set : Nat}
    (inRange : set < r.layout.sets.count) :
    ∃ count, r.wordAt? (r.layout.sets.offset + set * 8 + 4) = some count ∧
      (r.heads set).length = count ∧
        ∀ head ∈ r.heads set, head.symbol ≤ r.layout.symbolCount := by
  obtain ⟨start, count, isStart, isCount, inside, entries⟩ := checked.setsMet set inRange
  have each (i : Nat) (isIndex : i < count) : ∃ head,
      ((r.wordAt? (start + i * 4)).bind fun entry => r.decodeHead? (toSigned entry)) = some head ∧
        head.symbol ≤ r.layout.symbolCount := by
    have room : start + i * 4 + 4 ≤ r.buffer.size := by omega
    obtain ⟨entry, isEntry⟩ := Layout.exists_wordAt? room
    have below := entries i isIndex
    rw [isEntry, Option.getD_some] at below
    rw [wordAt?, isEntry, Option.bind_some]
    exact exists_decodeHead? checked below
  have heads : r.heads set = (List.range count).filterMap fun i =>
      (r.wordAt? (start + i * 4)).bind fun entry => r.decodeHead? (toSigned entry) := by
    simp only [RuleSet.heads, if_pos inRange, wordAt?, isStart, isCount, Option.getD_some]
  refine ⟨count, isCount, ?_, ?_⟩
  · rw [heads]
    refine Eq.trans (List.filterMap_length_eq_length.mpr ?_) List.length_range
    intro i isIndex
    obtain ⟨head, isHead, _⟩ := each i (List.mem_range.mp isIndex)
    rw [isHead]
    rfl
  · intro head member
    rw [heads] at member
    obtain ⟨i, isIndex, isHead⟩ := List.mem_filterMap.mp member
    obtain ⟨other, isOther, small⟩ := each i (List.mem_range.mp isIndex)
    rw [isHead] at isOther
    exact Option.some.inj isOther ▸ small

theorem slot_le (checked : r.layout.Checked r.buffer) {symbol : Symbol}
    (member : symbol ∈ r.layout.structural.toList) : symbol ≤ r.layout.symbolCount := by
  have small (i : Nat) (inRange : i < structuralCount) :
      Layout.slot r.buffer i ≤ r.layout.symbolCount := by
    obtain ⟨value, found, below⟩ := checked.slotSymbols i inRange
    rw [Nat.add_zero] at found
    rw [Layout.slot, found]
    exact Nat.le_of_lt_succ below
  rw [checked.structural, Layout.slots, Structural.Symbols.toList, List.mem_append] at member
  rcases member with member | member
  · simp only [List.mem_cons, List.not_mem_nil, or_false] at member
    rcases member with rfl | rfl | rfl | rfl | rfl
    · exact small 0 (by decide)
    · exact small 1 (by decide)
    · exact small 2 (by decide)
    · exact small 3 (by decide)
    · exact small 4 (by decide)
  · rw [Vector.mem_toList_iff] at member
    obtain ⟨n, rfl⟩ := Vector.mem_ofFn.mp member
    exact small (5 + n.val) (by have := n.isLt; rw [structuralCount]; omega)

/-- Verification is enough for lookups, whatever the bytes. -/
theorem ofBytes_safe {buffer : Array UInt8} (accepted : ofBytes buffer = .ok r) : r.Safe := by
  obtain ⟨_, checked⟩ := ofBytes_eq_ok.mp accepted
  refine
    { filters := fun callback => comparable_word checked.filtersInside (by decide) callback.toNat
      labels := comparable_text checked.labelTexts
      labelFound := fun name => isSome_bind_search (readable_of_below checked.labelSymbols)
      labelSymbol := fun name symbol found => ?labelSymbol
      names := comparable_word checked.namesInside (by decide)
      nameFound := fun symbol => ?nameFound
      structural := fun symbol => slot_le checked
      shards := fun i shard isShard => ?shards
      heads := fun set => length_heads checked }
  case labelSymbol =>
    exact Nat.le_of_lt_succ (lt_of_search checked.labelSymbols found)
  case nameFound =>
    refine isSome_bind_search fun i inRange => ?_
    obtain ⟨offset, text, isOffset, isText⟩ := checked.nameTexts i inRange
    simp [wordAt?, isOffset, string?, isText]
  case shards =>
    obtain ⟨inRange, rfl⟩ := List.getElem?_eq_some_iff.mp isShard
    obtain ⟨offset, _, shardChecked⟩ := checked.shards.get
      (by rw [checked.shards.length_eq]; exact inRange) inRange
    exact shardSafe isShard shardChecked

end

/-- A literal, a symbol over it, and a pair of both under a label. -/
def labelledPair : NormalForm :=
  { shards := #[{
      tables := {
        exact := .insert ∅ "a" [{ symbol := 1 }]
        unary := .insert ∅ 1 [{ symbol := 2 }]
        binary := .insert ∅ (1, 2) [{ symbol := 2, gap := 1 }] } }]
    filters := .insert ∅ 1
    numbering := { last := 2, names := .insert ∅ 2 "<b>" }
    labels := .insert ∅ "b" 2 }

theorem labelledPair_accepted :
    (ofBytes (encode labelledPair true).toArray).toOption.any (fun _ => true) = true := by
  rw [encode_eq_listed]
  decide +kernel

theorem ofBytes_safe_labelledPair :
    ∃ r, ofBytes (encode labelledPair true).toArray = .ok r ∧ r.Safe := by
  obtain ⟨r, accepted, _⟩ := exists_ok_of_any labelledPair_accepted
  exact ⟨r, accepted, ofBytes_safe accepted⟩

end Phrasebook.RuleSet
