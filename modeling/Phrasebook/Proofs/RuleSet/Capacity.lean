import Phrasebook.Proofs.Grammar.Meaning
import Phrasebook.Proofs.RuleSet.RoundTrip

namespace Phrasebook.RuleSet

/-- The symbol that an entry stands for. -/
def symbolOfEntry (records : Array Head) (entry : Int) : Symbol :=
  if 0 ≤ entry then entry.toNat
  else ((records[(-entry - 1).toNat]?).map (·.symbol)).getD 0

theorem EntryOf.symbol_eq {records : Array Head} {entry : Int} {head : Head}
    (h : EntryOf records entry head) (small : head.symbol < 2 ^ 31) :
    symbolOfEntry records entry = head.symbol := by
  rcases h with ⟨_, rfl⟩ | ⟨i, found, rfl⟩
  · have positive : (0 : Int) ≤ head.symbol := Int.natCast_nonneg _
    rw [toSigned_mod small, symbolOfEntry, if_pos positive, Int.toNat_natCast]
  · have negative : ¬ (0 : Int) ≤ -i - 1 := by omega
    have index : (-(-(i : Int) - 1) - 1).toNat = i := by omega
    rw [symbolOfEntry, if_neg negative, index, found]
    rfl

theorem exists_of_forall₂ {P : α → β → Prop} {xs : List α} {ys : List β} (h : List.Forall₂ P xs ys)
    {y : β} (member : y ∈ ys) : ∃ x ∈ xs, P x y := by
  induction h with
  | nil => cases member
  | cons here _ ih =>
    rcases List.mem_cons.mp member with rfl | later
    · exact ⟨_, List.mem_cons_self, here⟩
    · obtain ⟨x, isLater, holds⟩ := ih later
      exact ⟨x, List.mem_cons_of_mem _ isLater, holds⟩

/-- A head of some production is one of a set that is held. -/
theorem Interned.Numbers.holds {t : Interned} {tables : Tables} {numbered : Numbered}
    (numbers : t.Numbers tables numbered) {b : Body} {h : Head} (member : h ∈ tables.headsOf b) :
    ∃ heads set, h ∈ heads ∧ t.Holds heads set := by
  have found {κ : Type} {cmp : κ → κ → Ordering} [Std.TransCmp cmp] [Std.LawfulEqCmp cmp]
      {m : Std.TreeMap κ (List Head) cmp} {records : List (κ × Nat)} {key : κ}
      (tabulates : t.Tabulates records m.toList) (member : h ∈ m.getD key []) :
      ∃ heads set, h ∈ heads ∧ t.Holds heads set := by
    rw [Std.TreeMap.getD_eq_getD_getElem?] at member
    cases present : m[key]? with
    | none =>
      rw [present] at member
      cases member
    | some heads =>
      rw [present] at member
      obtain ⟨record, _, _, holds⟩ := exists_of_forall₂ tabulates
        (Std.TreeMap.mem_toList_iff_getElem?_eq_some.mpr present)
      exact ⟨heads, record.2, member, holds⟩
  cases b with
  | literal text caseSensitive =>
    cases caseSensitive with
    | true => exact found numbers.exact member
    | false => exact found numbers.folded member
  | unary operand => exact found numbers.unary member
  | binary left right => exact found numbers.binary member

/-- What the head sets of a normal form are interned as. -/
def interned (n : NormalForm) (withNames : Bool) : Interned :=
  ((n.shards.toList.mapM (encodeShard (Pool.ofTexts (literalsOf n))
    (Pool.ofTexts (stringsOf n withNames)))).run {}).2

section
variable {n : NormalForm} {withNames : Bool}

theorem length_shards : (Blocks.ofNormalForm n withNames).shards.length = n.shards.size := by
  obtain ⟨_, numbered, bytes, numbers⟩ := interns_shards n (Pool.ofTexts (literalsOf n))
    (Pool.ofTexts (stringsOf n withNames))
  refine (congrArg List.length bytes).trans ?_
  rw [List.length_zipWith, numbers.length_eq, Nat.min_self, Array.length_toList]

/-- Each shard lies, with its tables numbered, where the table of offsets says. -/
theorem shard_lies {buffer : Array UInt8} (laid : (Blocks.ofNormalForm n withNames).Laid buffer)
    (fit : buffer.size < wordBound) {i : Nat} {shard : Shard} (found : n.shards[i]? = some shard) :
    ∃ tables offset,
      Buffer.wordAt? buffer ((Blocks.ofNormalForm n withNames).offsetsAt + i * 4) = some offset ∧
      Lies buffer offset (Numbered.bytes tables (Pool.ofTexts (literalsOf n))
        (Pool.ofTexts (stringsOf n withNames)) shard.locales) ∧
      (interned n withNames).Numbers shard.tables tables := by
  obtain ⟨_, numbered, bytes, numbers⟩ := interns_shards n (Pool.ofTexts (literalsOf n))
    (Pool.ofTexts (stringsOf n withNames))
  have isShard : n.shards.toList[i]? = some shard := by rw [Array.getElem?_toList, found]
  have inShards : i < n.shards.toList.length := (List.getElem?_eq_some_iff.mp isShard).1
  have inNumbered : i < numbered.length := by rwa [numbers.length_eq]
  have isNumbers : (interned n withNames).Numbers shard.tables numbered[i] := by
    have isThis : n.shards.toList[i] = shard :=
      Option.some.inj ((List.getElem?_eq_getElem inShards).symm.trans isShard)
    exact isThis ▸ numbers.get inNumbered inShards
  have isBytes : (Blocks.ofNormalForm n withNames).shards[i]? =
      some (numbered[i].bytes (Pool.ofTexts (literalsOf n)) (Pool.ofTexts (stringsOf n withNames))
        shard.locales) := by
    refine (congrArg (·[i]?) bytes).trans ?_
    rw [List.getElem?_zipWith_eq_some]
    exact ⟨_, _, List.getElem?_eq_getElem inNumbered, isShard, rfl⟩
  obtain ⟨start, isStart, lies⟩ := lies_blocks laid.shards isBytes
  have written := lies_flatMap length_word laid.offsets isStart
  have size := lies.le_size
  exact ⟨numbered[i], start, Buffer.wordAt?_word written (by omega), lies, isNumbers⟩

/-- A symbol that heads a production has an entry. -/
theorem exists_entry {s : Symbol} (small : s < 2 ^ 31) (heads : n.Heads s) :
    ∃ entry ∈ (interned n withNames).sets.toList.flatten,
      symbolOfEntry (interned n withNames).records entry = s := by
  obtain ⟨b, h, ⟨i, shard, found, member⟩, rfl⟩ := heads
  obtain ⟨_, numbered, _, numbers⟩ := interns_shards n (Pool.ofTexts (literalsOf n))
    (Pool.ofTexts (stringsOf n withNames))
  have isShard : shard ∈ n.shards.toList := Array.mem_toList_iff.mpr (Array.mem_of_getElem? found)
  obtain ⟨tables, _, isNumbers⟩ := exists_of_forall₂ numbers isShard
  obtain ⟨heads, set, isHead, entries, isSet, each⟩ := isNumbers.holds member
  obtain ⟨entry, isEntry, stands⟩ := exists_of_forall₂ each isHead
  refine ⟨entry, List.mem_flatten.mpr ⟨entries, ?_, isEntry⟩, stands.symbol_eq small⟩
  exact Array.mem_toList_iff.mpr (Array.mem_of_getElem? isSet)

/-- However many symbols there are, a head that is read back is plain or calls what some head of the
normal form calls. -/
theorem callback_of_mem_heads {r : RuleSet} (compiled : compile n withNames = .ok r)
    (fit : r.buffer.size < wordBound) {set : Nat} {h : Head} (member : h ∈ r.heads set) :
    h.callback = {} ∨ ∃ b k, n.Has b k ∧ h.callback = k.callback := by
  obtain ⟨isBuffer, checked⟩ := ofBytes_eq_ok.mp compiled
  have laid : (Blocks.ofNormalForm n withNames).Laid r.buffer := isBuffer ▸ Blocks.laid _
  have fits := laid.fits fit checked.toReads
  unfold heads at member
  split at member
  · next inRange =>
    obtain ⟨start, length, isStart, isLength, _, below⟩ := checked.setsMet set inRange
    simp only [wordAt?, isStart, isLength, Option.getD_some, List.mem_filterMap,
      List.mem_range] at member
    obtain ⟨j, isEntry, found⟩ := member
    obtain ⟨entry, isWord, decoded⟩ := Option.bind_eq_some_iff.mp found
    have meaning := below j isEntry
    rw [isWord, Option.getD_some] at meaning
    unfold Layout.EntryBelow at meaning
    split at meaning
    · next positive =>
      rw [decodeHead?, if_pos positive] at decoded
      exact .inl (Option.some.inj decoded ▸ rfl)
    · next negative =>
      rw [fits.records] at meaning
      obtain ⟨k, isRecord⟩ : ∃ k, (Blocks.ofNormalForm n withNames).records[
          (-toSigned entry - 1).toNat]? = some k := ⟨_, List.getElem?_eq_getElem meaning⟩
      have index : toSigned entry = -((-toSigned entry - 1).toNat : Int) - 1 := by omega
      rw [index, decodeHead?_record_mod laid fits isRecord] at decoded
      obtain ⟨b, has⟩ := (interns_shards n (Pool.ofTexts (literalsOf n))
        (Pool.ofTexts (stringsOf n withNames))).1.recordsMeet _ k
          ((Array.getElem?_toList ..).symm.trans isRecord)
      exact .inr ⟨b, k, has, Option.some.inj decoded ▸ rfl⟩
  · cases member

/-- The symbol heads a production, is structural, or has a name that is kept. -/
def Used (n : NormalForm) (withNames : Bool) (s : Symbol) : Prop :=
  n.Heads s ∨ s ∈ n.structural.toList ∨ withNames = true ∧ (n.nameOf? s).isSome = true

/-- There are no more symbols than structural ones, entries and names. -/
theorem le_entries (used : ∀ s, 0 < s → s ≤ n.symbolCount → Used n withNames s) {count : Nat}
    (bound : count ≤ n.symbolCount) (small : count < 2 ^ 31) :
    count ≤ n.structural.toList.length + ((interned n withNames).sets.toList.flatten.length +
      (Blocks.ofNormalForm n withNames).names.length) := by
  have covered : List.range' 1 count ⊆ n.structural.toList ++
      ((interned n withNames).sets.toList.flatten.map
          (symbolOfEntry (interned n withNames).records) ++
        (Blocks.ofNormalForm n withNames).names.map (·.1)) := by
    intro s member
    obtain ⟨positive, below⟩ := List.mem_range'_1.mp member
    have within : s ≤ count := by omega
    have few : s < 2 ^ 31 := Nat.lt_of_le_of_lt within small
    rcases used s (by omega) (by omega) with heads | slot | ⟨rfl, named⟩
    · obtain ⟨entry, isEntry, stands⟩ := exists_entry few heads
      exact List.mem_append_right _ (List.mem_append_left _ (List.mem_map.mpr ⟨entry, isEntry, stands⟩))
    · exact List.mem_append_left _ slot
    · obtain ⟨name, isName⟩ := Option.isSome_iff_exists.mp named
      have isRecord := Std.TreeMap.mem_toList_iff_getElem?_eq_some.mpr isName
      have isWritten : (s, (Pool.ofTexts (stringsOf n true)).offset name) ∈
          (Blocks.ofNormalForm n true).names := List.mem_map.mpr ⟨(s, name), isRecord, rfl⟩
      exact List.mem_append_right _ (List.mem_append_right _ (List.mem_map.mpr ⟨_, isWritten, rfl⟩))
  have distinct : (List.range' 1 count).Nodup := List.nodup_range' 1
  have length := distinct.length_le_of_subset covered
  rwa [List.length_range', List.length_append, List.length_append, List.length_map,
    List.length_map] at length

theorem length_entryBytes : (Blocks.ofNormalForm n withNames).entryBytes.length =
    (interned n withNames).sets.toList.flatten.length * 4 := by
  rw [← length_flatMap length_signedWord, List.flatten_eq_flatMap, List.flatMap_assoc]
  rfl

/-- Symbols that are all in use fit into signed words. -/
theorem few_of_used (fit : (encode n withNames).length < wordBound)
    (used : ∀ s, 0 < s → s ≤ n.symbolCount → Used n withNames s) : n.symbolCount < 2 ^ 31 := by
  by_contra many
  have bound : 2 ^ 31 - 1 ≤ n.symbolCount := by omega
  have count : 2 ^ 31 - 1 ≤ n.structural.toList.length +
      ((interned n withNames).sets.toList.flatten.length +
        (Blocks.ofNormalForm n withNames).names.length) := le_entries used bound (by decide)
  have entries := (Blocks.ofNormalForm n withNames).laid.entries.le_size
  have names := (Blocks.ofNormalForm n withNames).laid.names.le_size
  have slots : n.structural.toList.length = 26 := by
    rw [Structural.Symbols.toList, List.length_append, Vector.length_toList]
    rfl
  rw [length_entryBytes, List.size_toArray] at entries
  rw [Blocks.length_nameBytes, List.size_toArray] at names
  rw [encode, wordBound] at fit
  omega

end

/-- A normal form written to a buffer whose offsets fit into words, with the layout that its header
gives. -/
structure Encoded (n : NormalForm) (withNames : Bool) (r : RuleSet) : Prop where
  isBuffer : r.buffer = (encode n withNames).toArray
  reads : r.layout.Reads r.buffer
  fit : r.buffer.size < wordBound
  bounded : n.Bounded
  few : n.symbolCount < 2 ^ 31
  slots : ∀ s ∈ n.structural.toList, s ≤ n.symbolCount

namespace Encoded

variable {n : NormalForm} {withNames : Bool} {r : RuleSet}

theorem laid (e : Encoded n withNames r) : (Blocks.ofNormalForm n withNames).Laid r.buffer := by
  rw [e.isBuffer]
  exact Blocks.laid _

theorem fits (e : Encoded n withNames r) : (Blocks.ofNormalForm n withNames).Fits r.layout :=
  e.laid.fits e.fit e.reads

theorem limit_le (e : Encoded n withNames r) : n.symbolCount + 1 ≤ wordBound := lt_wordBound e.few

theorem symbolCount_eq (e : Encoded n withNames r) : r.layout.symbolCount = n.symbolCount := by
  rw [e.reads.symbolCount]
  exact e.laid.header_eq (i := 2) rfl e.limit_le

/-- A literal of some shard is read back from the pool. -/
theorem terminal?_eq (e : Encoded n withNames r) {i : Nat} {shard : Shard}
    (found : n.shards[i]? = some shard) {text : String} {caseSensitive : Bool}
    (isKey : shard.tables.HasKey (.literal text caseSensitive)) :
    (Pool.ofTexts (literalsOf n)).offset text < wordBound ∧
      r.terminal? ((Pool.ofTexts (literalsOf n)).offset text) = some text := by
  have member : text ∈ literalsOf n := by
    refine List.mem_flatMap.mpr ⟨shard, Array.mem_toList_iff.mpr (Array.mem_of_getElem? found), ?_⟩
    rw [List.mem_append, Std.TreeMap.mem_keys, Std.TreeMap.mem_keys]
    cases caseSensitive with
    | true => exact .inl isKey
    | false => exact .inr isKey
  have clean : NulFree text := e.bounded.literals text caseSensitive ⟨i, shard, found, isKey⟩
  have lies : Lies r.buffer r.layout.terminals.offset (Pool.ofTexts (literalsOf n)).bytes := by
    rw [e.fits.terminals]
    exact e.laid.terminals
  have count : r.layout.terminals.count = (Pool.ofTexts (literalsOf n)).bytes.length := by
    rw [e.fits.terminals]
    rfl
  obtain ⟨small, isText⟩ := Pool.poolText?_ofTexts lies count member clean
  exact ⟨Nat.lt_trans small e.fit, isText⟩

end Encoded

/-- A normal form written to a buffer that verification accepts. -/
structure Compiled (n : NormalForm) (withNames : Bool) (r : RuleSet) : Prop
    extends Encoded n withNames r where
  checked : r.layout.Checked r.buffer

theorem Compiled.of_compile {n : NormalForm} {withNames : Bool} {r : RuleSet}
    (compiled : compile n withNames = .ok r) (fit : r.buffer.size < wordBound) (bounded : n.Bounded)
    (few : n.symbolCount < 2 ^ 31) (slots : ∀ s ∈ n.structural.toList, s ≤ n.symbolCount) :
    Compiled n withNames r := by
  obtain ⟨isBuffer, checked⟩ := ofBytes_eq_ok.mp compiled
  exact ⟨⟨isBuffer, checked.toReads, fit, bounded, few, slots⟩, checked⟩

end Phrasebook.RuleSet
