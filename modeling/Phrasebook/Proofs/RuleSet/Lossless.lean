import Phrasebook.Proofs.RuleSet.Acceptance

namespace Phrasebook.RuleSet

/-- Neither byte is zero. -/
def isInner (a b : UInt8) : Bool := a != 0 && b != 0

/-- The bytes of a text stay together, and the zero byte stands alone. -/
theorem splitBy_bytesOf (text : String) (rest : List UInt8) :
    (Pool.bytesOf text ++ rest).splitBy isInner =
      text.toUTF8.toList.splitBy isInner ++ [0] :: rest.splitBy isInner := by
  rw [List.splitBy_append]
  · rw [Pool.bytesOf, List.splitBy_append, List.append_assoc]
    · rfl
    · simp [isInner]
  · simp [Pool.bytesOf, isInner]

theorem splitBy_solid {bytes : List UInt8} (solid : 0 ∉ bytes) (nonempty : bytes ≠ []) :
    bytes.splitBy isInner = [bytes] := by
  apply List.splitBy_of_isChain nonempty
  refine List.Pairwise.isChain (List.pairwise_of_forall_mem_list fun a isA b isB => ?_)
  simp [isInner, ne_of_mem_of_not_mem isA solid, ne_of_mem_of_not_mem isB solid]

/-- The text that a part of a pool holds, if it is not a zero byte. -/
def partText? (part : List UInt8) : Option String :=
  if part.contains 0 then none else String.fromUTF8? ⟨part.toArray⟩

theorem partText?_toUTF8 {text : String} (clean : NulFree text) :
    partText? text.toUTF8.toList = some text := by
  have solid := zero_notMem_toUTF8 clean
  have bytes : (⟨text.toUTF8.toList.toArray⟩ : ByteArray) = text.toByteArray := by
    rw [toList_eq_data]
    rfl
  rw [partText?, if_neg (by simpa using solid), bytes, String.fromUTF8?, dif_pos text.isValidUTF8]
  rfl

/-- The texts of a pool, but for an empty one. -/
theorem filterMap_partText? {texts : List String} (clean : ∀ text ∈ texts, NulFree text) :
    ((texts.flatMap Pool.bytesOf).splitBy isInner).filterMap partText? =
      texts.filter (· ≠ "") := by
  induction texts with
  | nil => rfl
  | cons text rest ih =>
    obtain ⟨isClean, later⟩ := List.forall_mem_cons.mp clean
    have zero : partText? [0] = none := rfl
    rw [List.flatMap_cons, splitBy_bytesOf, List.filterMap_append, List.filterMap_cons, zero]
    dsimp only
    rw [ih later]
    by_cases empty : text = ""
    · subst empty
      simp
    · have nonempty : text.toUTF8.toList ≠ [] := by
        intro none
        rw [toList_eq_data, Array.toList_eq_nil_iff] at none
        have same : text.toByteArray = "".toByteArray := ByteArray.ext none
        exact empty (String.toByteArray_inj.mp same)
      rw [splitBy_solid (zero_notMem_toUTF8 isClean) nonempty, List.filterMap_cons,
        partText?_toUTF8 isClean, List.filter_cons_of_pos (by simpa using empty)]
      rfl

theorem poolTexts_eq {buffer : Array UInt8} {pool : Table} {texts : List String}
    (lies : Lies buffer pool.offset (texts.flatMap Pool.bytesOf))
    (count : pool.count = (texts.flatMap Pool.bytesOf).length) (clean : ∀ text ∈ texts, NulFree text) :
    poolTexts buffer pool = texts.filter (· ≠ "") := by
  have bytes : (buffer.extract pool.offset (pool.offset + pool.count)).toList =
      texts.flatMap Pool.bytesOf := by
    rw [count, Buffer.extract_of_lies lies]
  rw [← filterMap_partText? clean, ← bytes]
  rfl

/-- The compiled grammar agrees with its normal form on every question. -/
structure Lossless (n : NormalForm) (withNames : Bool) (r : RuleSet) : Prop extends Faithful n r where
  symbolCount : r.layout.symbolCount = n.symbolCount
  locales : ∀ i, r.shardLocales i = ((n.shards[i]?).map (·.locales)).getD []
  label : ∀ name, r.label? name = n.labels[name]?
  debugName : ∀ symbol, r.debugName? symbol = if withNames then n.nameOf? symbol else none
  sorted : r.terminals.Pairwise (· < ·)
  terminals : ∀ text, text ∈ r.terminals ↔ text ≠ "" ∧ ∃ shard ∈ n.shards,
    text ∈ shard.tables.exact ∨ text ∈ shard.tables.folded

namespace Compiled

variable {n : NormalForm} {withNames : Bool} {r : RuleSet}

theorem label?_eq (c : Compiled n withNames r)
    (legible : ∀ name s, n.labels[name]? = some s → NulFree name ∧ s ≤ n.symbolCount) (name : String) :
    r.label? name = n.labels[name]? := by
  have sorted : (n.labels.toList.map (·.1)).Pairwise (compare · · = .lt) := by
    rw [List.pairwise_map]
    exact Std.TreeMap.ordered_keys_toList
  have small (record : String × Symbol) (member : record ∈ n.labels.toList) :
      record.2 < wordBound := by
    have le := (legible record.1 record.2
      (Std.TreeMap.mem_toList_iff_getElem?_eq_some.mp member)).2
    exact Nat.lt_of_lt_of_le (Nat.lt_succ_of_le le) c.limit_le
  have pooled (record : String × Symbol) (member : record ∈ n.labels.toList) :
      (Pool.ofTexts (stringsOf n withNames)).offset record.1 < wordBound ∧
        r.string? ((Pool.ofTexts (stringsOf n withNames)).offset record.1) = some record.1 := by
    have clean := (legible record.1 record.2
      (Std.TreeMap.mem_toList_iff_getElem?_eq_some.mp member)).1
    exact c.string_reads (Encoded.label_mem_stringsOf member) clean
  apply Option.ext
  intro symbol
  rw [label?, searchText_iff c.labels_lie.1 c.labels_lie.2 sorted small pooled]
  exact Std.TreeMap.mem_toList_iff_getElem?_eq_some

theorem debugName?_eq (c : Compiled n withNames r)
    (legible : ∀ s name, n.nameOf? s = some name → NulFree name ∧ s ≤ n.symbolCount)
    (symbol : Symbol) : r.debugName? symbol = if withNames then n.nameOf? symbol else none := by
  have run : r.debugName? symbol = (r.searchWord r.layout.names 8 symbol).bind fun offset =>
      (r.wordAt? (offset + 4)).bind r.string? := rfl
  cases withNames with
  | false =>
    have count : r.layout.names.count = 0 := c.names_count
    rw [run, searchWord, count, search]
    rfl
  | true =>
    have sorted : (n.numbering.names.toList.map (·.1)).Pairwise (compare · · = .lt) := by
      rw [List.pairwise_map]
      exact Std.TreeMap.ordered_keys_toList
    have uniform (x : Symbol × String) :
        (word x.1 ++ word ((Pool.ofTexts (stringsOf n true)).offset x.2)).length = 8 := by
      simp [length_word]
    apply Option.ext
    intro name
    rw [run, searchWord, search_value sorted ?_ c.names_lie.1, if_pos rfl]
    · exact Std.TreeMap.mem_toList_iff_getElem?_eq_some
    · intro i s text isRecord
      have member := List.mem_of_getElem? isRecord
      obtain ⟨clean, le⟩ := legible s text (Std.TreeMap.mem_toList_iff_getElem?_eq_some.mp member)
      obtain ⟨small, isText⟩ := c.string_reads (Encoded.name_mem_stringsOf member) clean
      obtain ⟨key, value⟩ := reads_two (lies_flatMap uniform c.names_lie.2 isRecord)
        (Nat.lt_of_lt_of_le (Nat.lt_succ_of_le le) c.limit_le) small
      refine ⟨congrArg (Option.map (compare · symbol)) key, ?_⟩
      rw [value]
      exact isText

theorem shardLocales_eq (c : Compiled n withNames r) (i : Nat) :
    r.shardLocales i = ((n.shards[i]?).map (·.locales)).getD [] := by
  cases found : n.shards[i]? with
  | none =>
    have outside : r.layout.shards.length ≤ i := by
      have count : r.layout.shards.length = n.shards.size := c.shardCount_eq
      rw [count]
      exact Array.getElem?_eq_none_iff.mp found
    rw [shardLocales, shard?, List.getElem?_eq_none outside]
    rfl
  | some shard =>
    obtain ⟨tables, layout, offset, isLayout, lies, checked, _⟩ := c.shard_found found
    have written := c.tags_read found lies
    have readsLayout := (Numbered.reads_layout c.fit lies).1
    have length : layout.locales.length = shard.locales.length :=
      Option.some.inj (checked.locales.symm.trans readsLayout.locales)
    rw [shardLocales, isLayout]
    refine List.ext_getElem length fun j isRead isWritten => ?_
    obtain ⟨place, tag, isPlace, isTag, read⟩ :=
      checked.tags j _ (List.getElem?_eq_getElem isRead)
    obtain ⟨place', tag', isPlace', isTag', read'⟩ :=
      written j _ (List.getElem?_eq_getElem isWritten)
    obtain rfl := Option.some.inj (isPlace.symm.trans isPlace')
    obtain rfl := Option.some.inj (isTag.symm.trans isTag')
    exact Except.ok.inj (read.symm.trans read')

theorem mem_literalsOf {text : String} :
    text ∈ literalsOf n ↔ ∃ shard ∈ n.shards,
      text ∈ shard.tables.exact ∨ text ∈ shard.tables.folded := by
  simp [literalsOf, Std.TreeMap.mem_keys]

theorem terminals_eq (c : Compiled n withNames r) :
    r.terminals = (Std.TreeSet.ofList (literalsOf n)).toList.filter (· ≠ "") := by
  rw [RuleSet.terminals, c.fits.terminals]
  refine poolTexts_eq c.laid.terminals rfl fun text member => ?_
  rw [Std.TreeSet.mem_toList, Std.TreeSet.mem_ofList] at member
  have isLiteral : text ∈ literalsOf n := by simpa using member
  obtain ⟨shard, isShard, isKey⟩ := mem_literalsOf.mp isLiteral
  obtain ⟨i, found⟩ := Array.mem_iff_getElem?.mp isShard
  rcases isKey with isExact | isFolded
  · exact c.bounded.literals text true ⟨i, shard, found, isExact⟩
  · exact c.bounded.literals text false ⟨i, shard, found, isFolded⟩

/-- Compiling keeps everything. -/
theorem lossless (c : Compiled n withNames r) (legible : Legible n) : Lossless n withNames r where
  toFaithful := c.faithful
  symbolCount := c.symbolCount_eq
  locales := c.shardLocales_eq
  label := c.label?_eq legible.labels
  debugName := c.debugName?_eq legible.names
  sorted := by
    rw [c.terminals_eq]
    refine (Std.TreeSet.ordered_toList.imp fun lt => ?_).filter _
    exact compareOfLessAndEq_eq_lt.mp lt
  terminals text := by
    rw [c.terminals_eq, List.mem_filter, Std.TreeSet.mem_toList, Std.TreeSet.mem_ofList,
      ← mem_literalsOf]
    simp [and_comm]

end Compiled

end Phrasebook.RuleSet
