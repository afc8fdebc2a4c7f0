import Phrasebook.Proofs.RuleSet.Capacity

namespace Phrasebook.RuleSet

/-- The compiled grammar finds in each shard what the normal form has there. -/
structure Faithful (n : NormalForm) (r : RuleSet) : Prop where
  shards : r.shardCount = n.shards.size
  exact : ∀ (i : Nat) shard, n.shards[i]? = some shard → ∀ text,
    (r.findTerminal i text true).map r.heads = shard.tables.exact[text]?.map (·.map Head.stored)
  folded : ∀ (i : Nat) shard, n.shards[i]? = some shard → ∀ text,
    (r.findTerminal i text false).map r.heads = shard.tables.folded[text]?.map (·.map Head.stored)
  unary : ∀ (i : Nat) shard, n.shards[i]? = some shard → ∀ operand,
    (r.findUnary i operand).map r.heads = shard.tables.unary[operand]?.map (·.map Head.stored)
  binary : ∀ (i : Nat) shard, n.shards[i]? = some shard → ∀ left right,
    (r.findBinary i left right).map r.heads =
      shard.tables.binary[(left, right)]?.map (·.map Head.stored)
  isFilter : ∀ callback, r.isFilter callback = n.filters.contains callback
  structural : r.layout.structural = n.structural
  labels : n.labels.isEmpty = true → ∀ name, r.label? name = none

section
variable {t : Interned} {records : List (κ × Nat)}

theorem tabulates_keys {table : List (κ × List Head)} (h : t.Tabulates records table) :
    records.map (·.1) = table.map (·.1) := by
  induction h with
  | nil => rfl
  | cons here _ ih => simp [here.1, ih]

theorem mem_of_tabulates {table : List (κ × List Head)} (h : t.Tabulates records table) {key : κ}
    {v : Nat} (member : (key, v) ∈ records) : ∃ heads, (key, heads) ∈ table ∧ t.Holds heads v := by
  induction h with
  | nil => cases member
  | @cons record entry _ _ here _ ih =>
    rcases List.mem_cons.mp member with rfl | later
    · have same : key = entry.1 := here.1
      subst same
      exact ⟨entry.2, List.mem_cons_self, here.2⟩
    · obtain ⟨heads, isEntry, holds⟩ := ih later
      exact ⟨heads, List.mem_cons_of_mem _ isEntry, holds⟩

theorem exists_of_tabulates {table : List (κ × List Head)} (h : t.Tabulates records table) {key : κ}
    {heads : List Head} (member : (key, heads) ∈ table) : ∃ v, (key, v) ∈ records := by
  have isKey : key ∈ table.map (·.1) := List.mem_map.mpr ⟨(key, heads), member, rfl⟩
  rw [← tabulates_keys h] at isKey
  obtain ⟨⟨_, v⟩, isRecord, rfl⟩ := List.mem_map.mp isKey
  exact ⟨v, isRecord⟩

/-- What is found under a key is what the table has there. -/
theorem lookup_of_tabulates {cmp : κ → κ → Ordering} [Std.TransCmp cmp] [Std.LawfulEqCmp cmp]
    {m : Std.TreeMap κ (List Head) cmp} {r : RuleSet} (h : t.Tabulates records m.toList) {key : κ}
    {found : Option Nat} (finds : ∀ v, found = some v ↔ (key, v) ∈ records)
    (decodes : ∀ heads v, m[key]? = some heads → t.Holds heads v →
      r.heads v = heads.map Head.stored) :
    found.map r.heads = m[key]?.map (·.map Head.stored) := by
  cases found with
  | none =>
    cases present : m[key]? with
    | none => rfl
    | some heads =>
      obtain ⟨v, member⟩ := exists_of_tabulates h
        (Std.TreeMap.mem_toList_iff_getElem?_eq_some.mpr present)
      have := (finds v).mpr member
      cases this
  | some v =>
    obtain ⟨heads, isEntry, holds⟩ := mem_of_tabulates h ((finds v).mp rfl)
    have present := Std.TreeMap.mem_toList_iff_getElem?_eq_some.mp isEntry
    rw [present, Option.map_some, Option.map_some, decodes heads v present holds]

end

theorem isFilter_eq {n : NormalForm} {withNames : Bool} {r : RuleSet}
    (laid : (Blocks.ofNormalForm n withNames).Laid r.buffer)
    (fits : (Blocks.ofNormalForm n withNames).Fits r.layout) (callback : UInt32) :
    r.isFilter callback = n.filters.contains callback := by
  have table := fits.filters
  have lies : Lies r.buffer r.layout.filters.offset (words (n.filters.toList.map (·.toNat))) := by
    rw [table]
    exact laid.filters
  have count : r.layout.filters.count = (n.filters.toList.map (·.toNat)).length := by
    rw [table, List.length_map]
    rfl
  have sorted : (n.filters.toList.map (·.toNat)).Pairwise (compare · · = .lt) := by
    rw [List.pairwise_map]
    refine Std.TreeSet.ordered_toList.imp fun {a b} lt => ?_
    have less : a < b := Std.compare_eq_lt.mp lt
    exact Nat.compare_eq_lt.mpr less
  have reads (i k : Nat) (found : (n.filters.toList.map (·.toNat))[i]? = some k) :
      (r.wordAt? (r.layout.filters.offset + i * 4)).map (compare · callback.toNat) =
        some (compare k callback.toNat) := by
    have small : k < wordBound := by
      obtain ⟨id, _, rfl⟩ := List.mem_map.mp (List.mem_of_getElem? found)
      exact id.toNat_lt
    have word := Buffer.wordAt?_word (lies_flatMap length_word lies found) small
    rw [wordAt?, word]
    rfl
  have member : callback.toNat ∈ n.filters.toList.map (·.toNat) ↔
      n.filters.contains callback = true := by
    rw [List.mem_map]
    constructor
    · rintro ⟨id, isFilter, same⟩
      rw [← UInt32.toNat_inj.mp same]
      exact Std.TreeSet.mem_toList.mp isFilter
    · exact fun isFilter => ⟨callback, Std.TreeSet.mem_toList.mpr isFilter, rfl⟩
  have spec : (∃ i, _ ∧ r.searchWord r.layout.filters 4 callback.toNat = _) ∨
      (_ ∧ r.searchWord r.layout.filters 4 callback.toNat = none) :=
    search_spec sorted reads 0 r.layout.filters.count (Nat.le_of_eq count)
  apply Bool.eq_iff_iff.mpr
  rw [← member, isFilter]
  rcases spec with ⟨i, isKey, found⟩ | ⟨absent, none⟩
  · rw [found]
    exact ⟨fun _ => List.mem_of_getElem? isKey, fun _ => rfl⟩
  · rw [none]
    constructor
    · intro h
      cases h
    · intro isKey
      obtain ⟨i, found⟩ := List.mem_iff_getElem?.mp isKey
      have inRange := (List.getElem?_eq_some_iff.mp found).1
      exact absurd found (absent i (Nat.zero_le i) (count ▸ inRange))

/-- A number handed out for a head set is one of a set that is written. -/
theorem set_lt_length {n : NormalForm} {withNames : Bool} {heads : List Head} {set : Nat}
    (holds : (interned n withNames).Holds heads set) :
    set < (Blocks.ofNormalForm n withNames).sets.length := by
  obtain ⟨entries, found, _⟩ := holds
  exact (List.getElem?_eq_some_iff.mp ((Array.getElem?_toList ..).trans found)).1

namespace Encoded

variable {n : NormalForm} {withNames : Bool} {r : RuleSet}

theorem sets_le (e : Encoded n withNames r) : r.layout.sets.count ≤ wordBound := by
  have size := e.laid.sets.le_size
  have fit := e.fit
  rw [Blocks.length_setBytes] at size
  rw [e.fits.sets]
  refine (?_ : (Blocks.ofNormalForm n withNames).sets.length ≤ wordBound)
  omega

/-- A record leads to a head set that was written. -/
theorem set_lt (e : Encoded n withNames r) {records : List (κ × Nat)} {table : List (κ × List Head)}
    (tabulates : (interned n withNames).Tabulates records table) {record : κ × Nat}
    (member : record ∈ records) : record.2 < r.layout.sets.count := by
  obtain ⟨key, set⟩ := record
  obtain ⟨heads, _, holds⟩ := mem_of_tabulates tabulates member
  rw [e.fits.sets]
  exact set_lt_length holds

theorem set_small (e : Encoded n withNames r) {records : List (κ × Nat)}
    {table : List (κ × List Head)} (tabulates : (interned n withNames).Tabulates records table)
    {record : κ × Nat} (member : record ∈ records) : record.2 < wordBound :=
  Nat.lt_of_lt_of_le (e.set_lt tabulates member) e.sets_le

end Encoded

namespace Compiled

variable {n : NormalForm} {withNames : Bool} {r : RuleSet}

theorem heads_eq (c : Compiled n withNames r) {b : Body} {heads : List Head}
    (has : ∀ h ∈ heads, n.Has b h) {set : Nat}
    (holds : (interned n withNames).Holds heads set) : r.heads set = heads.map Head.stored := by
  obtain ⟨entries, found, each⟩ := holds
  have isSet : (Blocks.ofNormalForm n withNames).sets[set]? = some entries :=
    (Array.getElem?_toList ..).trans found
  have small (h : Head) (member : h ∈ heads) : h.symbol < 2 ^ 31 :=
    Nat.lt_of_le_of_lt (c.bounded.heads b h (has h member)) c.few
  exact RuleSet.heads_eq c.laid c.fits c.fit isSet each small

theorem shardCount_eq (c : Compiled n withNames r) : r.shardCount = n.shards.size := by
  have size := c.laid.offsets.le_size
  have fit := c.fit
  rw [Blocks.length_offsetBytes] at size
  have count : Layout.header r.buffer 52 = (Blocks.ofNormalForm n withNames).shards.length :=
    c.laid.header_eq (i := 12) rfl (by omega)
  have shards := c.checked.shards.length_eq
  rw [List.length_range, count, length_shards] at shards
  exact shards.symm

/-- Each shard is found where it was written. -/
theorem shard_found (c : Compiled n withNames r) {i : Nat} {shard : Shard}
    (found : n.shards[i]? = some shard) :
    ∃ tables layout offset, r.shard? i = some layout ∧
      Lies r.buffer offset (Numbered.bytes tables (Pool.ofTexts (literalsOf n))
        (Pool.ofTexts (stringsOf n withNames)) shard.locales) ∧
      Layout.ShardChecked r.buffer r.layout.terminals r.layout.strings r.layout.sets offset layout ∧
      (interned n withNames).Numbers shard.tables tables := by
  obtain ⟨tables, start, isStart, lies, isNumbers⟩ := shard_lies c.laid c.fit found
  have inRange : i < n.shards.size := (Array.getElem?_eq_some_iff.mp found).1
  have shards := c.checked.shards
  have inLayout : i < r.layout.shards.length := by
    have := c.shardCount_eq
    rw [shardCount] at this
    omega
  have inHeader : i < (List.range (Layout.header r.buffer 52)).length := by
    rwa [shards.length_eq]
  obtain ⟨offset, isOffset, checked⟩ := shards.get inHeader inLayout
  have fit := c.fit
  have offsetSize := c.laid.offsets.le_size
  have place : Layout.header r.buffer 48 = (Blocks.ofNormalForm n withNames).offsetsAt :=
    c.laid.header_eq (i := 11) rfl (by omega)
  obtain rfl : start = offset := by
    rw [List.get_eq_getElem, List.getElem_range, place, isStart] at isOffset
    exact Option.some.inj isOffset
  exact ⟨tables, r.layout.shards[i], start, List.getElem?_eq_getElem inLayout, lies, checked,
    isNumbers⟩

/-- Each shard is laid out with its tables numbered. -/
theorem shard_laid (c : Compiled n withNames r) {i : Nat} {shard : Shard}
    (found : n.shards[i]? = some shard) :
    ∃ tables layout, r.shard? i = some layout ∧
      tables.Laid (Pool.ofTexts (literalsOf n)) r.buffer layout ∧
      (interned n withNames).Numbers shard.tables tables := by
  obtain ⟨tables, layout, offset, isLayout, lies, checked, isNumbers⟩ := c.shard_found found
  exact ⟨tables, layout, isLayout, Numbered.laid c.fit lies checked.toShardReads, isNumbers⟩

/-- The keys of records are those of the table, in order. -/
theorem sorted_keys {cmp : κ → κ → Ordering} [Std.TransCmp cmp] {t : Interned}
    {m : Std.TreeMap κ (List Head) cmp} {records : List (κ × Nat)}
    (h : t.Tabulates records m.toList) : (records.map (·.1)).Pairwise (cmp · · = .lt) := by
  rw [tabulates_keys h, List.pairwise_map]
  exact Std.TreeMap.ordered_keys_toList

theorem mem_of_record {cmp : κ → κ → Ordering} [Std.TransCmp cmp] [Std.LawfulEqCmp cmp]
    {t : Interned} {m : Std.TreeMap κ (List Head) cmp} {records : List (κ × Nat)}
    (h : t.Tabulates records m.toList) {record : κ × Nat} (member : record ∈ records) :
    record.1 ∈ m := by
  obtain ⟨key, v⟩ := record
  obtain ⟨heads, isEntry, _⟩ := mem_of_tabulates h member
  rw [Std.TreeMap.mem_iff_isSome_getElem?, Std.TreeMap.mem_toList_iff_getElem?_eq_some.mp isEntry]
  rfl

theorem symbol_small (c : Compiled n withNames r) {b : Body} (isKeyed : n.Keyed b) {s : Symbol}
    (member : s ∈ b.symbols) : s < wordBound :=
  lt_wordBound (Nat.lt_of_le_of_lt (c.bounded.bodies b isKeyed s member) c.few)

section
variable {i : Nat} {shard : Shard}

theorem findUnary_eq (c : Compiled n withNames r) (found : n.shards[i]? = some shard)
    (operand : Symbol) :
    (r.findUnary i operand).map r.heads = shard.tables.unary[operand]?.map (·.map Head.stored) := by
  obtain ⟨tables, layout, isLayout, laid, numbers⟩ := c.shard_laid found
  refine lookup_of_tabulates numbers.unary ?_ fun heads v present holds => ?_
  · refine findUnary_iff isLayout laid (sorted_keys numbers.unary) (fun record member => ?_) operand
    have isKeyed : n.Keyed (.unary record.1) :=
      ⟨i, shard, found, mem_of_record numbers.unary member⟩
    exact ⟨c.symbol_small isKeyed List.mem_cons_self, c.set_small numbers.unary member⟩
  · have has (h : Head) (member : h ∈ heads) : n.Has (.unary operand) h := by
      refine ⟨i, shard, found, ?_⟩
      rw [Tables.headsOf, Std.TreeMap.getD_eq_getD_getElem?, present]
      exact member
    exact c.heads_eq has holds

theorem findBinary_eq (c : Compiled n withNames r) (found : n.shards[i]? = some shard)
    (left right : Symbol) :
    (r.findBinary i left right).map r.heads =
      shard.tables.binary[(left, right)]?.map (·.map Head.stored) := by
  obtain ⟨tables, layout, isLayout, laid, numbers⟩ := c.shard_laid found
  refine lookup_of_tabulates numbers.binary ?_ fun heads v present holds => ?_
  · have distinct : (tables.binary.map (·.1)).Nodup := by
      refine (sorted_keys numbers.binary).imp fun {a b} lt eq => ?_
      simp only [eq, Std.ReflCmp.compare_self, reduceCtorEq] at lt
    refine findBinary_iff isLayout laid c.fit distinct (fun record member => ?_) left right
    have isKeyed : n.Keyed (.binary record.1.1 record.1.2) :=
      ⟨i, shard, found, mem_of_record numbers.binary member⟩
    exact ⟨c.symbol_small isKeyed List.mem_cons_self,
      c.symbol_small isKeyed (List.mem_cons_of_mem _ List.mem_cons_self),
      c.set_small numbers.binary member⟩
  · have has (h : Head) (member : h ∈ heads) : n.Has (.binary left right) h := by
      refine ⟨i, shard, found, ?_⟩
      rw [Tables.headsOf, Std.TreeMap.getD_eq_getD_getElem?, present]
      exact member
    exact c.heads_eq has holds

theorem findTerminal_eq (c : Compiled n withNames r) (found : n.shards[i]? = some shard)
    (text : String) :
    (r.findTerminal i text true).map r.heads =
        shard.tables.exact[text]?.map (·.map Head.stored) ∧
      (r.findTerminal i text false).map r.heads =
        shard.tables.folded[text]?.map (·.map Head.stored) := by
  obtain ⟨tables, layout, isLayout, laid, numbers⟩ := c.shard_laid found
  rw [findTerminal_eq_search isLayout, findTerminal_eq_search isLayout]
  constructor
  · refine lookup_of_tabulates numbers.exact ?_ fun heads v present holds => ?_
    · refine searchText_iff laid.exact.1 laid.exact.2 (sorted_keys numbers.exact)
        (fun record member => c.set_small numbers.exact member) (fun record member => ?_) text
      have isKey : shard.tables.HasKey (.literal record.1 true) := mem_of_record numbers.exact member
      exact c.terminal?_eq found isKey
    · have has (h : Head) (member : h ∈ heads) : n.Has (.literal text true) h := by
        refine ⟨i, shard, found, ?_⟩
        rw [Tables.headsOf, Std.TreeMap.getD_eq_getD_getElem?, present]
        exact member
      exact c.heads_eq has holds
  · refine lookup_of_tabulates numbers.folded ?_ fun heads v present holds => ?_
    · refine searchText_iff laid.folded.1 laid.folded.2 (sorted_keys numbers.folded)
        (fun record member => c.set_small numbers.folded member) (fun record member => ?_) text
      have isKey : shard.tables.HasKey (.literal record.1 false) :=
        mem_of_record numbers.folded member
      exact c.terminal?_eq found isKey
    · have has (h : Head) (member : h ∈ heads) : n.Has (.literal text false) h := by
        refine ⟨i, shard, found, ?_⟩
        rw [Tables.headsOf, Std.TreeMap.getD_eq_getD_getElem?, present]
        exact member
      exact c.heads_eq has holds

end

theorem structural_eq (c : Compiled n withNames r) : r.layout.structural = n.structural := by
  have slot (i : Nat) (s : Symbol) (found : n.structural.toList[i]? = some s) :
      Layout.slot r.buffer i = s := by
    have small : s < wordBound :=
      lt_wordBound (Nat.lt_of_le_of_lt (c.slots s (List.mem_of_getElem? found)) c.few)
    exact (slot_eq c.laid c.fit found).trans (Nat.mod_eq_of_lt small)
  have runs : (Vector.ofFn fun i => Layout.slot r.buffer (5 + i.val)) = n.structural.runs := by
    apply Vector.ext
    intro i inRange
    rw [Vector.getElem_ofFn]
    apply slot
    have later : 5 + i - [n.structural.start, n.structural.stop, n.structural.token,
        n.structural.uppercaseToken, n.structural.digits].length = i := Nat.add_sub_cancel_left 5 i
    rw [Structural.Symbols.toList, List.getElem?_append_right (Nat.le_add_right 5 i), later,
      Vector.getElem?_toList]
    exact Vector.getElem?_eq_getElem inRange
  rw [c.reads.structural, Layout.slots, runs, slot 0 n.structural.start rfl,
    slot 1 n.structural.stop rfl, slot 2 n.structural.token rfl,
    slot 3 n.structural.uppercaseToken rfl, slot 4 n.structural.digits rfl]

theorem label?_eq_none (c : Compiled n withNames r) (empty : n.labels.isEmpty = true)
    (name : String) : r.label? name = none := by
  have count : r.layout.labels.count = 0 := by
    rw [c.fits.labels]
    have none : n.labels.toList = [] := by
      rw [← List.isEmpty_iff, Std.TreeMap.isEmpty_toList]
      exact empty
    refine (List.length_map ..).trans ?_
    rw [none]
    rfl
  rw [label?, searchText, count, search]
  rfl

/-- Compiling keeps everything that matching asks for. -/
theorem faithful (c : Compiled n withNames r) : Faithful n r where
  shards := c.shardCount_eq
  exact _ _ found text := (c.findTerminal_eq found text).1
  folded _ _ found text := (c.findTerminal_eq found text).2
  unary _ _ found operand := c.findUnary_eq found operand
  binary _ _ found left right := c.findBinary_eq found left right
  isFilter := isFilter_eq c.laid c.fits
  structural := c.structural_eq
  labels := c.label?_eq_none

end Compiled

end Phrasebook.RuleSet
