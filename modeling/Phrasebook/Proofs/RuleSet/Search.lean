import Phrasebook.Proofs.RuleSet.Bytes

namespace Phrasebook.RuleSet

section
variable {κ : Type} [Ord κ] [Std.TransOrd κ] [Std.LawfulEqOrd κ] {keys : List κ} {key : κ}
  {table : Table} {width : Nat} {order : Nat → Option Ordering}

/-- The search finds a key that lies in the range, and nothing if there is none. -/
theorem search_spec (sorted : keys.Pairwise (compare · · = .lt))
    (reads : ∀ i k, keys[i]? = some k → order (table.offset + i * width) = some (compare k key))
    (lo hi : Nat) (inside : hi ≤ keys.length) :
    (∃ i, keys[i]? = some key ∧
      search table width order lo hi = some (table.offset + i * width)) ∨
    ((∀ i, lo ≤ i → i < hi → keys[i]? ≠ some key) ∧ search table width order lo hi = none) := by
  have before {i j : Nat} {a b : κ} (lt : i < j) (isA : keys[i]? = some a)
      (isB : keys[j]? = some b) : compare a b = .lt := by
    obtain ⟨inI, rfl⟩ := List.getElem?_eq_some_iff.mp isA
    obtain ⟨inJ, rfl⟩ := List.getElem?_eq_some_iff.mp isB
    exact List.pairwise_iff_getElem.mp sorted i j inI inJ lt
  have middle {lo hi : Nat} (lt : lo < hi) (within : hi ≤ keys.length) :
      ∃ k, keys[lo + (hi - lo) / 2]? = some k :=
    ⟨_, List.getElem?_eq_getElem (by omega)⟩
  fun_induction search table width order lo hi with
  | case1 lo hi lt mid offset unread =>
    obtain ⟨k, isK⟩ := middle lt inside
    have read : order offset = some (compare k key) := reads mid k isK
    rw [unread] at read
    cases read
  | case2 lo hi lt mid offset isLess ih =>
    obtain ⟨k, isK⟩ := middle lt inside
    have less : compare k key = .lt :=
      Option.some.inj ((reads mid k isK).symm.trans isLess)
    rcases ih inside with found | ⟨absent, none⟩
    · exact .inl found
    · refine .inr ⟨fun i low high isKey => ?_, none⟩
      by_cases later : mid + 1 ≤ i
      · exact absent i later high isKey
      · by_cases here : i = mid
        · rw [here, isK] at isKey
          simp only [Option.some.inj isKey, Std.ReflCmp.compare_self, reduceCtorEq] at less
        · have greater := before (by omega) isKey isK
          rw [Std.OrientedOrd.eq_swap, less] at greater
          cases greater
  | case3 lo hi lt mid offset isGreater ih =>
    obtain ⟨k, isK⟩ := middle lt inside
    have greater : compare k key = .gt :=
      Option.some.inj ((reads mid k isK).symm.trans isGreater)
    rcases ih (by omega) with found | ⟨absent, none⟩
    · exact .inl found
    · refine .inr ⟨fun i low high isKey => ?_, none⟩
      by_cases earlier : i < mid
      · exact absent i low earlier isKey
      · by_cases here : i = mid
        · rw [here, isK] at isKey
          simp only [Option.some.inj isKey, Std.ReflCmp.compare_self, reduceCtorEq] at greater
        · have less := before (by omega) isK isKey
          rw [less] at greater
          cases greater
  | case4 lo hi lt mid offset isEqual =>
    obtain ⟨k, isK⟩ := middle lt inside
    have equal : compare k key = .eq :=
      Option.some.inj ((reads mid k isK).symm.trans isEqual)
    obtain rfl := Std.LawfulEqCmp.eq_of_compare equal
    exact .inl ⟨mid, isK, rfl⟩
  | case5 lo hi empty =>
    exact .inr ⟨fun i low high => absurd high (by omega), rfl⟩

/-- A value stands next to its key. -/
theorem search_value {records : List (κ × β)} {value? : Nat → Option β}
    (sorted : (records.map (·.1)).Pairwise (compare · · = .lt))
    (reads : ∀ (i : Nat) k v, records[i]? = some (k, v) →
      order (table.offset + i * width) = some (compare k key) ∧
        value? (table.offset + i * width) = some v)
    (count : table.count = records.length) (v : β) :
    (search table width order 0 table.count).bind value? = some v ↔ (key, v) ∈ records := by
  have readsKey (i : Nat) (k : κ) (isK : (records.map (·.1))[i]? = some k) :
      order (table.offset + i * width) = some (compare k key) := by
    rw [List.getElem?_map] at isK
    obtain ⟨record, found, rfl⟩ := Option.map_eq_some_iff.mp isK
    exact (reads i record.1 record.2 found).1
  have spec := search_spec sorted readsKey 0 table.count (by simp [count])
  have unique {i j : Nat} {a b : β} (isA : records[i]? = some (key, a))
      (isB : records[j]? = some (key, b)) : a = b := by
    have noLt {i j : Nat} {a b : β} (isA : records[i]? = some (key, a))
        (isB : records[j]? = some (key, b)) : ¬ i < j := by
      intro lt
      obtain ⟨inI, eqI⟩ := List.getElem?_eq_some_iff.mp isA
      obtain ⟨inJ, eqJ⟩ := List.getElem?_eq_some_iff.mp isB
      have less := List.pairwise_iff_getElem.mp sorted i j (by simpa using inI)
        (by simpa using inJ) lt
      simp only [List.getElem_map, eqI, eqJ, Std.ReflCmp.compare_self] at less
      cases less
    have same : i = j := by
      have := noLt isA isB
      have := noLt isB isA
      omega
    subst same
    exact (Prod.mk.inj (Option.some.inj (isA.symm.trans isB))).2
  rcases spec with ⟨i, isKey, found⟩ | ⟨absent, none⟩
  · rw [List.getElem?_map] at isKey
    obtain ⟨⟨k, w⟩, isRecord, rfl⟩ := Option.map_eq_some_iff.mp isKey
    rw [found, Option.bind_some, (reads i k w isRecord).2]
    constructor
    · intro eq
      obtain rfl := Option.some.inj eq
      exact List.mem_of_getElem? isRecord
    · intro member
      obtain ⟨j, alsoRecord⟩ := List.mem_iff_getElem?.mp member
      rw [unique isRecord alsoRecord]
  · rw [none]
    constructor
    · intro eq
      cases eq
    · intro member
      obtain ⟨j, isRecord⟩ := List.mem_iff_getElem?.mp member
      obtain ⟨inRange, _⟩ := List.getElem?_eq_some_iff.mp isRecord
      exact absurd (by simp [isRecord]) (absent j (Nat.zero_le j) (count ▸ inRange))

end

section
variable {κ : Type} [BEq κ] [LawfulBEq κ] {records : List (κ × Nat)}

theorem find_key (distinct : (records.map (·.1)).Nodup) (key : κ) (v : Nat) :
    (records.find? fun record => record.1 == key).map (·.2) = some v ↔ (key, v) ∈ records := by
  induction records with
  | nil => simp
  | cons record rest ih =>
    obtain ⟨k, w⟩ := record
    rw [List.map_cons, List.nodup_cons] at distinct
    by_cases same : k = key
    · subst same
      have others : (k, v) ∉ rest := fun member =>
        distinct.1 (List.mem_map.mpr ⟨(k, v), member, rfl⟩)
      simp [others, eq_comm]
    · rw [List.find?_cons_of_neg (by simpa using same), ih distinct.2, List.mem_cons, Prod.mk.injEq]
      simp [Ne.symm same]

end

/-- The records of one bucket, in the order in which they were spread. -/
theorem getElem?_intoBuckets (count : Nat) (records : List ((Symbol × Symbol) × Nat)) {b : Nat}
    (inRange : b < count) :
    (intoBuckets count records)[b]? =
      some (records.filter fun record => bucketOf record.1.1 record.1.2 count == b).toArray := by
  have each (buckets : Array (Array ((Symbol × Symbol) × Nat))) (bucket : Array _)
      (found : buckets[b]? = some bucket) :
      (records.foldl (fun buckets record =>
        buckets.modify (bucketOf record.1.1 record.1.2 count) (·.push record)) buckets)[b]? =
      some (bucket ++
        (records.filter fun record => bucketOf record.1.1 record.1.2 count == b).toArray) := by
    induction records generalizing buckets bucket with
    | nil => simp [found]
    | cons record rest ih =>
      rw [List.foldl_cons]
      by_cases here : bucketOf record.1.1 record.1.2 count = b
      · rw [ih _ (bucket.push record) (by simp [Array.getElem?_modify, here, found])]
        simp [here]
      · rw [ih _ bucket (by simp [Array.getElem?_modify, here, found])]
        simp [here]
  have start : (Array.replicate count (#[] : Array ((Symbol × Symbol) × Nat)))[b]? = some #[] := by
    simp [inRange]
  simpa [intoBuckets] using each _ _ start

theorem size_intoBuckets (count : Nat) (records : List ((Symbol × Symbol) × Nat)) :
    (intoBuckets count records).size = count := by
  have each (buckets : Array (Array ((Symbol × Symbol) × Nat))) :
      (records.foldl (fun buckets record =>
        buckets.modify (bucketOf record.1.1 record.1.2 count) (·.push record)) buckets).size =
      buckets.size := by
    induction records generalizing buckets with
    | nil => rfl
    | cons record rest ih => simp [ih]
  simp [intoBuckets, each]

theorem sum_modify_push (buckets : List (Array β)) (x : β) {i : Nat} (inRange : i < buckets.length) :
    ((buckets.modify i (·.push x)).map (·.size)).sum = (buckets.map (·.size)).sum + 1 := by
  induction buckets generalizing i with
  | nil => cases inRange
  | cons first rest ih =>
    cases i with
    | zero =>
      simp only [List.modify_zero_cons, List.map_cons, List.sum_cons, Array.size_push]
      omega
    | succ i =>
      simp only [List.modify_succ_cons, List.map_cons, List.sum_cons]
      rw [ih (by simpa using inRange)]
      omega

/-- Spreading loses no record. -/
theorem sum_intoBuckets {count : Nat} (positive : 0 < count)
    (records : List ((Symbol × Symbol) × Nat)) :
    ((intoBuckets count records).toList.map (·.size)).sum = records.length := by
  have each (buckets : Array (Array ((Symbol × Symbol) × Nat))) (size : buckets.size = count) :
      ((records.foldl (fun buckets record =>
        buckets.modify (bucketOf record.1.1 record.1.2 count) (·.push record))
          buckets).toList.map (·.size)).sum =
      (buckets.toList.map (·.size)).sum + records.length := by
    induction records generalizing buckets with
    | nil => rfl
    | cons record rest ih =>
      have inRange : bucketOf record.1.1 record.1.2 count < buckets.toList.length := by
        rw [Array.length_toList, size]
        exact Nat.mod_lt _ positive
      rw [List.foldl_cons, ih _ (by simpa using size), Array.toList_modify,
        sum_modify_push _ _ inRange, List.length_cons]
      omega
  have start := each (Array.replicate count #[]) (by simp)
  simpa [intoBuckets] using start

/-- The range of a list among all lists laid end to end. -/
theorem getElem?_bucketRanges (lists : List (List β)) (start : Nat) {i : Nat} {xs : List β}
    (found : lists[i]? = some xs) :
    (bucketRanges start (lists.map (·.length)))[i]? =
      some (start + (lists.take i).flatten.length, xs.length) := by
  induction lists generalizing start i with
  | nil => cases found
  | cons first rest ih =>
    cases i with
    | zero =>
      obtain rfl := Option.some.inj found
      rfl
    | succ i =>
      rw [List.map_cons, bucketRanges, List.getElem?_cons_succ, ih _ found]
      simp [Nat.add_assoc]

theorem getElem?_flatten (lists : List (List β)) {i : Nat} {xs : List β}
    (found : lists[i]? = some xs) {k : Nat} (inRange : k < xs.length) :
    lists.flatten[(lists.take i).flatten.length + k]? = xs[k]? := by
  induction lists generalizing i with
  | nil => cases found
  | cons first rest ih =>
    cases i with
    | zero =>
      obtain rfl := Option.some.inj found
      simp [List.getElem?_append_left inRange]
    | succ i =>
      rw [List.take_succ_cons, List.flatten_cons, List.flatten_cons, List.length_append,
        Nat.add_assoc, List.getElem?_append_right (by omega), Nat.add_sub_cancel_left]
      exact ih found

theorem length_take_flatten (lists : List (List β)) {i : Nat} {xs : List β}
    (found : lists[i]? = some xs) :
    (lists.take i).flatten.length + xs.length ≤ lists.flatten.length := by
  induction lists generalizing i with
  | nil => cases found
  | cons first rest ih =>
    cases i with
    | zero =>
      obtain rfl := Option.some.inj found
      simp
    | succ i =>
      have later := ih found
      simp only [List.take_succ_cons, List.flatten_cons, List.length_append]
      omega

theorem findUnary_eq_search {r : RuleSet} {i : Nat} {shard : ShardLayout} (isShard : r.shard? i = some shard)
    (operand : Symbol) :
    r.findUnary i operand =
      (r.searchWord shard.unary 8 operand).bind fun offset => r.wordAt? (offset + 4) := by
  simp only [findUnary, isShard]
  rfl

theorem findTerminal_eq_search {r : RuleSet} {i : Nat} {shard : ShardLayout} (isShard : r.shard? i = some shard)
    (text : String) (caseSensitive : Bool) :
    r.findTerminal i text caseSensitive =
      (r.searchText (if caseSensitive then shard.exact else shard.folded) r.terminal? text).bind
        fun offset => r.wordAt? (offset + 4) := by
  simp only [findTerminal, isShard]
  rfl

/-- Scanning a run of records finds the first of its pair. -/
theorem findPair_eq (r : RuleSet) (binary : Table) (left right : Symbol)
    (run : List ((Symbol × Symbol) × Nat)) (i : Nat)
    (reads : ∀ (k : Nat) a b v, run[k]? = some ((a, b), v) →
      r.wordAt? (binary.offset + (i + k) * 12) = some a ∧
        r.wordAt? (binary.offset + (i + k) * 12 + 4) = some b ∧
        r.wordAt? (binary.offset + (i + k) * 12 + 8) = some v) :
    r.findPair binary left right i run.length =
      (run.find? fun record => record.1 == (left, right)).map (·.2) := by
  induction run generalizing i with
  | nil => rfl
  | cons record rest ih =>
    obtain ⟨⟨a, b⟩, v⟩ := record
    obtain ⟨readsA, readsB, readsV⟩ := reads 0 a b v rfl
    have later := ih (i + 1) fun k a b v found => by
      have := reads (k + 1) a b v found
      rwa [← Nat.add_assoc, Nat.add_right_comm] at this
    simp only [Nat.add_zero] at readsA readsB readsV
    rw [List.length_cons, findPair]
    simp only [readsA, readsB, readsV]
    by_cases same : a = left ∧ b = right
    · simp [same]
    · have differs : ¬ (some a == some left && some b == some right) = true := by simpa using same
      rw [if_neg differs, later, List.find?_cons_of_neg (by simpa using same)]

end Phrasebook.RuleSet
