import Phrasebook.Proofs.Session.Growth

/-!
A chart as linked lists. Each bucket has a first match and each match may have a next one; a match
enters by walking its bucket to where it belongs and setting two links there. As long as no match
enters twice, the walk ends and the links lead through the buckets of the chart.
-/

namespace Phrasebook

/-- The first match of each bucket, and the next one after each match. -/
structure Links where
  first : Fin bucketCount → Option MatchId := fun _ => none
  next : MatchId → Option MatchId := fun _ => none

namespace Links

/-- The links from `cursor` on lead through `ids` and then end. -/
inductive Chain (l : Links) : Option MatchId → List MatchId → Prop
  | nil : Chain l none []
  | cons {id : MatchId} {rest : List MatchId} (later : Chain l (l.next id) rest) :
      Chain l (some id) (id :: rest)

/-- `l.Walks a stop prev cursor p c` says that going from `cursor` over the matches that stop after
`stop` ends before `c`, where `p` was passed last. `prev` was passed before `cursor`. -/
inductive Walks (l : Links) (a : Arena) (stop : Nat) :
    Option MatchId → Option MatchId → Option MatchId → Option MatchId → Prop
  | atEnd {prev : Option MatchId} : Walks l a stop prev none prev none
  | unknown {prev : Option MatchId} {id : MatchId} (none : a.get? id = none) :
      Walks l a stop prev (some id) prev (some id)
  | here {prev : Option MatchId} {id : MatchId} {m : Match} (found : a.get? id = some m)
      (reached : m.span.stop ≤ stop) : Walks l a stop prev (some id) prev (some id)
  | later {prev p c : Option MatchId} {id : MatchId} {m : Match} (found : a.get? id = some m)
      (after : stop < m.span.stop) (rest : Walks l a stop (some id) (l.next id) p c) :
      Walks l a stop prev (some id) p c

/-- Puts `id` between `prev` and `cursor` in the bucket `i`. -/
def splice (l : Links) (i : Fin bucketCount) (id : MatchId) (prev cursor : Option MatchId) : Links :=
  let next := Function.update l.next id cursor
  match prev with
  | none => ⟨Function.update l.first i (some id), next⟩
  | some p => ⟨l.first, Function.update next p (some id)⟩

/-- The match `id` enters where the walk through its bucket ends. -/
def Enters (l : Links) (a : Arena) (id : MatchId) (after : Links) : Prop :=
  ∃ m prev cursor, a.get? id = some m ∧
    l.Walks a m.span.stop none (l.first (Chart.bucketIndex m.span.stop)) prev cursor ∧
    after = l.splice (Chart.bucketIndex m.span.stop) id prev cursor

/-- The matches `ids` have entered in turn, the last of the list first. -/
inductive Entered (a : Arena) : List MatchId → Links → Prop
  | nil : Entered a [] {}
  | cons {id : MatchId} {ids : List MatchId} {l after : Links} (earlier : Entered a ids l)
      (enters : l.Enters a id after) : Entered a (id :: ids) after

theorem Chain.eq_head? {l : Links} {cursor : Option MatchId} {ids : List MatchId}
    (chain : l.Chain cursor ids) : cursor = ids.head? := by
  cases chain with
  | nil => rfl
  | cons later => rfl

theorem Chain.congr {l k : Links} {cursor : Option MatchId} {ids : List MatchId}
    (chain : l.Chain cursor ids) (same : ∀ id ∈ ids, k.next id = l.next id) : k.Chain cursor ids := by
  induction chain with
  | nil => exact .nil
  | cons later ih =>
    refine .cons ?_
    rw [same _ List.mem_cons_self]
    exact ih fun id member => same id (List.mem_cons_of_mem _ member)

/-- A link out of a chain and back into it lengthens it by one match. -/
theorem Chain.splice_some {l : Links} {i : Fin bucketCount} {id p : MatchId}
    {cursor : Option MatchId} {before after : List MatchId}
    (chain : l.Chain cursor (before ++ p :: after)) (distinct : (before ++ p :: after).Nodup)
    (fresh : id ∉ before ++ p :: after) :
    (l.splice i id (some p) after.head?).Chain cursor (before ++ p :: id :: after) := by
  have next (x : MatchId) : (l.splice i id (some p) after.head?).next x =
      if x = p then some id else if x = id then after.head? else l.next x := by
    simp [splice, Function.update_apply]
  induction before generalizing cursor with
  | nil =>
    obtain ⟨unique, _⟩ := List.nodup_cons.mp distinct
    have ⟨ne, notLater⟩ : id ≠ p ∧ id ∉ after := by simpa using fresh
    cases chain with
    | cons later =>
      refine .cons ?_
      rw [next, if_pos rfl]
      refine .cons ?_
      rw [next, if_neg ne, if_pos rfl]
      refine (later.eq_head? ▸ later).congr fun x member => ?_
      rw [next, if_neg (ne_of_mem_of_not_mem member unique),
        if_neg (ne_of_mem_of_not_mem member notLater)]
  | cons x rest ih =>
    obtain ⟨unique, distinct'⟩ := List.nodup_cons.mp distinct
    have ⟨ne, fresh'⟩ : id ≠ x ∧ id ∉ rest ++ p :: after := by simpa using fresh
    cases chain with
    | cons later =>
      refine .cons ?_
      have other : x ≠ p := by
        rintro rfl
        exact unique (by simp)
      rw [next, if_neg other, if_neg (Ne.symm ne)]
      exact ih later distinct' fresh'

/-- In its own bucket the match stands between the two that it was put between. -/
theorem Chain.splice {l : Links} {i : Fin bucketCount} {id : MatchId} {before after : List MatchId}
    (chain : l.Chain (l.first i) (before ++ after)) (distinct : (before ++ after).Nodup)
    (fresh : id ∉ before ++ after) :
    (l.splice i id before.getLast? after.head?).Chain
      ((l.splice i id before.getLast? after.head?).first i) (before ++ id :: after) := by
  rcases List.eq_nil_or_concat before with rfl | ⟨init, p, rfl⟩
  · have first : (l.splice i id none after.head?).first i = some id := Function.update_self ..
    rw [List.getLast?_nil, first]
    refine .cons ?_
    have next : (l.splice i id none after.head?).next id = after.head? := Function.update_self ..
    have chain : l.Chain after.head? after := chain.eq_head? ▸ chain
    rw [next]
    exact chain.congr fun x member => Function.update_of_ne (ne_of_mem_of_not_mem member fresh) ..
  · simp only [List.concat_eq_append, List.append_assoc, List.singleton_append] at *
    rw [List.getLast?_append]
    exact chain.splice_some distinct fresh

/-- The chains of other buckets stay as they are. -/
theorem Chain.splice_ne {l : Links} {i j : Fin bucketCount} {id : MatchId}
    {prev cursor : Option MatchId} {ids : List MatchId} (chain : l.Chain (l.first j) ids)
    (ne : j ≠ i) (fresh : id ∉ ids) (elsewhere : ∀ p ∈ prev, p ∉ ids) :
    (l.splice i id prev cursor).Chain ((l.splice i id prev cursor).first j) ids := by
  cases prev with
  | none =>
    have first : (l.splice i id none cursor).first j = l.first j := Function.update_of_ne ne ..
    rw [first]
    exact chain.congr fun x member => Function.update_of_ne (ne_of_mem_of_not_mem member fresh) ..
  | some p =>
    refine chain.congr fun x member => ?_
    exact (Function.update_of_ne (ne_of_mem_of_not_mem member (elsewhere p rfl)) ..).trans
      (Function.update_of_ne (ne_of_mem_of_not_mem member fresh) ..)

end Links

namespace Chart

theorem insertInto_eq (entry : Nat × MatchId) (entries : List (Nat × MatchId)) :
    insertInto entry entries =
      entries.takeWhile (entry.1 < ·.1) ++ entry :: entries.dropWhile (entry.1 < ·.1) := by
  induction entries with
  | nil => rfl
  | cons next rest ih =>
    rw [insertInto]
    by_cases later : entry.1 < next.1
    · simp [later, ih]
    · simp [later]

theorem insertInto_perm (entry : Nat × MatchId) (entries : List (Nat × MatchId)) :
    (insertInto entry entries).Perm (entry :: entries) := by
  rw [insertInto_eq]
  refine List.perm_middle.trans (.cons entry ?_)
  rw [List.takeWhile_append_dropWhile]

/-- The chart that the entries have been put into in turn, the last of the list first. -/
def ofEntries (entries : List (Nat × MatchId)) : Chart :=
  entries.foldr (fun entry c => c.insert entry.1 entry.2) {}

theorem sorted_ofEntries (entries : List (Nat × MatchId)) : (ofEntries entries).Sorted := by
  induction entries with
  | nil => exact sorted_empty
  | cons entry rest ih => exact ih.insert entry.1 entry.2

/-- Each bucket holds its entries and no others. -/
theorem bucket_ofEntries (entries : List (Nat × MatchId)) (stop : Nat) :
    ((ofEntries entries).bucket stop).Perm
      (entries.filter (·.1 % bucketCount == stop % bucketCount)) := by
  induction entries with
  | nil => simp [ofEntries, bucket, Vector.get]
  | cons entry rest ih =>
    have inserted : (ofEntries (entry :: rest)).bucket stop = _ :=
      bucket_insert (ofEntries rest) entry.1 stop entry.2
    rw [inserted, List.filter_cons]
    by_cases here : entry.1 % bucketCount = stop % bucketCount
    · simp only [here, ↓reduceIte, beq_self_eq_true]
      exact (insertInto_perm entry _).trans (.cons entry ih)
    · simpa [here, Ne.symm here] using ih

theorem endingAt_ofEntries (entries : List (Nat × MatchId)) (stop : Nat) :
    (ofEntries entries).endingAt stop = (entries.filter (·.1 == stop)).map (·.2) := by
  induction entries with
  | nil => exact endingAt_empty stop
  | cons entry rest ih =>
    have inserted : (ofEntries (entry :: rest)).endingAt stop = _ :=
      endingAt_insert (sorted_ofEntries rest) entry.1 stop entry.2
    rw [inserted, ih, List.filter_cons]
    by_cases here : stop = entry.1
    · simp [here]
    · simp [here, Ne.symm here]

end Chart

namespace Arena

/-- A match under its stop. -/
def entry? (a : Arena) (id : MatchId) : Option (Nat × MatchId) :=
  (a.get? id).map fun m => (m.span.stop, id)

theorem entry?_eq_some {a : Arena} {id : MatchId} {entry : Nat × MatchId} :
    a.entry? id = some entry ↔ ∃ m, a.get? id = some m ∧ (m.span.stop, id) = entry :=
  Option.map_eq_some_iff

theorem Keeps.entry? {a b : Arena} (keeps : a.Keeps b) {id : MatchId} (known : id < a.size) :
    b.entry? id = a.entry? id := by
  obtain ⟨m, found⟩ := get?_of_lt_size known
  obtain ⟨kind, found'⟩ := keeps id m found
  rw [Arena.entry?, Arena.entry?, found, found']
  rfl

/-- All entries are found when all matches are. -/
theorem map_entries {a : Arena} {ids : List MatchId} (known : ∀ id ∈ ids, id < a.size) :
    (ids.filterMap a.entry?).map (·.2) = ids := by
  induction ids with
  | nil => rfl
  | cons id rest ih =>
    obtain ⟨m, found⟩ := get?_of_lt_size (known id List.mem_cons_self)
    have isEntry : a.entry? id = some (m.span.stop, id) := entry?_eq_some.mpr ⟨m, found, rfl⟩
    rw [List.filterMap_cons_some isEntry, List.map_cons,
      ih fun id member => known id (List.mem_cons_of_mem _ member)]

theorem filterMap_entry?_filter {a : Arena} (p : Nat → Bool) (ids : List MatchId) :
    ((ids.filterMap a.entry?).filter (p ·.1)).map (·.2) =
      ids.filter fun id => (a.get? id).any (p ·.span.stop) := by
  induction ids with
  | nil => rfl
  | cons id rest ih =>
    rw [List.filterMap_cons, List.filter_cons, entry?]
    cases a.get? id with
    | none => simpa using ih
    | some m => cases here : p m.span.stop <;> simp [here, ih]

end Arena

namespace Links

/-- The links of each bucket lead through what it holds. -/
def Spells (l : Links) (c : Chart) : Prop :=
  ∀ stop, l.Chain (l.first (Chart.bucketIndex stop)) ((c.bucket stop).map (·.2))

theorem spells_empty : Spells {} {} := by
  intro stop
  simpa [Chart.bucket, Vector.get] using Chain.nil

/-- Going along a chain ends before the first match that does not stop later. -/
theorem walks {l : Links} {a : Arena} {entries : List (Nat × MatchId)} {cursor : Option MatchId}
    (chain : l.Chain cursor (entries.map (·.2))) (known : ∀ e ∈ entries, a.entry? e.2 = some e)
    (stop : Nat) (prev : Option MatchId) :
    l.Walks a stop prev cursor
      (((entries.takeWhile (stop < ·.1)).map (·.2)).getLast?.or prev)
      ((entries.dropWhile (stop < ·.1)).map (·.2)).head? := by
  induction entries generalizing cursor prev with
  | nil =>
    cases chain with
    | nil => exact .atEnd
  | cons e rest ih =>
    obtain ⟨m, found, isEntry⟩ := Arena.entry?_eq_some.mp (known e List.mem_cons_self)
    have isStop : m.span.stop = e.1 := congrArg Prod.fst isEntry
    cases chain with
    | cons later =>
      by_cases after : stop < e.1
      · have walk := ih later (fun e member => known e (List.mem_cons_of_mem _ member)) (some e.2)
        refine .later found (isStop.symm ▸ after) ?_
        simpa [after, List.getLast?_cons] using walk
      · have reached : m.span.stop ≤ stop := isStop.symm ▸ Nat.le_of_not_lt after
        simpa [after] using Walks.here found reached

/-- Every entry is known to the arena, is in the bucket of its stop, and is there once. -/
structure Keyed (a : Arena) (c : Chart) : Prop where
  known : ∀ stop, ∀ e ∈ c.bucket stop, a.entry? e.2 = some e
  placed : ∀ stop, ∀ e ∈ c.bucket stop, e.1 % bucketCount = stop % bucketCount
  distinct : ∀ stop, ((c.bucket stop).map (·.2)).Nodup

/-- A match that has not entered before enters the links as it enters the chart. -/
theorem Spells.enter {l : Links} {c : Chart} {a : Arena} {id : MatchId} {m : Match}
    (spells : l.Spells c) (keyed : Keyed a c) (found : a.get? id = some m)
    (fresh : ∀ stop, id ∉ (c.bucket stop).map (·.2)) :
    ∃ after, l.Enters a id after ∧ after.Spells (c.insert m.span.stop id) := by
  have walk := walks (spells m.span.stop) (keyed.known m.span.stop) m.span.stop none
  rw [Option.or_none] at walk
  refine ⟨_, ⟨m, _, _, found, walk, rfl⟩, fun stop => ?_⟩
  rw [Chart.bucket_insert]
  by_cases same : stop % bucketCount = m.span.stop % bucketCount
  · have index : Chart.bucketIndex stop = Chart.bucketIndex m.span.stop := Fin.ext same
    have bucket : c.bucket stop = c.bucket m.span.stop := by
      rw [Chart.bucket, index]
      rfl
    have split : (c.bucket m.span.stop).map (·.2) =
        ((c.bucket m.span.stop).takeWhile (m.span.stop < ·.1)).map (·.2) ++
          ((c.bucket m.span.stop).dropWhile (m.span.stop < ·.1)).map (·.2) := by
      rw [← List.map_append, List.takeWhile_append_dropWhile]
    rw [if_pos same, index, bucket, Chart.insertInto_eq, List.map_append, List.map_cons]
    exact Chain.splice (split ▸ spells m.span.stop) (split ▸ keyed.distinct m.span.stop)
      (split ▸ fresh m.span.stop)
  · have ne : Chart.bucketIndex stop ≠ Chart.bucketIndex m.span.stop := fun h =>
      same (congrArg Fin.val h)
    rw [if_neg same]
    refine (spells stop).splice_ne ne (fresh stop) fun p isLast isHere => ?_
    have passed := List.mem_of_mem_getLast? isLast
    obtain ⟨e, isEntry, rfl⟩ := List.mem_map.mp passed
    have isEntry := (List.takeWhile_sublist _).subset isEntry
    obtain ⟨e', isEntry', sameId⟩ := List.mem_map.mp isHere
    have known := keyed.known stop e' isEntry'
    rw [sameId, keyed.known _ e isEntry] at known
    obtain rfl := Option.some.inj known
    exact same ((keyed.placed stop e isEntry').symm.trans (keyed.placed _ e isEntry))

theorem keyed_ofEntries {a : Arena} {ids : List MatchId} (distinct : ids.Nodup)
    (known : ∀ id ∈ ids, id < a.size) : Keyed a (.ofEntries (ids.filterMap a.entry?)) := by
  have isKnown (e : Nat × MatchId) (member : e ∈ ids.filterMap a.entry?) :
      a.entry? e.2 = some e := by
    obtain ⟨id, _, isEntry⟩ := List.mem_filterMap.mp member
    obtain ⟨m, found, rfl⟩ := Arena.entry?_eq_some.mp isEntry
    exact isEntry
  have inBucket (stop : Nat) (e : Nat × MatchId)
      (member : e ∈ (Chart.ofEntries (ids.filterMap a.entry?)).bucket stop) :=
    List.mem_filter.mp ((Chart.bucket_ofEntries _ stop).mem_iff.mp member)
  refine ⟨fun stop e member => isKnown e (inBucket stop e member).1,
    fun stop e member => by simpa using (inBucket stop e member).2, fun stop => ?_⟩
  rw [((Chart.bucket_ofEntries _ stop).map _).nodup_iff]
  refine List.Nodup.sublist (List.filter_sublist.map _) ?_
  rw [Arena.map_entries known]
  exact distinct

/-- Matches that enter once each leave links that lead through the chart. -/
theorem exists_entered {a : Arena} {ids : List MatchId} (distinct : ids.Nodup)
    (known : ∀ id ∈ ids, id < a.size) :
    ∃ l, Entered a ids l ∧ l.Spells (.ofEntries (ids.filterMap a.entry?)) := by
  induction ids with
  | nil => exact ⟨{}, .nil, spells_empty⟩
  | cons id rest ih =>
    obtain ⟨new, distinct⟩ := List.nodup_cons.mp distinct
    obtain ⟨here, known⟩ := List.forall_mem_cons.mp known
    obtain ⟨l, entered, spells⟩ := ih distinct known
    obtain ⟨m, found⟩ := Arena.get?_of_lt_size here
    have isEntry : a.entry? id = some (m.span.stop, id) :=
      Arena.entry?_eq_some.mpr ⟨m, found, rfl⟩
    have fresh (stop : Nat) :
        id ∉ ((Chart.ofEntries (rest.filterMap a.entry?)).bucket stop).map (·.2) := by
      rw [((Chart.bucket_ofEntries _ stop).map _).mem_iff]
      intro member
      refine new ?_
      rw [← Arena.map_entries known]
      exact (List.filter_sublist.map _).subset member
    obtain ⟨after, enters, spells⟩ := spells.enter (keyed_ofEntries distinct known) found fresh
    refine ⟨after, .cons entered enters, ?_⟩
    rw [List.filterMap_cons_some isEntry]
    exact spells

end Links

/-- The chart that the matches `ids` have entered in turn, the last of the list first. As links, each
bucket is a chain of the matches with its stops, later stops first; read off by a stop, it gives the
matches that stop there, the latest first. -/
structure Chart.Charts (c : Chart) (a : Arena) (ids : List MatchId) : Prop where
  links : ∃ l, Links.Entered a ids l ∧ ∀ i : Fin bucketCount, ∃ chain,
    l.Chain (l.first i) chain ∧ chain = (c.buckets.get i).map (·.2) ∧
      chain.Perm (ids.filter fun id => (a.get? id).any (·.span.stop % bucketCount == i)) ∧
      chain.Nodup ∧
      chain.Pairwise fun x y => ∀ m n, a.get? x = some m → a.get? y = some n →
        n.span.stop ≤ m.span.stop
  endingAt : ∀ stop, c.endingAt stop = ids.filter fun id => (a.get? id).any (·.span.stop == stop)

theorem Chart.charts_ofEntries {a : Arena} {ids : List MatchId} (distinct : ids.Nodup)
    (known : ∀ id ∈ ids, id < a.size) :
    (Chart.ofEntries (ids.filterMap a.entry?)).Charts a ids := by
  obtain ⟨l, entered, spells⟩ := Links.exists_entered distinct known
  have keyed := Links.keyed_ofEntries distinct known
  refine ⟨⟨l, entered, fun i => ?_⟩, fun stop => ?_⟩
  · have index : bucketIndex i = i := Fin.ext (Nat.mod_eq_of_lt i.isLt)
    have bucket : (ofEntries (ids.filterMap a.entry?)).buckets.get i =
        (ofEntries (ids.filterMap a.entry?)).bucket i := by
      rw [Chart.bucket, index]
    have perm := (bucket_ofEntries (ids.filterMap a.entry?) i).map (·.2)
    rw [Arena.filterMap_entry?_filter (· % bucketCount == i % bucketCount),
      Nat.mod_eq_of_lt i.isLt] at perm
    have chain := spells i
    rw [index] at chain
    refine ⟨_, chain, by rw [bucket], perm, keyed.distinct i, ?_⟩
    rw [List.pairwise_map]
    refine (sorted_ofEntries _ i).imp_of_mem fun {d e} isD isE le m n isM isN => ?_
    obtain ⟨m', isM', eqM⟩ := Arena.entry?_eq_some.mp (keyed.known i d isD)
    obtain ⟨n', isN', eqN⟩ := Arena.entry?_eq_some.mp (keyed.known i e isE)
    obtain rfl := Option.some.inj (isM.symm.trans isM')
    obtain rfl := Option.some.inj (isN.symm.trans isN')
    rwa [← eqM, ← eqN] at le
  · rw [endingAt_ofEntries, Arena.filterMap_entry?_filter (· == stop)]

end Phrasebook
