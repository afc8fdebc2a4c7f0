import Mathlib
import Phrasebook.Session.Builtin

namespace Phrasebook

namespace Arena

@[simp] theorem size_push (a : Arena) (m : Match) : (a.push m).size = a.size + 1 := by
  simp [push, size]

theorem get?_push (a : Arena) (m : Match) (id : Nat) :
    (a.push m).get? id = if id = a.size then some m else a.get? id :=
  Array.getElem?_push

theorem get?_setKind (a : Arena) (id other : Nat) (kind : MatchKind) :
    (a.setKind id kind).get? other =
      if id = other then (a.get? other).map ({ · with kind }) else a.get? other := by
  simp [setKind, get?, Array.getElem?_modify]

theorem lt_size_of_get? {a : Arena} {id : Nat} {m : Match} (h : a.get? id = some m) :
    id < a.size := by
  obtain ⟨bound, _⟩ := Array.getElem?_eq_some_iff.mp h
  exact bound

theorem get?_of_lt_size {a : Arena} {id : Nat} (h : id < a.size) :
    ∃ m, a.get? id = some m :=
  ⟨a.entries[id], Array.getElem?_eq_getElem h⟩

/-- Every match of `a` is in `b` under the same id, though perhaps of another kind. -/
def Keeps (a b : Arena) : Prop :=
  ∀ (id : Nat) m, a.get? id = some m → ∃ kind, b.get? id = some { m with kind }

namespace Keeps

theorem refl (a : Arena) : Keeps a a := fun _ m h => ⟨m.kind, h⟩

theorem trans {a b c : Arena} (first : Keeps a b) (second : Keeps b c) : Keeps a c := by
  intro id m h
  obtain ⟨kind, hb⟩ := first id m h
  exact second id { m with kind } hb

theorem push (a : Arena) (m : Match) : Keeps a (a.push m) := by
  intro id other h
  have bound := lt_size_of_get? h
  exact ⟨other.kind, by rw [get?_push, if_neg (by omega), h]⟩

theorem setKind (a : Arena) (id : MatchId) (kind : MatchKind) : Keeps a (a.setKind id kind) := by
  intro other m h
  rw [get?_setKind]
  by_cases same : id = other
  · exact ⟨kind, by rw [if_pos same, h]; rfl⟩
  · exact ⟨m.kind, by rw [if_neg same, h]⟩

theorem size_le {a b : Arena} (keeps : Keeps a b) : a.size ≤ b.size := by
  apply Nat.le_of_not_lt
  intro smaller
  obtain ⟨m, h⟩ := get?_of_lt_size smaller
  obtain ⟨_, h'⟩ := keeps b.size m h
  exact Nat.lt_irrefl _ (lt_size_of_get? h')

end Keeps

end Arena

namespace Chart

/-- Later stops come first in every bucket. -/
def Sorted (c : Chart) : Prop := ∀ stop, (c.bucket stop).Pairwise fun a b => b.1 ≤ a.1

theorem sorted_empty : Sorted {} := by
  intro stop
  simp [bucket, Vector.get]

theorem bucket_insert (c : Chart) (stop e : Nat) (id : MatchId) :
    (c.insert stop id).bucket e =
      if e % bucketCount = stop % bucketCount then insertInto (stop, id) (c.bucket e)
      else c.bucket e := by
  have get (v : Vector (List (Nat × MatchId)) bucketCount) (i : Fin bucketCount) :
      v.get i = v[i] := rfl
  have index (n : Nat) : (bucketIndex n).val = n % bucketCount := rfl
  by_cases same : e % bucketCount = stop % bucketCount
  · simp [insert, bucket, get, index, same]
  · simp [insert, bucket, get, index, same, Ne.symm same]

theorem mem_insertInto {entry other : Nat × MatchId} {entries : List (Nat × MatchId)} :
    other ∈ insertInto entry entries ↔ other = entry ∨ other ∈ entries := by
  induction entries with
  | nil => simp [insertInto]
  | cons next rest ih =>
    rw [insertInto]
    split
    · simp only [List.mem_cons, ih]
      grind
    · simp

theorem insertInto_pairwise {entry : Nat × MatchId} {entries : List (Nat × MatchId)}
    (sorted : entries.Pairwise fun a b => b.1 ≤ a.1) :
    (insertInto entry entries).Pairwise fun a b => b.1 ≤ a.1 := by
  induction entries with
  | nil => simp [insertInto]
  | cons next rest ih =>
    obtain ⟨above, tail⟩ := List.pairwise_cons.mp sorted
    rw [insertInto]
    split
    · next later =>
      refine List.pairwise_cons.mpr ⟨fun other member => ?_, ih tail⟩
      rcases mem_insertInto.mp member with rfl | old
      · exact Nat.le_of_lt later
      · exact above other old
    · next here =>
      refine List.pairwise_cons.mpr ⟨fun other member => ?_, sorted⟩
      rcases List.mem_cons.mp member with rfl | old
      · omega
      · have := above other old
        omega

theorem Sorted.insert {c : Chart} (sorted : c.Sorted) (stop : Nat) (id : MatchId) :
    (c.insert stop id).Sorted := by
  intro e
  rw [bucket_insert]
  split
  · exact insertInto_pairwise (sorted e)
  · exact sorted e

/-- In sorted entries those of one stop stand together. -/
theorem takeWhile_dropWhile_eq_filter {entries : List (Nat × MatchId)}
    (sorted : entries.Pairwise fun a b => b.1 ≤ a.1) (stop : Nat) :
    (entries.dropWhile (stop < ·.1)).takeWhile (·.1 == stop) =
      entries.filter (·.1 == stop) := by
  induction entries with
  | nil => rfl
  | cons next rest ih =>
    obtain ⟨above, tail⟩ := List.pairwise_cons.mp sorted
    rcases Nat.lt_trichotomy next.1 stop with lower | same | later
    · have none : rest.filter (·.1 == stop) = [] := by
        apply List.filter_eq_nil_iff.mpr
        intro other member
        have := above other member
        simp only [beq_iff_eq]
        omega
      have differs : next.1 ≠ stop := by omega
      simp [show ¬ stop < next.1 by omega, differs, none]
    · have here : rest.dropWhile (stop < ·.1) = rest := by
        cases rest with
        | nil => rfl
        | cons other others =>
          have := above other List.mem_cons_self
          simp [show ¬ stop < other.1 by omega]
      have found := ih tail
      rw [here] at found
      simp [same, found]
    · have differs : next.1 ≠ stop := by omega
      simp [later, differs, ih tail]

theorem filter_insertInto {entry : Nat × MatchId} {entries : List (Nat × MatchId)} (stop : Nat) :
    (insertInto entry entries).filter (·.1 == stop) =
      ([entry].filter (·.1 == stop)) ++ entries.filter (·.1 == stop) := by
  induction entries with
  | nil => simp [insertInto]
  | cons next rest ih =>
    rw [insertInto]
    split
    · next later =>
      rw [List.filter_cons, ih]
      by_cases here : entry.1 = stop
      · have : next.1 ≠ stop := by omega
        simp [here, this]
      · simp [here, List.filter_cons]
    · rw [← List.filter_append, List.singleton_append]

theorem endingAt_insert {c : Chart} (sorted : c.Sorted) (stop e : Nat) (id : MatchId) :
    (c.insert stop id).endingAt e = if e = stop then id :: c.endingAt e else c.endingAt e := by
  rw [endingAt, endingAt, takeWhile_dropWhile_eq_filter (sorted.insert stop id e),
    takeWhile_dropWhile_eq_filter (sorted e), bucket_insert]
  by_cases same : e = stop
  · simp [same, filter_insertInto]
  · have differs : stop ≠ e := fun h => same h.symm
    split <;> simp [differs, filter_insertInto]

@[simp] theorem endingAt_empty (stop : Nat) : ({} : Chart).endingAt stop = [] := by
  simp [endingAt, bucket, Vector.get]

end Chart

namespace Session

/-- A match that has entered the chart. -/
def Propagated (s : Session) (id : MatchId) : Prop := ∃ stop, id ∈ s.chart.endingAt stop

theorem propagated_insert {s t : Session} {stop : Nat} {id other : MatchId} (sorted : s.chart.Sorted)
    (chart : t.chart = s.chart.insert stop id) :
    t.Propagated other ↔ other = id ∨ s.Propagated other := by
  simp only [Propagated, chart, Chart.endingAt_insert sorted]
  constructor
  · rintro ⟨e, member⟩
    split at member
    · exact (List.mem_cons.mp member).imp_right fun old => ⟨e, old⟩
    · exact .inr ⟨e, member⟩
  · rintro (rfl | ⟨e, member⟩)
    · exact ⟨stop, by rw [if_pos rfl]; exact List.mem_cons_self⟩
    · refine ⟨e, ?_⟩
      split
      · exact List.mem_cons_of_mem _ member
      · exact member

/-- What an answer to the callback of the match `id` can do: set the kind of the match, queue it, or
note a derivation. -/
structure Answers (s t : Session) (id : MatchId) (callback : Callback) : Prop where
  arena : t.arena = s.arena ∨ ∃ kind, t.arena = s.arena.setKind id kind
  chart : t.chart = s.chart
  phase : t.phase = s.phase
  dropped : t.stats.dropped = s.stats.dropped
  pending : t.pending = s.pending ∨ t.pending = id :: s.pending
  derivations : t.derivations = s.derivations ∨
    callback.id = Builtin.rootRule.id ∧ t.derivations = s.derivations.push ⟨callback.param, id⟩

theorem fire_answers (s : Session) (id : MatchId) (callback : Callback) :
    Answers s (s.fire .collector id callback) id callback := by
  have same (t : Session) (arena : t.arena = s.arena) (chart : t.chart = s.chart)
      (phase : t.phase = s.phase) (dropped : t.stats.dropped = s.stats.dropped)
      (pending : t.pending = s.pending ∨ t.pending = id :: s.pending)
      (derivations : t.derivations = s.derivations) : Answers s t id callback :=
    ⟨.inl arena, chart, phase, dropped, pending, .inl derivations⟩
  have accepts (kind : MatchKind) :
      Answers s ((s.note id callback).accept id kind) id callback :=
    ⟨.inr ⟨kind, rfl⟩, rfl, rfl, rfl, .inr rfl, .inl rfl⟩
  simp only [fire, Handler.collector, collect]
  split
  · exact same s rfl rfl rfl rfl (.inl rfl) rfl
  · split
    · next root =>
      exact ⟨.inl rfl, rfl, rfl, rfl, .inl rfl, .inr ⟨by simpa using root, rfl⟩⟩
    · simp only [applyBuiltin]
      split
      · exact accepts _
      · exact accepts _
      · exact accepts _
      · simp only [exclude]
        split
        · exact same _ rfl rfl rfl rfl (.inl rfl) rfl
        · split
          · exact same _ rfl rfl rfl rfl (.inl rfl) rfl
          · exact same _ rfl rfl rfl rfl (.inr rfl) rfl
      · exact same _ rfl rfl rfl rfl (.inl rfl) rfl
      · exact same _ rfl rfl rfl rfl (.inl rfl) rfl

/-- Apart from matches, queue and derivations, an answer leaves a session with the callback noted. -/
theorem fire_eq_note (s : Session) (id : MatchId) (callback : Callback) :
    s.fire .collector id callback = s ∨ ∃ arena pending derivations,
      s.fire .collector id callback = { s.note id callback with arena, pending, derivations } := by
  simp only [fire, Handler.collector, collect]
  split
  · exact .inl rfl
  · right
    split
    · exact ⟨_, _, _, rfl⟩
    · simp only [applyBuiltin]
      split
      · exact ⟨_, _, _, rfl⟩
      · exact ⟨_, _, _, rfl⟩
      · exact ⟨_, _, _, rfl⟩
      · simp only [exclude]
        split
        · exact ⟨_, _, _, rfl⟩
        · split <;> exact ⟨_, _, _, rfl⟩
      · exact ⟨_, _, _, rfl⟩
      · exact ⟨_, _, _, rfl⟩

/-- A call adds no more to the log than itself. -/
theorem mem_log_fire {s : Session} {id : MatchId} {callback : Callback} {event : Event}
    (member : event ∈ (s.fire .collector id callback).log) :
    event ∈ s.log ∨ event = .fired callback id s.phase := by
  rcases fire_eq_note s id callback with same | ⟨arena, pending, derivations, noted⟩
  · exact .inl (same ▸ member)
  · rw [noted] at member
    exact Array.mem_push.mp member

theorem Answers.keeps {s t : Session} {id : MatchId} {callback : Callback}
    (h : Answers s t id callback) : s.arena.Keeps t.arena := by
  rcases h.arena with same | ⟨kind, set⟩
  · exact same ▸ .refl _
  · exact set ▸ .setKind _ _ _

theorem Answers.size {s t : Session} {id : MatchId} {callback : Callback}
    (h : Answers s t id callback) : t.arena.size = s.arena.size := by
  rcases h.arena with same | ⟨kind, set⟩
  · rw [same]
  · rw [set]
    exact size_setKind s id kind

/-- The matches other than the one that the callback is about stay exactly as they are. -/
theorem Answers.get?_ne {s t : Session} {id other : MatchId} {callback : Callback}
    (h : Answers s t id callback) (ne : id ≠ other) :
    t.arena.get? other = s.arena.get? other := by
  rcases h.arena with same | ⟨kind, set⟩
  · rw [same]
  · rw [set, Arena.get?_setKind, if_neg ne]

/-- Allocation adds a match at the end or counts it as dropped. -/
theorem allocate_cases (s : Session) (capacity : Nat) (m : Match) :
    (s.arena.size < capacity ∧ s.allocate capacity m =
      ({ s with
          arena := s.arena.push m
          stats := { s.stats with allocated := s.stats.allocated + 1 } }, some s.arena.size)) ∨
    (capacity ≤ s.arena.size ∧ s.allocate capacity m =
      ({ s with stats := { s.stats with dropped := s.stats.dropped + 1 } }, none)) := by
  unfold allocate
  by_cases room : s.arena.size < capacity
  · exact .inl ⟨room, by simp [room]⟩
  · exact .inr ⟨by omega, by simp [room]⟩

end Session

end Phrasebook
