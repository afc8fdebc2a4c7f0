import Phrasebook.Proofs.Session.Queueing
import Phrasebook.Proofs.Session.Reentry

namespace Phrasebook

open Session

/-- A match of the symbol with exactly this span has entered the chart. -/
def Session.Covered (s : Session) (span : Span) (symbol : Symbol) : Prop :=
  ∃ id m, s.Propagated id ∧ s.arena.get? id = some m ∧ m.span = span ∧ m.symbol = symbol

theorem Session.Sound.isCovered_iff {setting : Setting} {tokens : List Token} {labels : List Label}
    {s : Session} (sound : s.Sound setting tokens labels) (span : Span) (symbol : Symbol) :
    s.isCovered span symbol = true ↔ s.Covered span symbol := by
  simp only [isCovered, List.any_eq_true, Option.any_eq_true, Bool.and_eq_true, beq_iff_eq]
  constructor
  · rintro ⟨id, ends, m, found, isSpan, isSymbol⟩
    exact ⟨id, m, ⟨span.stop, ends⟩, found, isSpan, isSymbol⟩
  · rintro ⟨id, m, ⟨stop, ends⟩, found, rfl, isSymbol⟩
    obtain ⟨n, alsoFound, rfl⟩ := sound.chart stop id ends
    obtain rfl := Option.some.inj (found.symm.trans alsoFound)
    exact ⟨id, ends, m, found, rfl, isSymbol⟩

/-- The exclusion filter queues its match unless the chart covers it. -/
theorem Session.fire_exclusion (s : Session) {id : MatchId} {callback : Callback} {m : Match}
    (isExclusion : callback.id = Builtin.exclusion.id) (found : s.arena.get? id = some m) :
    (s.fire .collector id callback).pending =
      if s.isCovered m.span callback.param.toNat then s.pending else id :: s.pending := by
  obtain ⟨callback, param⟩ := callback
  obtain rfl : callback = Builtin.exclusion.id := isExclusion
  have answer : (s.fire .collector id ⟨Builtin.exclusion.id, param⟩).pending =
      ((s.note id ⟨Builtin.exclusion.id, param⟩).exclude id param).pending := rfl
  have noted : (s.note id ⟨Builtin.exclusion.id, param⟩).arena.get? id = some m := found
  rw [answer, exclude, noted]
  dsimp only
  split
  · next covered => exact (if_pos covered).symm
  · next free => exact (if_neg free).symm

/-- The matches in a chart are those that have entered it. -/
theorem Chart.Charts.propagated_iff {s : Session} {ids : List MatchId}
    (charts : s.chart.Charts s.arena ids) {id : MatchId} (known : id < s.arena.size) :
    s.Propagated id ↔ id ∈ ids := by
  simp only [Propagated, charts.endingAt, List.mem_filter]
  constructor
  · rintro ⟨_, member, _⟩
    exact member
  · intro member
    obtain ⟨m, found⟩ := Arena.get?_of_lt_size known
    exact ⟨m.span.stop, member, by simp [found]⟩

/-- Only calls change the log. -/
theorem Task.log_step {setting : Setting} {s : Session} {task : Task}
    (calm : ∀ id callback, task ≠ .fire id callback) :
    (task.step setting .collector s).1.log = s.log := by
  cases task with
  | fire id callback => exact absurd rfl (calm id callback)
  | execute site gap shared heads =>
    cases heads with
    | nil => rfl
    | cons head rest =>
      simp only [step, stepHead]
      split
      · rfl
      · split
        · rfl
        · rcases allocate_cases s setting.capacity { site with symbol := head.symbol } with
            ⟨_, made⟩ | ⟨_, dropped⟩
          · rw [made]
            dsimp only
            split <;> rfl
          · rw [dropped]
  | combine shard id m lefts =>
    cases lefts with
    | nil => rfl
    | cons left rest =>
      simp only [step]
      split <;> rfl
  | propagate id m shards => cases shards <;> rfl
  | literals site text folded shards => cases shards <;> rfl
  | enter | drain | process =>
    simp only [step]
    split <;> rfl
  | feed items =>
    cases items with
    | nil => rfl
    | cons item rest =>
      cases item with
      | terminal span offset text => rfl
      | symbol m =>
        simp only [step]
        rcases allocate_cases s setting.capacity m with ⟨_, made⟩ | ⟨_, dropped⟩
        · rw [made]
        · rw [dropped]
  | enqueue | lookLeft | settle => rfl

/-- What a call adds to the log is that call. -/
theorem Task.mem_log_step {setting : Setting} {s : Session} {task : Task} {callback : Callback}
    {id : MatchId} {phase : Phase}
    (member : .fired callback id phase ∈ (task.step setting .collector s).1.log) :
    .fired callback id phase ∈ s.log ∨ task = .fire id callback := by
  by_cases calls : ∃ other called, task = .fire other called
  · obtain ⟨other, called, rfl⟩ := calls
    rcases mem_log_fire member with before | now
    · exact .inl before
    · obtain ⟨rfl, rfl, _⟩ := Event.fired.inj now
      exact .inr rfl
  · have same : (task.step setting .collector s).1.log = s.log :=
      log_step fun other called isCall => calls ⟨other, called, isCall⟩
    exact .inl (same ▸ member)

namespace Machine

variable {setting : Setting} {start a b : Machine} {h : History}

/-- What is noted on the way has been called from a state on the way. -/
theorem Reaches.exists_fire {callback : Callback} {id : MatchId} {phase : Phase}
    (reach : Reaches setting .collector start a) (fresh : start.session.log = #[])
    (fired : .fired callback id phase ∈ a.session.log) :
    ∃ c rest, Reaches setting .collector start c ∧ c.tasks = .fire id callback :: rest := by
  have both := reach.preserves (P := fun a => Reaches setting .collector start a ∧
    (.fired callback id phase ∈ a.session.log → ∃ c rest, Reaches setting .collector start c ∧
      c.tasks = .fire id callback :: rest)) ?_ ⟨.refl start, by simp [fresh]⟩
  · exact both.2 fired
  · rintro a b ⟨reached, before⟩ next
    refine ⟨reached.next next, fun member => ?_⟩
    obtain ⟨task, rest, here, rfl⟩ := next?_eq_some next
    rcases Task.mem_log_step member with old | rfl
    · exact before old
    · exact ⟨a, rest, reached, here⟩

/-- As a run goes on, what was queued stays so, and no match that exists is claimed more. -/
theorem Records.onward (lists : setting.rules.ListsFilters)
    (records : Records setting .collector start a h)
    (listed : ∀ task ∈ a.tasks, task.Listed setting.rules) (rest : Reaches setting .collector a b)
    {id : Nat} (known : id < a.session.arena.size) :
    ∃ k, Records setting .collector start b k ∧ id < b.session.arena.size ∧
      h.queued <:+ k.queued ∧ b.claims k id ≤ a.claims h id := by
  induction rest generalizing h with
  | refl => exact ⟨h, records, known, List.suffix_refl _, Nat.le_refl _⟩
  | head next _ ih =>
    obtain ⟨grows, claims⟩ := claims_next listed next h id
    rw [if_neg (by omega), Nat.add_zero] at claims
    obtain ⟨k, recorded, knownAfter, queued, claimed⟩ := ih (records.step next)
      (listed_next lists listed next) (Nat.lt_of_lt_of_le known grows)
    exact ⟨k, recorded, knownAfter, (List.suffix_append _ _).trans queued,
      Nat.le_trans claimed claims⟩

/-- When all work is done, what has been queued is in the chart. -/
theorem Charted.propagated_iff (charted : a.Charted h) (done : a.tasks = [])
    (empty : a.session.pending = []) {id : MatchId} (known : id < a.session.arena.size) :
    a.session.Propagated id ↔ id ∈ h.queued := by
  rw [charted.chart.propagated_iff known, charted.queue.mem_iff]
  simp [done, empty]

/-- The exclusion filter holds the only claim on its match. -/
theorem Accounted.not_claimed {s : Session} {id : MatchId} {callback : Callback} {rest : List Task}
    (accounted : Accounted ⟨s, .fire id callback :: rest⟩ h)
    (isExclusion : callback.id = Builtin.exclusion.id) :
    (rest.flatMap Task.promises).count id = 0 ∧ h.queued.count id = 0 := by
  have isFilter : callback.isBuiltinFilter = true := by
    rw [Callback.isBuiltinFilter, isExclusion]
    decide
  have promised := accounted.promised id
  simp only [List.flatMap_cons, Task.promises, if_pos isFilter, List.count_append,
    List.count_singleton_self] at promised
  split at promised <;> omega

end Machine

namespace Pass

theorem session_rests (setting : Setting) (tokens : List Token) (labels : List Label) :
    (session setting tokens labels).Rests := by
  rw [session_eq_foldl]
  exact (takeAll_rests (Handler.operates_collector setting) ⟨rfl, rfl⟩ _).2

/-- Whenever a pass is about to call the exclusion filter, that decides for the rest of the pass: the
match is in the chart at the end exactly if the chart does not cover it now. -/
theorem propagated_iff_not_covered {setting : Setting} {tokens : List Token} {labels : List Label}
    (lists : setting.rules.ListsFilters) {s : Session} {id : MatchId} {callback : Callback}
    {rest : List Task}
    (reach : Machine.Reaches setting .collector (start setting tokens labels)
      ⟨s, .fire id callback :: rest⟩)
    (isExclusion : callback.id = Builtin.exclusion.id) :
    ∃ m, s.arena.get? id = some m ∧ ((session setting tokens labels).Propagated id ↔
      ¬ s.Covered m.span callback.param.toNat) := by
  have ready : ∀ task ∈ (start setting tokens labels).tasks, task.Listed setting.rules := by
    simp [start, Task.Listed]
  have sound := reach.preserves (fun _ _ => Machine.sound_next) (sound_start setting tokens labels)
  obtain ⟨m, _, found, _⟩ := sound.2 (.fire id callback) List.mem_cons_self
  refine ⟨m, found, ?_⟩
  have known : id < s.arena.size := Arena.lt_size_of_get? found
  have answers := fire_answers s id callback
  have next : Machine.next? setting .collector ⟨s, .fire id callback :: rest⟩ =
      some ⟨s.fire .collector id callback, rest⟩ := rfl
  obtain ⟨h, records⟩ := reach.exists_records
  obtain ⟨accounted, listed⟩ := records.accounted_of_lists lists ready rfl rfl
  obtain ⟨notPromised, notQueued⟩ := accounted.not_claimed isExclusion
  obtain ⟨k, recorded, knownAtEnd, queued, claimed⟩ := (records.step next).onward lists
    (Machine.listed_next lists listed next)
    ((reach.next next).onward (reaches_session setting tokens labels) rfl) (answers.size ▸ known)
  have charted := (recorded.accounted_of_lists lists ready rfl rfl).1.charted
  rw [charted.propagated_iff rfl (session_rests setting tokens labels).empty knownAtEnd,
    ← sound.1.isCovered_iff]
  have pending := s.fire_exclusion isExclusion found
  by_cases covered : s.isCovered m.span callback.param.toNat = true
  · rw [if_pos covered] at pending
    have pushed : s.pushed (s.fire .collector id callback) = [] := Session.pushed_eq pending
    have unclaimed : k.queued.count id = 0 := by
      simp only [Machine.claims, pushed, List.nil_append, notPromised, notQueued] at claimed
      omega
    simpa [covered] using List.count_eq_zero.mp unclaimed
  · rw [if_neg covered] at pending
    have pushed : s.pushed (s.fire .collector id callback) = [id] := Session.pushed_eq pending
    have isQueued : id ∈ k.queued := queued.subset (by simp [pushed])
    simpa [covered] using isQueued

end Pass

end Phrasebook
