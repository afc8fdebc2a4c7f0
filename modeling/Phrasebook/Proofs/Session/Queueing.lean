import Phrasebook.Proofs.Session.Links
import Phrasebook.Proofs.Session.Soundness

/-!
No match is queued twice. A new match is queued by its maker or, if a filter watches it, by the
answer to its callback, never by both; so what is still going to be queued and what has been queued
are different matches, and the queue is drained before there are more of them than the arena holds.
-/

namespace Phrasebook

theorem Builtin.id_of_ofId? {id : UInt32} {b : Builtin} (isBuiltin : ofId? id = some b) :
    b.id = id := by
  unfold ofId? at isBuiltin
  split at isBuiltin <;> simp only [Option.some.injEq, reduceCtorEq] at isBuiltin <;>
    rw [← isBuiltin] <;> rfl

/-- A callback whose answer may queue its match. -/
def Callback.isBuiltinFilter (callback : Callback) : Bool :=
  Builtin.filters.any (·.id == callback.id)

namespace RuleSet

/-- A built-in filter is one of the filters that the rule set lists. -/
def Lists (r : RuleSet) (callback : Callback) : Prop :=
  callback.isBuiltinFilter = true → r.isFilter callback.id = true

/-- The rule set lists every built-in filter that a head of it calls. -/
def ListsFilters (r : RuleSet) : Prop := ∀ set, ∀ head ∈ r.heads set, r.Lists head.callback

instance (r : RuleSet) (callback : Callback) : Decidable (r.Lists callback) :=
  inferInstanceAs (Decidable (_ → _))

instance (r : RuleSet) : Decidable r.ListsFilters :=
  decidable_of_iff (∀ set < r.layout.sets.count, ∀ head ∈ r.heads set, r.Lists head.callback) <| by
    constructor
    · intro known set head member
      by_cases inRange : set < r.layout.sets.count
      · exact known set inRange head member
      · simp [heads, inRange] at member
    · intro all set _
      exact all set

theorem lists_of_filters {r : RuleSet} (filters : ∀ b ∈ Builtin.filters, r.isFilter b.id = true)
    (callback : Callback) : r.Lists callback := by
  intro isFilter
  obtain ⟨b, known, isId⟩ := List.any_eq_true.mp isFilter
  rw [beq_iff_eq] at isId
  rw [← isId]
  exact filters b known

end RuleSet

namespace Session

/-- What `t` has on top of the queue of `s`. -/
def pushed (s t : Session) : List MatchId := t.pending.take (t.pending.length - s.pending.length)

theorem pushed_eq {s t : Session} {ids : List MatchId} (pending : t.pending = ids ++ s.pending) :
    s.pushed t = ids := by
  simp [pushed, pending]

/-- Only the answer to a built-in filter queues its match. -/
theorem fire_pending (s : Session) (id : MatchId) (callback : Callback) :
    (s.fire .collector id callback).pending = s.pending ∨
      callback.isBuiltinFilter = true ∧
        (s.fire .collector id callback).pending = id :: s.pending := by
  cases isFilter : callback.isBuiltinFilter with
  | true =>
    have answers := fire_answers s id callback
    exact answers.pending.imp_right fun queued => ⟨rfl, queued⟩
  | false =>
    have other (b : Builtin) (known : b ∈ Builtin.filters) : Builtin.ofId? callback.id ≠ some b := by
      intro isBuiltin
      exact List.any_eq_false.mp isFilter b known (by simpa using Builtin.id_of_ofId? isBuiltin)
    refine .inl ?_
    simp only [fire, Handler.collector, collect]
    split
    · rfl
    · split
      · rfl
      · unfold applyBuiltin
        split
        · next isBuiltin => exact absurd isBuiltin (other .setType (by decide))
        · next isBuiltin => exact absurd isBuiltin (other .assertion (by decide))
        · next isBuiltin => exact absurd isBuiltin (other .mapping (by decide))
        · next isBuiltin => exact absurd isBuiltin (other .exclusion (by decide))
        · rfl
        · rfl

end Session

namespace Task

/-- The matches that a task has still to queue, or may have queued by its callback. -/
def promises : Task → List MatchId
  | .enqueue id => [id]
  | .fire id callback => if callback.isBuiltinFilter then [id] else []
  | _ => []

/-- The match that a task is about to propagate. -/
def entering : Task → List MatchId
  | .enter id => [id]
  | _ => []

/-- The chart once the match that a task is about to propagate has entered it. -/
def chartAfter (s : Session) (task : Task) : Chart :=
  (task.entering.filterMap s.arena.entry?).foldr (fun entry c => c.insert entry.1 entry.2) s.chart

/-- The heads under way call no built-in filter that is not listed. -/
def Listed (rules : RuleSet) : Task → Prop
  | .execute _ _ _ heads => ∀ head ∈ heads, rules.Lists head.callback
  | _ => True

/-- What one step of a task accounts for: what leaves the queue is about to be propagated, and if the
built-in filters are listed, what is promised or queued after it was promised before or is new. -/
structure Accounts (rules : RuleSet) (s : Session) (task : Task) (t : Session) (tasks : List Task) :
    Prop where
  keeps : s.arena.Keeps t.arena
  promised : task.Listed rules → ∀ id : Nat,
    (tasks.flatMap promises).count id + (s.pushed t).count id ≤
      task.promises.count id + if s.arena.size ≤ id ∧ id < t.arena.size then 1 else 0
  queue : ∀ id, (s.pushed t).count id + s.pending.count id =
    t.pending.count id + (tasks.flatMap entering).count id
  chart : t.chart = task.chartAfter s

section
variable {rules : RuleSet}

/-- What a step leaves in the queue or is about to propagate was in the queue, or it is pushed. -/
theorem Accounts.mem_iff {s t : Session} {task : Task} {tasks : List Task}
    (accounts : task.Accounts rules s t tasks) (id : MatchId) :
    id ∈ t.pending ∨ id ∈ tasks.flatMap entering ↔ id ∈ s.pushed t ∨ id ∈ s.pending := by
  have queue := accounts.queue id
  simp only [← List.count_pos_iff]
  omega

/-- A step that queues `ids`, which the task has promised. -/
theorem Accounts.of_pushed {s t : Session} {task : Task} {tasks : List Task} (ids : List MatchId)
    (keeps : s.arena.Keeps t.arena) (pending : t.pending = ids ++ s.pending)
    (due : ids.Sublist task.promises) (promised : task.Listed rules → tasks.flatMap promises = [])
    (entering : tasks.flatMap entering = []) (chart : t.chart = task.chartAfter s) :
    task.Accounts rules s t tasks := by
  have pushed := Session.pushed_eq pending
  refine ⟨keeps, fun listed id => ?_, fun id => ?_, chart⟩
  · have le := due.count_le id
    simp only [promised listed, pushed, List.count_nil]
    omega
  · simp only [pushed, pending, entering, List.count_nil, List.count_append]
    omega

/-- A step that queues and promises nothing. -/
theorem Accounts.of_same {s t : Session} {task : Task} {tasks : List Task}
    (keeps : s.arena.Keeps t.arena) (pending : t.pending = s.pending)
    (promised : task.Listed rules → tasks.flatMap promises = [])
    (entering : tasks.flatMap entering = []) (chart : t.chart = task.chartAfter s) :
    task.Accounts rules s t tasks :=
  .of_pushed [] keeps pending (List.nil_sublist _) promised entering chart

/-- A step that makes a match and promises to queue nothing else. -/
theorem Accounts.of_made {s t : Session} {m : Match} {task : Task} {tasks : List Task}
    (arena : t.arena = s.arena.push m) (pending : t.pending = s.pending)
    (promised : task.Listed rules → (tasks.flatMap promises).Sublist [s.arena.size])
    (entering : tasks.flatMap entering = []) (chart : t.chart = task.chartAfter s) :
    task.Accounts rules s t tasks := by
  have pushed : s.pushed t = [] := Session.pushed_eq (pending.trans (List.nil_append _).symm)
  refine ⟨arena ▸ .push s.arena m, fun listed id => ?_, fun id => ?_, chart⟩
  · have le := (promised listed).count_le id
    simp only [pushed, arena, Arena.size_push, List.count_nil]
    by_cases new : id = s.arena.size
    · subst new
      rw [List.count_singleton_self] at le
      rw [if_pos ⟨Nat.le_refl _, Nat.lt_succ_self _⟩]
      omega
    · rw [List.count_singleton, if_neg (by simpa using Ne.symm new)] at le
      omega
  · simp only [pushed, pending, entering, List.count_nil]
    omega

end

section
variable {setting : Setting}

/-- The callback of a head that is no filter queues nothing, unless it is a filter not listed. -/
theorem promises_fire {head : Head} {id : MatchId} (lists : setting.rules.Lists head.callback)
    (plain : (!head.callback.isSilent && setting.rules.isFilter head.callback.id) = false) :
    (Task.fire id head.callback).promises = [] := by
  refine if_neg fun isFilter => ?_
  obtain ⟨b, known, isId⟩ := List.any_eq_true.mp isFilter
  rw [beq_iff_eq] at isId
  have named : ∀ b ∈ Builtin.filters, (b.id == 0) = false := by decide
  have loud : head.callback.isSilent = false := by
    rw [Callback.isSilent, ← isId]
    exact named b known
  rw [loud, lists isFilter] at plain
  cases plain

theorem listed_ofSet (lists : setting.rules.ListsFilters) (site : Match) (gap : Option Nat)
    (set : Option Nat) : (Task.ofSet setting site gap set).Listed setting.rules := by
  cases set with
  | none => simp [ofSet, Listed]
  | some set => exact lists set

theorem listed_stepHead {s : Session} {site : Match} {gap : Option Nat}
    {shared : Option (MatchId × Symbol)} {head : Head} {rest : List Head}
    (listed : ∀ head ∈ rest, setting.rules.Lists head.callback) :
    ∀ task ∈ (stepHead setting s site gap shared head rest).2, task.Listed setting.rules := by
  simp only [stepHead]
  split
  · simpa [Listed] using listed
  · split
    · simpa [Listed] using listed
    · rcases Session.allocate_cases s setting.capacity { site with symbol := head.symbol } with
        ⟨_, made⟩ | ⟨_, dropped⟩
      · rw [made]
        dsimp only
        split <;> simpa [Listed] using listed
      · rw [dropped]
        simpa [Listed] using listed

/-- What is left of a task comes from the same heads or from a set of the rules. -/
theorem listed_step (lists : setting.rules.ListsFilters) {s : Session} {task : Task}
    (listed : task.Listed setting.rules) :
    ∀ new ∈ (task.step setting .collector s).2, new.Listed setting.rules := by
  cases task with
  | execute site gap shared heads =>
    cases heads with
    | nil => simp [step]
    | cons head rest => exact listed_stepHead (List.forall_mem_cons.mp listed).2
  | combine shard id m lefts =>
    cases lefts with
    | nil => simp [step]
    | cons left rest =>
      simp only [step]
      split
      · simp [Listed]
      · exact List.forall_mem_cons.mpr ⟨listed_ofSet lists _ _ _, by simp [Listed]⟩
  | propagate id m shards =>
    cases shards with
    | nil => simp [step]
    | cons shard rest =>
      exact List.forall_mem_cons.mpr ⟨listed_ofSet lists _ _ _, by simp [Listed]⟩
  | literals site text folded shards =>
    cases shards with
    | nil => simp [step]
    | cons shard rest =>
      have others : ∀ new ∈ [Task.literals site text folded rest], new.Listed setting.rules := by
        simp [Listed]
      exact List.forall_mem_cons.mpr ⟨listed_ofSet lists _ _ _,
        List.forall_mem_cons.mpr ⟨listed_ofSet lists _ _ _, others⟩⟩
  | enter | drain | process =>
    simp only [step]
    split <;> simp [Listed]
  | feed items =>
    cases items with
    | nil => simp [step]
    | cons item rest =>
      cases item with
      | terminal span offset text => simp [step, Listed]
      | symbol m =>
        simp only [step]
        split <;> simp [Listed]
  | fire | enqueue | lookLeft | settle => simp [step, Listed]

theorem accounts_stepHead (s : Session) (site : Match) (gap : Option Nat)
    (shared : Option (MatchId × Symbol)) (head : Head) (rest : List Head) :
    (Task.execute site gap shared (head :: rest)).Accounts setting.rules s
      (stepHead setting s site gap shared head rest).1
      (stepHead setting s site gap shared head rest).2 := by
  have lists (listed : (Task.execute site gap shared (head :: rest)).Listed setting.rules) :
      setting.rules.Lists head.callback := listed head List.mem_cons_self
  simp only [stepHead]
  split
  · exact .of_same (.refl _) rfl (fun _ => rfl) rfl rfl
  · split
    · next id symbol found =>
      obtain ⟨_, fits⟩ := Option.filter_eq_some_iff.mp found
      have plain : (!head.callback.isSilent && setting.rules.isFilter head.callback.id) = false := by
        simp only [Bool.and_eq_true, Bool.not_eq_true'] at fits
        exact fits.2
      refine .of_same (.refl _) rfl (fun listed => ?_) rfl rfl
      rw [List.flatMap_cons, promises_fire (lists listed) plain]
      rfl
    · rcases Session.allocate_cases s setting.capacity { site with symbol := head.symbol } with
        ⟨room, made⟩ | ⟨full, dropped⟩
      · rw [made]
        dsimp only
        split
        · refine .of_made rfl rfl (fun _ => ?_) rfl rfl
          rw [List.flatMap_cons, promises]
          split
          · exact List.Sublist.refl _
          · exact List.nil_sublist _
        · next plain =>
          refine .of_made rfl rfl (fun listed => ?_) rfl rfl
          rw [List.flatMap_cons, promises_fire (lists listed) (by simpa using plain)]
          exact List.Sublist.refl _
      · rw [dropped]
        exact .of_same (.refl _) rfl (fun _ => rfl) rfl rfl

/-- One step of any task. -/
theorem accounts_step (setting : Setting) (s : Session) (task : Task) :
    task.Accounts setting.rules s (task.step setting .collector s).1
      (task.step setting .collector s).2 := by
  cases task with
  | execute site gap shared heads =>
    cases heads with
    | nil => exact .of_same (.refl _) rfl (fun _ => rfl) rfl rfl
    | cons head rest =>
      exact accounts_stepHead s site gap shared head rest
  | fire id callback =>
    have answers := Session.fire_answers s id callback
    rcases Session.fire_pending s id callback with same | ⟨isFilter, queued⟩
    · exact .of_same answers.keeps same (fun _ => rfl) rfl answers.chart
    · refine .of_pushed [id] answers.keeps queued ?_ (fun _ => rfl) rfl answers.chart
      rw [promises, if_pos isFilter]
  | enqueue id => exact .of_pushed [id] (.refl _) rfl (List.Sublist.refl _) (fun _ => rfl) rfl rfl
  | lookLeft shard id m => exact .of_same (.refl _) rfl (fun _ => rfl) rfl rfl
  | combine shard id m lefts =>
    cases lefts with
    | nil => exact .of_same (.refl _) rfl (fun _ => rfl) rfl rfl
    | cons left rest =>
      simp only [step]
      split
      · exact .of_same (.refl _) rfl (fun _ => rfl) rfl rfl
      · exact .of_same (.refl _) rfl (fun _ => rfl) rfl rfl
  | propagate id m shards =>
    cases shards with
    | nil => exact .of_same (.refl _) rfl (fun _ => rfl) rfl rfl
    | cons shard rest => exact .of_same (.refl _) rfl (fun _ => rfl) rfl rfl
  | enter id =>
    simp only [step]
    split
    · next none =>
      exact .of_same (.refl _) rfl (fun _ => rfl) rfl
        (by simp [chartAfter, entering, Arena.entry?, none])
    · next m found =>
      exact .of_same (.refl _) rfl (fun _ => rfl) rfl
        (by simp [chartAfter, entering, Arena.entry?, found])
  | drain =>
    simp only [step]
    split
    · exact .of_same (.refl _) rfl (fun _ => rfl) rfl rfl
    · next id rest queue =>
      have pushed : s.pushed { s with pending := rest } = [] := by simp [Session.pushed, queue]
      refine ⟨.refl _, fun _ other => ?_, fun other => ?_, rfl⟩
      · simp [pushed, promises]
      · simp [pushed, queue, entering, List.count_cons, List.count_nil]
  | settle => exact .of_same (.refl _) rfl (fun _ => rfl) rfl rfl
  | process =>
    simp only [step]
    split
    · exact .of_same (.refl _) rfl (fun _ => rfl) rfl rfl
    · exact .of_same (.refl _) rfl (fun _ => rfl) rfl rfl
  | literals site text folded shards =>
    cases shards with
    | nil => exact .of_same (.refl _) rfl (fun _ => rfl) rfl rfl
    | cons shard rest => exact .of_same (.refl _) rfl (fun _ => rfl) rfl rfl
  | feed items =>
    cases items with
    | nil => exact .of_same (.refl _) rfl (fun _ => rfl) rfl rfl
    | cons item rest =>
      cases item with
      | terminal span offset text =>
        exact .of_same (.refl _) rfl (fun _ => rfl) rfl rfl
      | symbol m =>
        simp only [step]
        rcases Session.allocate_cases s setting.capacity m with ⟨room, made⟩ | ⟨full, dropped⟩
        · rw [made]
          exact .of_made rfl rfl (fun _ => List.Sublist.refl _) rfl rfl
        · rw [dropped]
          exact .of_same (.refl _) rfl (fun _ => rfl) rfl rfl

end

end Task

/-- What a run has pushed on the queue and what it has propagated, the latest first. -/
structure History where
  queued : List MatchId := []
  propagated : List MatchId := []

namespace Machine

/-- The match that the next step propagates. -/
def entering (a : Machine) : List MatchId := (a.tasks.head?.map Task.entering).getD []

/-- A run from `start` to a machine with the history of what happened on the way. -/
inductive Records (setting : Setting) (handler : Handler) (start : Machine) :
    Machine → History → Prop
  | start : Records setting handler start start {}
  | step {a b : Machine} {h : History} (earlier : Records setting handler start a h)
      (next : a.next? setting handler = some b) :
      Records setting handler start b
        ⟨a.session.pushed b.session ++ h.queued, a.entering ++ h.propagated⟩

theorem Reaches.exists_records {setting : Setting} {handler : Handler} {start a : Machine}
    (reach : Reaches setting handler start a) : ∃ h, Records setting handler start a h := by
  have goesOn {b c : Machine} (rest : Reaches setting handler b c) {h : History}
      (earlier : Records setting handler start b h) : ∃ h, Records setting handler start c h := by
    induction rest generalizing h with
    | refl => exact ⟨h, earlier⟩
    | head next _ ih => exact ih (earlier.step next)
  exact goesOn reach .start

/-- A match is promised or queued once at most, and it is in the queue until it is propagated. -/
structure Accounted (a : Machine) (h : History) : Prop where
  promised : ∀ id : Nat, (a.tasks.flatMap Task.promises).count id + h.queued.count id ≤
    if id < a.session.arena.size then 1 else 0
  queue : ∀ id, h.queued.count id = a.session.pending.count id +
    (a.tasks.flatMap Task.entering).count id + h.propagated.count id
  chart : a.session.chart = .ofEntries (h.propagated.filterMap a.session.arena.entry?)

namespace Accounted

variable {a : Machine} {h : History}

theorem count_queued_le (accounted : a.Accounted h) (id : Nat) :
    h.queued.count id ≤ if id < a.session.arena.size then 1 else 0 :=
  Nat.le_trans (Nat.le_add_left _ _) (accounted.promised id)

theorem queued_nodup (accounted : a.Accounted h) : h.queued.Nodup := by
  refine List.nodup_iff_count_le_one.mpr fun id => ?_
  have le := accounted.count_queued_le id
  split at le <;> omega

theorem lt_size (accounted : a.Accounted h) {id : MatchId} (member : id ∈ h.queued) :
    id < a.session.arena.size := by
  have le := accounted.count_queued_le id
  have positive := List.count_pos_iff.mpr member
  split at le
  · assumption
  · omega

theorem perm (accounted : a.Accounted h) :
    h.queued.Perm (a.session.pending ++ a.tasks.flatMap Task.entering ++ h.propagated) := by
  refine List.perm_iff_count.mpr fun id => ?_
  rw [List.count_append, List.count_append]
  exact accounted.queue id

theorem propagated_subperm (accounted : a.Accounted h) : h.propagated.Subperm h.queued :=
  (List.sublist_append_right _ _).subperm.trans accounted.perm.symm.subperm

end Accounted

/-- How often a match is promised or has been queued. -/
def claims (a : Machine) (h : History) (id : MatchId) : Nat :=
  (a.tasks.flatMap Task.promises).count id + h.queued.count id

/-- A step claims no match again, but for the one that it makes. -/
theorem claims_next {setting : Setting} {a b : Machine}
    (listed : ∀ task ∈ a.tasks, task.Listed setting.rules)
    (next : a.next? setting .collector = some b) (h : History) (id : Nat) :
    a.session.arena.size ≤ b.session.arena.size ∧
      b.claims ⟨a.session.pushed b.session ++ h.queued, a.entering ++ h.propagated⟩ id ≤
        a.claims h id +
          if a.session.arena.size ≤ id ∧ id < b.session.arena.size then 1 else 0 := by
  obtain ⟨s, tasks⟩ := a
  obtain ⟨task, rest, here, rfl⟩ := next?_eq_some next
  obtain rfl : tasks = task :: rest := here
  have accounts := Task.accounts_step setting s task
  have after := accounts.promised (listed task List.mem_cons_self) id
  refine ⟨accounts.keeps.size_le, ?_⟩
  simp only [claims, List.flatMap_append, List.flatMap_cons, List.count_append] at after ⊢
  omega

/-- One step of a machine, where the built-in filters under way are listed. -/
theorem Accounted.step {setting : Setting} {a b : Machine} {h : History}
    (listed : ∀ task ∈ a.tasks, task.Listed setting.rules) (accounted : a.Accounted h)
    (next : a.next? setting .collector = some b) :
    b.Accounted ⟨a.session.pushed b.session ++ h.queued, a.entering ++ h.propagated⟩ := by
  have promised (id : Nat) : b.claims ⟨a.session.pushed b.session ++ h.queued,
      a.entering ++ h.propagated⟩ id ≤ if id < b.session.arena.size then 1 else 0 := by
    have before : a.claims h id ≤ _ := accounted.promised id
    obtain ⟨grows, after⟩ := claims_next listed next h id
    split_ifs at before after ⊢ <;> omega
  obtain ⟨s, tasks⟩ := a
  obtain ⟨task, rest, here, rfl⟩ := next?_eq_some next
  obtain rfl : tasks = task :: rest := here
  have accounts := Task.accounts_step setting s task
  generalize task.step setting .collector s = result at accounts promised
  obtain ⟨t, tasks⟩ := result
  refine ⟨promised, fun id => ?_, ?_⟩
  · have before := accounted.queue id
    have after := accounts.queue id
    simp only [List.flatMap_append, List.flatMap_cons, List.count_append, entering,
      List.head?_cons, Option.map_some, Option.getD_some] at before after ⊢
    omega
  · -- The stops of matches never change, so the entries made so far are still right.
    have known (id : MatchId) (member : id ∈ task.entering ++ h.propagated) :
        t.arena.entry? id = s.arena.entry? id := by
      refine accounts.keeps.entry? (accounted.lt_size ?_)
      rw [accounted.perm.mem_iff]
      simp only [List.flatMap_cons, List.mem_append] at member ⊢
      tauto
    have before : s.chart = .ofEntries (h.propagated.filterMap s.arena.entry?) := accounted.chart
    refine accounts.chart.trans ?_
    rw [Task.chartAfter, before]
    refine Eq.trans ?_ (congrArg Chart.ofEntries (List.filterMap_congr known)).symm
    rw [List.filterMap_append, Chart.ofEntries, Chart.ofEntries, List.foldr_append]

/-- What is queued is queued once and is a match of the arena, what has been propagated is no more
than that, and the chart is made of it. -/
structure Charted (a : Machine) (h : History) : Prop where
  once : h.queued.Nodup
  known : ∀ id ∈ h.queued, id < a.session.arena.size
  queue : h.queued.Perm (a.session.pending ++ a.tasks.flatMap Task.entering ++ h.propagated)
  bound : h.propagated.length ≤ a.session.arena.size
  chart : a.session.chart.Charts a.session.arena h.propagated

theorem Accounted.charted {a : Machine} {h : History} (accounted : a.Accounted h) : a.Charted h := by
  have within := accounted.propagated_subperm
  have inArena : h.queued ⊆ List.range a.session.arena.size := fun id member =>
    List.mem_range.mpr (accounted.lt_size member)
  refine ⟨accounted.queued_nodup, fun id => accounted.lt_size, accounted.perm, ?_, ?_⟩
  · calc h.propagated.length
      _ ≤ h.queued.length := within.length_le
      _ ≤ (List.range a.session.arena.size).length :=
        (accounted.queued_nodup.subperm inArena).length_le
      _ = a.session.arena.size := List.length_range
  · rw [accounted.chart]
    have distinct := (accounted.perm.nodup_iff.mp accounted.queued_nodup).of_append_right
    exact Chart.charts_ofEntries distinct fun id member => accounted.lt_size (within.subset member)

theorem listed_next {setting : Setting} {a b : Machine} (lists : setting.rules.ListsFilters)
    (listed : ∀ task ∈ a.tasks, task.Listed setting.rules)
    (next : a.next? setting .collector = some b) : ∀ task ∈ b.tasks, task.Listed setting.rules := by
  obtain ⟨task, rest, here, rfl⟩ := next?_eq_some next
  rw [here] at listed
  obtain ⟨first, others⟩ := List.forall_mem_cons.mp listed
  exact List.forall_mem_append.mpr ⟨Task.listed_step lists first, others⟩

/-- Every run from a session without matches, where the built-in filters that are called are
listed. -/
theorem Records.accounted_of_lists {setting : Setting} {tasks : List Task} {a : Machine}
    {h : History} (lists : setting.rules.ListsFilters)
    (listed : ∀ task ∈ tasks, task.Listed setting.rules)
    (promised : tasks.flatMap Task.promises = []) (entering : tasks.flatMap Task.entering = [])
    (records : Records setting .collector ⟨{}, tasks⟩ a h) :
    a.Accounted h ∧ ∀ task ∈ a.tasks, task.Listed setting.rules := by
  induction records with
  | start => exact ⟨⟨by simp [promised], by simp [entering], rfl⟩, listed⟩
  | step _ next ih => exact ⟨ih.1.step ih.2 next, listed_next lists ih.2 next⟩

theorem Records.charted_of_lists {setting : Setting} {tasks : List Task} {a : Machine} {h : History}
    (lists : setting.rules.ListsFilters) (listed : ∀ task ∈ tasks, task.Listed setting.rules)
    (promised : tasks.flatMap Task.promises = []) (entering : tasks.flatMap Task.entering = [])
    (records : Records setting .collector ⟨{}, tasks⟩ a h) : a.Charted h :=
  (records.accounted_of_lists lists listed promised entering).1.charted

/-- Every run from a session without matches, where the built-in filters are filters. -/
theorem Records.charted {setting : Setting} {tasks : List Task} {a : Machine} {h : History}
    (filters : ∀ b ∈ Builtin.filters, setting.rules.isFilter b.id = true)
    (promised : tasks.flatMap Task.promises = []) (entering : tasks.flatMap Task.entering = [])
    (records : Records setting .collector ⟨{}, tasks⟩ a h) : a.Charted h := by
  have lists := RuleSet.lists_of_filters filters
  apply records.charted_of_lists (fun _ head _ => lists head.callback) _ promised entering
  intro task _
  cases task with
  | execute => exact fun head _ => lists head.callback
  | _ => trivial

end Machine

/-- What waits in the queue, is about to enter the chart, or has entered it. -/
def Machine.Holds (a : Machine) (id : MatchId) : Prop :=
  id ∈ a.session.pending ∨ id ∈ a.tasks.flatMap Task.entering ∨ a.session.Propagated id

section
variable {setting : Setting} {tokens : List Token} {labels : List Label} {id : MatchId}

/-- A step propagates what it was about to, and nothing else. -/
theorem Task.propagated_step {s : Session} {task : Task} (id : MatchId)
    (sound : s.Sound setting tokens labels) (due : task.Sound setting tokens labels s.arena) :
    (task.step setting .collector s).1.Propagated id ↔ id ∈ task.entering ∨ s.Propagated id := by
  have chart := (accounts_step setting s task).chart
  cases task with
  | enter other =>
    obtain ⟨m, found⟩ := Arena.get?_of_lt_size due
    have inserted : (Task.enter other).chartAfter s = s.chart.insert m.span.stop other := by
      simp [chartAfter, entering, Arena.entry?, found]
    rw [Session.propagated_insert sound.sorted (chart.trans inserted), entering,
      List.mem_singleton]
  | _ =>
    rw [Session.Propagated, chart]
    simp [chartAfter, entering, Session.Propagated]

namespace Machine

variable {start a b : Machine}

/-- A step holds what was held before, and what it pushes on the queue. -/
theorem holds_next_iff (sound : a.Sound setting tokens labels)
    (next : a.next? setting .collector = some b) :
    b.Holds id ↔ a.Holds id ∨ id ∈ a.session.pushed b.session := by
  obtain ⟨s, tasks⟩ := a
  obtain ⟨task, rest, here, rfl⟩ := next?_eq_some next
  obtain rfl : tasks = task :: rest := here
  have queue := (Task.accounts_step setting s task).mem_iff id
  have propagated := Task.propagated_step id sound.1 (sound.2 task List.mem_cons_self)
  simp only [Holds, List.flatMap_append, List.flatMap_cons, List.mem_append, propagated]
  tauto

/-- What a run holds has waited in the queue on the way. -/
theorem Reaches.exists_waiting (reach : Reaches setting .collector start a)
    (sound : start.Sound setting tokens labels) (none : ∀ id, ¬ start.Holds id)
    (holds : a.Holds id) : ∃ b, Reaches setting .collector start b ∧ id ∈ b.session.pending := by
  have both := reach.preserves (P := fun a => Reaches setting .collector start a ∧
    a.Sound setting tokens labels ∧
    (a.Holds id → ∃ b, Reaches setting .collector start b ∧ id ∈ b.session.pending)) ?_
    ⟨.refl start, sound, fun holds => absurd holds (none id)⟩
  · exact both.2.2 holds
  · rintro a b ⟨reached, sound, before⟩ next
    refine ⟨reached.next next, sound_next sound next, fun holds => ?_⟩
    rcases (holds_next_iff sound next).mp holds with old | pushed
    · exact before old
    · exact ⟨b, reached.next next, List.mem_of_mem_take pushed⟩

end Machine

/-- The chart of a pass that leaves nothing in the queue is what has been in the queue on the way. -/
theorem Pass.propagated_iff_waited (empty : (session setting tokens labels).pending = []) :
    (session setting tokens labels).Propagated id ↔
      ∃ a, Machine.Reaches setting .collector (start setting tokens labels) a ∧
        id ∈ a.session.pending := by
  have sound := sound_start setting tokens labels
  have reach := reaches_session setting tokens labels
  constructor
  · intro propagated
    refine reach.exists_waiting sound (fun id => ?_) (.inr (.inr propagated))
    simp [Machine.Holds, start, Task.entering, Session.Propagated]
  · rintro ⟨a, reached, waits⟩
    have atEnd := (reached.onward reach rfl).preserves
      (P := fun a => a.Sound setting tokens labels ∧ a.Holds id)
      (fun _ _ both next =>
        ⟨Machine.sound_next both.1 next, (Machine.holds_next_iff both.1 next).mpr (.inl both.2)⟩)
      ⟨reached.preserves (fun _ _ => Machine.sound_next) sound, .inl waits⟩
    simpa [Machine.Holds, empty] using atEnd.2

end

end Phrasebook
