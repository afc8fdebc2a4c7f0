import Phrasebook.Proofs.Session.Soundness

/-!
What the limit of the arena does to a pass. Two passes that differ only in their limits take the same
steps until the smaller one has to drop a match. From then on it makes no match and answers no
callback, and the other one changes nothing of what both have made: a match is only touched while its
heads are being executed, and the work that waits has none under way.
-/

namespace Phrasebook

open Session

theorem Session.allocated_fire (s : Session) (id : MatchId) (callback : Callback) :
    (s.fire .collector id callback).stats.allocated = s.stats.allocated := by
  rcases fire_eq_note s id callback with same | ⟨arena, pending, derivations, noted⟩
  · rw [same]
  · rw [noted]
    rfl

/-- A session counts the matches it has stored, and they fit. -/
def Session.Counted (s : Session) (capacity : Nat) : Prop :=
  s.stats.allocated = s.arena.size ∧ s.arena.size ≤ capacity

/-- The matches and derivations of `s` are the first ones of `t`. -/
structure Session.Begins (s t : Session) : Prop where
  size : s.arena.size ≤ t.arena.size
  kept : ∀ id : Nat, id < s.arena.size → t.arena.get? id = s.arena.get? id
  derivations : s.derivations.toList <+: t.derivations.toList

namespace Session.Begins

variable {s t u : Session}

theorem of_same (arena : t.arena = s.arena) (derivations : t.derivations = s.derivations) :
    s.Begins t := by
  constructor
  · rw [arena]
  · intro id _
    rw [arena]
  · rw [derivations]

theorem trans (first : s.Begins t) (second : t.Begins u) : s.Begins u := by
  constructor
  · exact Nat.le_trans first.size second.size
  · intro id small
    rw [second.kept id (Nat.lt_of_lt_of_le small first.size), first.kept id small]
  · exact first.derivations.trans second.derivations

theorem congr (begins : s.Begins t) (arena : u.arena = s.arena)
    (derivations : u.derivations = s.derivations) : u.Begins t :=
  (of_same arena.symm derivations.symm).trans begins

theorem push {m : Match} (arena : t.arena = s.arena.push m)
    (derivations : t.derivations = s.derivations) : s.Begins t := by
  constructor
  · rw [arena, Arena.size_push]
    exact Nat.le_succ _
  · intro id small
    rw [arena, Arena.get?_push, if_neg (Nat.ne_of_lt small)]
  · rw [derivations]

/-- Answers for a match that is not among the first ones leave those alone. -/
theorem answers {id : MatchId} {callback : Callback} (begins : s.Begins t)
    (answers : t.Answers u id callback) (high : s.arena.size ≤ id) : s.Begins u := by
  constructor
  · rw [answers.size]
    exact begins.size
  · intro other small
    have ne : id ≠ other := Nat.ne_of_gt (Nat.lt_of_lt_of_le small high)
    rw [answers.get?_ne ne, begins.kept other small]
  · apply begins.derivations.trans
    rcases answers.derivations with same | ⟨_, pushed⟩
    · rw [same]
    · rw [pushed, Array.toList_push]
      exact List.prefix_append _ _

/-- The matches as a list. -/
theorem arena_prefix (begins : s.Begins t) : s.arena.entries.toList <+: t.arena.entries.toList := by
  rw [List.prefix_iff_getElem?]
  intro i inRange
  have known : i < s.arena.entries.size := by simpa using inRange
  have kept : t.arena.entries[i]? = s.arena.entries[i]? := begins.kept i known
  rw [Array.getElem?_eq_getElem known] at kept
  simpa using kept

end Session.Begins

namespace Task

/-- The matches that a task may still have callbacks answered for. -/
def touches : Task → List MatchId
  | .fire id _ => [id]
  | .execute _ _ (some (id, _)) _ => [id]
  | _ => []

/-- The step stores nothing and answers nothing. -/
structure Rests (s : Session) (task : Task) (t : Session) (tasks : List Task) : Prop where
  arena : t.arena = s.arena
  derivations : t.derivations = s.derivations
  allocated : t.stats.allocated = s.stats.allocated
  dropped : t.stats.dropped = s.stats.dropped
  touches : tasks.flatMap touches ⊆ task.touches

/-- The step stores a match, which alone is touched by what follows. -/
structure Makes (s t : Session) (tasks : List Task) : Prop where
  arena : ∃ m, t.arena = s.arena.push m
  derivations : t.derivations = s.derivations
  allocated : t.stats.allocated = s.stats.allocated + 1
  dropped : t.stats.dropped = s.stats.dropped
  touches : tasks.flatMap touches ⊆ [s.arena.size]

/-- The step has no room for a match. -/
structure Drops (s t : Session) (tasks : List Task) : Prop where
  arena : t.arena = s.arena
  derivations : t.derivations = s.derivations
  allocated : t.stats.allocated = s.stats.allocated
  dropped : t.stats.dropped = s.stats.dropped + 1
  touches : tasks.flatMap touches = []

/-- All that a step can do to the matches and derivations of a session. -/
inductive Effect (capacity : Nat) (s : Session) : Task → Session → List Task → Prop
  | rests {task : Task} {t : Session} {tasks : List Task} (rests : task.Rests s t tasks) :
      Effect capacity s task t tasks
  | answers {t : Session} (id : MatchId) (callback : Callback) (answers : s.Answers t id callback)
      (allocated : t.stats.allocated = s.stats.allocated) :
      Effect capacity s (.fire id callback) t []
  | makes {task : Task} {t : Session} {tasks : List Task} (room : s.arena.size < capacity)
      (makes : Makes s t tasks) : Effect capacity s task t tasks
  | drops {task : Task} {t : Session} {tasks : List Task} (full : capacity ≤ s.arena.size)
      (drops : Drops s t tasks) : Effect capacity s task t tasks

/-- A step that leaves the session as it is but for what no match is made of. -/
theorem Effect.of_same {capacity : Nat} {s t : Session} {task : Task} {tasks : List Task}
    (arena : t.arena = s.arena) (derivations : t.derivations = s.derivations)
    (allocated : t.stats.allocated = s.stats.allocated)
    (dropped : t.stats.dropped = s.stats.dropped) (touches : tasks.flatMap touches = []) :
    Effect capacity s task t tasks :=
  .rests ⟨arena, derivations, allocated, dropped, by simp [touches]⟩

theorem effect_stepHead (setting : Setting) (s : Session) (site : Match) (gap : Option Nat)
    (shared : Option (MatchId × Symbol)) (head : Head) (rest : List Head) :
    Effect setting.capacity s (.execute site gap shared (head :: rest))
      (stepHead setting s site gap shared head rest).1
      (stepHead setting s site gap shared head rest).2 := by
  simp only [stepHead]
  split
  · apply Effect.rests
    exact ⟨rfl, rfl, rfl, rfl, by cases shared <;> simp [touches]⟩
  · split
    · next id symbol found =>
      obtain ⟨isShared, _⟩ := Option.filter_eq_some_iff.mp found
      apply Effect.rests
      exact ⟨rfl, rfl, rfl, rfl, by simp [touches, isShared]⟩
    · rcases allocate_cases s setting.capacity { site with symbol := head.symbol } with
        ⟨room, made⟩ | ⟨full, dropped⟩
      · rw [made]
        apply Effect.makes room
        dsimp only
        split <;> exact ⟨⟨_, rfl⟩, rfl, rfl, rfl, by simp [touches]⟩
      · rw [dropped]
        exact .drops full ⟨rfl, rfl, rfl, rfl, rfl⟩

/-- One step of any task. -/
theorem effect_step (setting : Setting) (s : Session) (task : Task) :
    Effect setting.capacity s task (task.step setting .collector s).1
      (task.step setting .collector s).2 := by
  cases task with
  | execute site gap shared heads =>
    cases heads with
    | nil => exact .of_same rfl rfl rfl rfl rfl
    | cons head rest => exact effect_stepHead setting s site gap shared head rest
  | fire id callback =>
    exact .answers id callback (fire_answers s id callback) (allocated_fire s id callback)
  | enqueue id => exact .of_same rfl rfl rfl rfl rfl
  | lookLeft shard id m => exact .of_same rfl rfl rfl rfl rfl
  | combine shard id m lefts =>
    cases lefts with
    | nil => exact .of_same rfl rfl rfl rfl rfl
    | cons left rest =>
      simp only [step]
      split <;> exact .of_same rfl rfl rfl rfl rfl
  | propagate id m shards =>
    cases shards with
    | nil => exact .of_same rfl rfl rfl rfl rfl
    | cons shard rest => exact .of_same rfl rfl rfl rfl rfl
  | enter id =>
    simp only [step]
    split <;> exact .of_same rfl rfl rfl rfl rfl
  | drain =>
    simp only [step]
    split <;> exact .of_same rfl rfl rfl rfl rfl
  | settle => exact .of_same rfl rfl rfl rfl rfl
  | process =>
    simp only [step]
    split <;> exact .of_same rfl rfl rfl rfl rfl
  | literals site text folded shards =>
    cases shards with
    | nil => exact .of_same rfl rfl rfl rfl rfl
    | cons shard rest => exact .of_same rfl rfl rfl rfl rfl
  | feed items =>
    cases items with
    | nil => exact .of_same rfl rfl rfl rfl rfl
    | cons item rest =>
      cases item with
      | terminal span offset text => exact .of_same rfl rfl rfl rfl rfl
      | symbol m =>
        simp only [step]
        rcases allocate_cases s setting.capacity m with ⟨room, made⟩ | ⟨full, dropped⟩
        · rw [made]
          exact .makes room ⟨⟨m, rfl⟩, rfl, rfl, rfl, by simp [touches]⟩
        · rw [dropped]
          exact .drops full ⟨rfl, rfl, rfl, rfl, rfl⟩

/-- The task is done in one step that leaves no work behind. -/
def isCall : Task → Bool
  | .fire .. | .enqueue .. => true
  | _ => false

/-- With less room a step is the same, or it drops the match that the other one stores. -/
theorem stepHead_eq_or_drops {setting : Setting} {capacity : Nat} (le : capacity ≤ setting.capacity)
    (s : Session) (site : Match) (gap : Option Nat) (shared : Option (MatchId × Symbol))
    (head : Head) (rest : List Head) :
    stepHead { setting with capacity } s site gap shared head rest =
        stepHead setting s site gap shared head rest ∨
      capacity ≤ s.arena.size ∧
      Drops s (stepHead { setting with capacity } s site gap shared head rest).1
        (stepHead { setting with capacity } s site gap shared head rest).2 ∧
      Makes s (stepHead setting s site gap shared head rest).1
        (stepHead setting s site gap shared head rest).2 := by
  simp only [stepHead]
  split
  · exact .inl rfl
  · split
    · exact .inl rfl
    · rcases allocate_cases s capacity { site with symbol := head.symbol } with
        ⟨room, made⟩ | ⟨full, dropped⟩ <;>
      rcases allocate_cases s setting.capacity { site with symbol := head.symbol } with
        ⟨room', made'⟩ | ⟨full', dropped'⟩
      · rw [made, made']
        exact .inl rfl
      · omega
      · rw [dropped, made']
        refine .inr ⟨full, ⟨rfl, rfl, rfl, rfl, rfl⟩, ?_⟩
        dsimp only
        split <;> exact ⟨⟨_, rfl⟩, rfl, rfl, rfl, by simp [touches]⟩
      · rw [dropped, dropped']
        exact .inl rfl

theorem step_eq_or_drops {setting : Setting} {capacity : Nat} (le : capacity ≤ setting.capacity)
    (s : Session) (task : Task) :
    task.step { setting with capacity } .collector s = task.step setting .collector s ∨
      task.isCall = false ∧ capacity ≤ s.arena.size ∧
      Drops s (task.step { setting with capacity } .collector s).1
        (task.step { setting with capacity } .collector s).2 ∧
      Makes s (task.step setting .collector s).1 (task.step setting .collector s).2 := by
  cases task with
  | execute site gap shared heads =>
    cases heads with
    | nil => exact .inl rfl
    | cons head rest =>
      have same := stepHead_eq_or_drops le s site gap shared head rest
      exact same.imp_right fun drops => ⟨rfl, drops⟩
  | feed items =>
    cases items with
    | nil => exact .inl rfl
    | cons item rest =>
      cases item with
      | terminal span offset text => exact .inl rfl
      | symbol m =>
        simp only [step]
        rcases allocate_cases s capacity m with ⟨room, made⟩ | ⟨full, dropped⟩ <;>
          rcases allocate_cases s setting.capacity m with ⟨room', made'⟩ | ⟨full', dropped'⟩
        · rw [made, made']
          exact .inl rfl
        · omega
        · rw [dropped, made']
          exact .inr ⟨rfl, full, ⟨rfl, rfl, rfl, rfl, rfl⟩, ⟨m, rfl⟩, rfl, rfl, rfl,
            by simp [touches]⟩
        · rw [dropped, dropped']
          exact .inl rfl
  | combine shard id m lefts => cases lefts <;> exact .inl rfl
  | propagate id m shards => cases shards <;> exact .inl rfl
  | literals site text folded shards => cases shards <;> exact .inl rfl
  | fire | enqueue | lookLeft | enter | drain | settle | process => exact .inl rfl

/-- Only what is innermost touches matches: everything after the first task that is more than a call
waits until that one is done. -/
def Orderly (tasks : List Task) : Prop :=
  tasks.Pairwise fun first later => first.isCall = false → later.touches = []

theorem orderly_stepHead (setting : Setting) (s : Session) (site : Match) (gap : Option Nat)
    (shared : Option (MatchId × Symbol)) (head : Head) (rest : List Head) :
    Orderly (stepHead setting s site gap shared head rest).2 := by
  simp only [stepHead]
  split
  · simp [Orderly]
  · split
    · simp [Orderly, isCall]
    · rcases allocate_cases s setting.capacity { site with symbol := head.symbol } with
        ⟨_, made⟩ | ⟨_, dropped⟩
      · rw [made]
        dsimp only
        split <;> simp [Orderly, isCall]
      · rw [dropped]
        simp [Orderly]

theorem orderly_of_quiet {tasks : List Task} (quiet : tasks.flatMap touches = []) :
    Orderly tasks := by
  apply List.pairwise_of_forall_mem_list
  intro _ _ later member _
  exact List.flatMap_eq_nil_iff.mp quiet later member

theorem orderly_step (setting : Setting) (s : Session) (task : Task) :
    Orderly (task.step setting .collector s).2 := by
  cases task with
  | execute site gap shared heads =>
    cases heads with
    | nil => exact .nil
    | cons head rest => exact orderly_stepHead setting s site gap shared head rest
  | combine shard id m lefts =>
    cases lefts with
    | nil => exact .nil
    | cons left rest =>
      simp only [step]
      split <;> exact orderly_of_quiet rfl
  | propagate id m shards => cases shards <;> exact orderly_of_quiet rfl
  | literals site text folded shards => cases shards <;> exact orderly_of_quiet rfl
  | enter | drain | process =>
    simp only [step]
    split <;> exact orderly_of_quiet rfl
  | feed items =>
    cases items with
    | nil => exact .nil
    | cons item rest =>
      cases item with
      | terminal span offset text => exact orderly_of_quiet rfl
      | symbol m =>
        simp only [step]
        split <;> exact orderly_of_quiet rfl
  | fire | enqueue | lookLeft | settle => exact orderly_of_quiet rfl

theorem step_of_isCall {setting : Setting} {s : Session} {task : Task} (call : task.isCall = true) :
    (task.step setting .collector s).2 = [] := by
  cases task with
  | fire | enqueue => rfl
  | _ => cases call

end Task

namespace Machine

/-- What a step does, said of the machine. -/
theorem effect_next {setting : Setting} {a b : Machine}
    (next : a.next? setting .collector = some b) :
    ∃ task rest new, a.tasks = task :: rest ∧ b.tasks = new ++ rest ∧
      task.Effect setting.capacity a.session b.session new := by
  obtain ⟨task, rest, here, rfl⟩ := next?_eq_some next
  exact ⟨task, rest, _, here, rfl, Task.effect_step setting a.session task⟩

theorem orderly_next {setting : Setting} {a b : Machine} (orderly : Task.Orderly a.tasks)
    (next : a.next? setting .collector = some b) : Task.Orderly b.tasks := by
  obtain ⟨task, rest, here, rfl⟩ := next?_eq_some next
  rw [here] at orderly
  obtain ⟨waits, others⟩ := List.pairwise_cons.mp orderly
  cases call : task.isCall with
  | true =>
    rw [Task.step_of_isCall call]
    exact others
  | false =>
    apply List.pairwise_append.mpr
    exact ⟨Task.orderly_step setting a.session task, others,
      fun _ _ later member _ => waits later member call⟩

theorem counted_next {setting : Setting} {a b : Machine}
    (counted : a.session.Counted setting.capacity)
    (next : a.next? setting .collector = some b) : b.session.Counted setting.capacity := by
  obtain ⟨task, rest, new, _, _, effect⟩ := effect_next next
  unfold Session.Counted at *
  cases effect with
  | rests rests => rwa [rests.arena, rests.allocated]
  | answers id callback answers allocated => rwa [answers.size, allocated]
  | makes room makes =>
    obtain ⟨m, arena⟩ := makes.arena
    rw [arena, makes.allocated, Arena.size_push]
    omega
  | drops _ drops => rwa [drops.arena, drops.allocated]

/-- The machine goes on from what `s` has made and touches none of it. -/
structure BuildsOn (s : Session) (a : Machine) : Prop where
  begins : s.Begins a.session
  above : ∀ id ∈ a.tasks.flatMap Task.touches, s.arena.size ≤ id

theorem BuildsOn.next {setting : Setting} {s : Session} {a b : Machine} (builds : BuildsOn s a)
    (next : a.next? setting .collector = some b) : BuildsOn s b := by
  obtain ⟨task, rest, new, before, after, effect⟩ := effect_next next
  have above := builds.above
  rw [before, List.flatMap_cons] at above
  have ahead (begins : s.Begins b.session)
      (high : ∀ id ∈ new.flatMap Task.touches, s.arena.size ≤ id) : BuildsOn s b := by
    refine ⟨begins, ?_⟩
    intro id member
    rw [after, List.flatMap_append, List.mem_append] at member
    rcases member with now | later
    · exact high id now
    · exact above id (List.mem_append_right _ later)
  cases effect with
  | rests rests =>
    apply ahead (builds.begins.trans (.of_same rests.arena rests.derivations))
    intro id member
    exact above id (List.mem_append_left _ (rests.touches member))
  | answers id callback answers =>
    have high : s.arena.size ≤ id := above id (by simp [Task.touches])
    exact ahead (builds.begins.answers answers high) (by simp)
  | makes room makes =>
    obtain ⟨m, arena⟩ := makes.arena
    apply ahead (builds.begins.trans (.push arena makes.derivations))
    intro id member
    rw [List.mem_singleton.mp (makes.touches member)]
    exact builds.begins.size
  | drops _ drops =>
    apply ahead (builds.begins.trans (.of_same drops.arena drops.derivations))
    simp [drops.touches]

/-- The machine `a` has run out of room and makes nothing any more, while `b` goes on from what `a`
has made. -/
structure Behind (capacity : Nat) (a b : Machine) : Prop where
  full : capacity ≤ a.session.arena.size
  dropped : 0 < a.session.stats.dropped
  quiet : a.tasks.flatMap Task.touches = []
  builds : BuildsOn a.session b

/-- What is behind stays as it is. -/
theorem Behind.next_left {setting : Setting} {a b c : Machine} (behind : Behind setting.capacity a b)
    (next : a.next? setting .collector = some c) : Behind setting.capacity c b := by
  obtain ⟨task, rest, new, before, after, effect⟩ := effect_next next
  have quiet := behind.quiet
  rw [before, List.flatMap_cons, List.append_eq_nil_iff] at quiet
  obtain ⟨idle, others⟩ := quiet
  have still (arena : c.session.arena = a.session.arena)
      (derivations : c.session.derivations = a.session.derivations)
      (dropped : a.session.stats.dropped ≤ c.session.stats.dropped)
      (quiet : new.flatMap Task.touches = []) : Behind setting.capacity c b := by
    constructor
    · rw [arena]
      exact behind.full
    · exact Nat.lt_of_lt_of_le behind.dropped dropped
    · rw [after, List.flatMap_append, quiet, others, List.append_nil]
    · refine ⟨behind.builds.begins.congr arena derivations, ?_⟩
      rw [arena]
      exact behind.builds.above
  cases effect with
  | rests rests =>
    have quiet : new.flatMap Task.touches = [] := List.subset_nil.mp (idle ▸ rests.touches)
    exact still rests.arena rests.derivations (Nat.le_of_eq rests.dropped.symm) quiet
  | answers id callback => cases idle
  | makes room _ => exact absurd room (Nat.not_lt.mpr behind.full)
  | drops _ drops =>
    exact still drops.arena drops.derivations (drops.dropped ▸ Nat.le_succ _) drops.touches

/-- What is ahead goes on without touching what lies behind. -/
theorem Behind.next_right {setting : Setting} {capacity : Nat} {a b c : Machine}
    (behind : Behind capacity a b) (next : b.next? setting .collector = some c) :
    Behind capacity a c :=
  ⟨behind.full, behind.dropped, behind.quiet, behind.builds.next next⟩

/-- A step with less room is the same step, or the machine falls behind. -/
theorem next_or_behind {setting : Setting} {capacity : Nat} (le : capacity ≤ setting.capacity)
    {a b : Machine} (orderly : Task.Orderly a.tasks)
    (next : a.next? { setting with capacity } .collector = some b) :
    a.next? setting .collector = some b ∨
      ∃ c, a.next? setting .collector = some c ∧ Behind capacity b c := by
  obtain ⟨s, tasks⟩ := a
  obtain ⟨task, rest, here, rfl⟩ := next?_eq_some next
  obtain rfl : tasks = task :: rest := here
  rcases Task.step_eq_or_drops le s task with same | ⟨notCall, full, drops, makes⟩
  · left
    rw [same]
    rfl
  · right
    obtain ⟨waits, _⟩ := List.pairwise_cons.mp orderly
    have quiet : rest.flatMap Task.touches = [] := by
      apply List.flatMap_eq_nil_iff.mpr
      intro later member
      exact waits later member notCall
    obtain ⟨m, arena⟩ := makes.arena
    refine ⟨_, rfl, ?_⟩
    constructor
    · rw [drops.arena]
      exact full
    · rw [drops.dropped]
      exact Nat.succ_pos _
    · rw [List.flatMap_append, drops.touches, quiet, List.append_nil]
    · refine ⟨(Session.Begins.push arena makes.derivations).congr drops.arena drops.derivations, ?_⟩
      intro id member
      rw [List.flatMap_append, quiet, List.append_nil] at member
      rw [List.mem_singleton.mp (makes.touches member), drops.arena]

/-- With less room a run comes to a machine that is reached with more room, too, or to one that is
behind such a machine. -/
theorem Reaches.or_behind {setting : Setting} {capacity : Nat} (le : capacity ≤ setting.capacity)
    {start a : Machine} (orderly : Task.Orderly start.tasks)
    (reach : Reaches { setting with capacity } .collector start a) :
    Reaches setting .collector start a ∨
      ∃ b, Reaches setting .collector start b ∧ Behind capacity a b := by
  have both := reach.preserves (P := fun a => Task.Orderly a.tasks ∧
    (Reaches setting .collector start a ∨
      ∃ b, Reaches setting .collector start b ∧ Behind capacity a b)) ?_ ⟨orderly, .inl (.refl _)⟩
  · exact both.2
  · rintro a b ⟨orderly, together | ⟨c, reached, behind⟩⟩ next
    · refine ⟨orderly_next orderly next, ?_⟩
      rcases next_or_behind le orderly next with same | ⟨c, ahead, behind⟩
      · exact .inl (together.next same)
      · exact .inr ⟨c, together.next ahead, behind⟩
    · exact ⟨orderly_next orderly next, .inr ⟨c, reached, behind.next_left next⟩⟩

end Machine

namespace Pass

theorem counted_of_visits {setting : Setting} {tokens : List Token} {labels : List Label}
    {s : Session} (visits : Visits setting tokens labels s) : s.Counted setting.capacity := by
  obtain ⟨tasks, reach⟩ := visits
  exact reach.preserves (P := fun a => a.session.Counted setting.capacity)
    (fun _ _ => Machine.counted_next) ⟨rfl, Nat.zero_le _⟩

/-- With less room a session ends the same, or it has dropped a match and what it has begins what
there is with more room. -/
theorem session_eq_or_begins {setting : Setting} {capacity : Nat} (le : capacity ≤ setting.capacity)
    (tokens : List Token) (labels : List Label) :
    session { setting with capacity } tokens labels = session setting tokens labels ∨
      0 < (session { setting with capacity } tokens labels).stats.dropped ∧
      (session { setting with capacity } tokens labels).Begins (session setting tokens labels) := by
  have small : Machine.Reaches { setting with capacity } .collector (start setting tokens labels)
      ⟨session { setting with capacity } tokens labels, []⟩ :=
    reaches_session { setting with capacity } tokens labels
  have large := reaches_session setting tokens labels
  have orderly : Task.Orderly (start setting tokens labels).tasks := List.pairwise_singleton _ _
  rcases small.or_behind le orderly with same | ⟨b, reached, behind⟩
  · left
    exact congrArg Machine.session ((same.onward large rfl).eq_of_done rfl).symm
  · right
    have rest := reached.onward large rfl
    have ahead := rest.preserves (P := Machine.Behind capacity _) (fun _ _ => .next_right) behind
    exact ⟨ahead.dropped, ahead.builds.begins⟩

/-- A larger limit only extends what a pass finds, and changes nothing where nothing was dropped. In
all its sessions the matches are counted and fit below the limit. -/
theorem run_extends (rules : RuleSet) (locales : List Locale) (tokens : List Token)
    (labels : List Label) {limit larger : Nat} (le : limit ≤ larger) :
    (run (.ofRules rules locales limit) tokens labels).arena.entries.toList <+:
        (run (.ofRules rules locales larger) tokens labels).arena.entries.toList ∧
      (run (.ofRules rules locales limit) tokens labels).candidates <+:
        (run (.ofRules rules locales larger) tokens labels).candidates ∧
      ((run (.ofRules rules locales limit) tokens labels).stats.dropped = 0 →
        (run (.ofRules rules locales limit) tokens labels).arena =
            (run (.ofRules rules locales larger) tokens labels).arena ∧
          (run (.ofRules rules locales limit) tokens labels).candidates =
            (run (.ofRules rules locales larger) tokens labels).candidates) ∧
      ∀ s, Visits (.ofRules rules locales limit) tokens labels s →
        s.stats.allocated = s.arena.size ∧ s.arena.size * Arena.matchSize ≤ limit := by
  have room : Arena.capacity limit ≤ (Setting.ofRules rules locales larger).capacity := by
    have := Nat.div_le_div_right (c := Arena.matchSize) le
    simp only [Setting.ofRules, Arena.capacity]
    omega
  have counted (s : Session) (visits : Visits (.ofRules rules locales limit) tokens labels s) :
      s.stats.allocated = s.arena.size ∧ s.arena.size * Arena.matchSize ≤ limit := by
    obtain ⟨allocated, fits⟩ := counted_of_visits visits
    refine ⟨allocated, ?_⟩
    have most : s.arena.size ≤ limit / Arena.matchSize :=
      Nat.le_trans fits (Nat.min_le_left _ _)
    exact (Nat.le_div_iff_mul_le (by decide)).mp most
  have ends : session (.ofRules rules locales limit) tokens labels =
        session (.ofRules rules locales larger) tokens labels ∨
      0 < (session (.ofRules rules locales limit) tokens labels).stats.dropped ∧
      (session (.ofRules rules locales limit) tokens labels).Begins
        (session (.ofRules rules locales larger) tokens labels) :=
    session_eq_or_begins room tokens labels
  simp only [run, ofSession]
  rcases ends with same | ⟨dropped, begins⟩
  · rw [same]
    exact ⟨List.prefix_refl _, List.prefix_refl _, fun _ => ⟨rfl, rfl⟩, counted⟩
  · refine ⟨begins.arena_prefix, begins.derivations, ?_, counted⟩
    intro none
    omega

set_option maxRecDepth 10000 in
/-- Two of four matches fit below 128 bytes. -/
theorem run_extends_ends : 128 ≤ 1000 ∧
    (run (.ofRules .ends [] 128) [] []).arena.entries.toList.length = 2 ∧
    (run (.ofRules .ends [] 1000) [] []).arena.entries.toList.length = 4 ∧
    (run (.ofRules .ends [] 128) [] []).arena.entries.toList <+:
      (run (.ofRules .ends [] 1000) [] []).arena.entries.toList :=
  ⟨by decide, by cbv, by cbv, (run_extends .ends [] [] [] (by decide)).1⟩

end Pass

end Phrasebook
