import Mathlib
import Phrasebook.Pass

/-!
Matching in single steps. A machine holds a session and the work that is left, innermost first;
each step allocates at most one match, answers at most one callback, or moves one match along.
`reaches_session` says that the steps lead to what a pass computes at once, so the sessions of
reachable machines are exactly those that a pass goes through.
-/

namespace Phrasebook

open Session

/-- Work that the matcher has under way. -/
inductive Task
  | execute (site : Match) (gap : Option Nat) (shared : Option (MatchId × Symbol))
      (heads : List Head)
  | fire (id : MatchId) (callback : Callback)
  | enqueue (id : MatchId)
  | lookLeft (shard : Nat) (id : MatchId) (m : Match)
  | combine (shard : Nat) (id : MatchId) (m : Match) (lefts : List MatchId)
  | propagate (id : MatchId) (m : Match) (shards : List Nat)
  | enter (id : MatchId)
  | drain
  | settle
  | process
  | literals (site : Match) (text folded : String) (shards : List Nat)
  | feed (items : List FeedItem)

namespace Task

/-- The heads of a set, to be executed from the first. -/
def ofSet (setting : Setting) (site : Match) (gap : Option Nat) (set : Option Nat) : Task :=
  .execute site gap none ((set.map setting.rules.heads).getD [])

/-- Where the match `id` and one to its left combine. -/
def siteOfPair (left : MatchId) (l : Match) (id : MatchId) (m : Match) : Match :=
  { symbol := 0, span := ⟨l.span.start, m.span.stop⟩, offset := l.offset, children := .two left id }

def siteOfOne (id : MatchId) (m : Match) : Match :=
  { symbol := 0, span := m.span, offset := m.offset, children := .one id }

def siteOfText (span : Span) (offset : Nat) : Match := { symbol := 0, span, offset }

section
variable (setting : Setting) (handler : Handler)

/-- Takes up one head. Its match is made, or shared with the head before it. -/
def stepHead (s : Session) (site : Match) (gap : Option Nat) (shared : Option (MatchId × Symbol))
    (head : Head) (rest : List Head) : Session × List Task :=
  if !allows head gap then (s, [.execute site gap shared rest])
  else
    let isFilter := !head.callback.isSilent && setting.rules.isFilter head.callback.id
    match shared.filter fun (_, symbol) => symbol == head.symbol && !isFilter with
    | some (id, symbol) =>
      (s, [.fire id head.callback, .execute site gap (some (id, symbol)) rest])
    | none =>
      match s.allocate setting.capacity { site with symbol := head.symbol } with
      | (s, none) => (s, [.execute site gap none rest])
      | (s, some id) =>
        if isFilter then (s, [.fire id head.callback, .execute site gap none rest])
        else
          (s, [.fire id head.callback, .enqueue id,
            .execute site gap (some (id, head.symbol)) rest])

/-- The session after one step of a task, and what is then left of the task. -/
def step (s : Session) : Task → Session × List Task
  | .execute _ _ _ [] => (s, [])
  | .execute site gap shared (head :: rest) => stepHead setting s site gap shared head rest
  | .fire id callback => (s.fire handler id callback, [])
  | .enqueue id => (s.enqueue id, [])
  | .lookLeft shard id m =>
    (s, [.combine shard id m ((s.chart.endingAt m.offset).filter (· != id))])
  | .combine _ _ _ [] => (s, [])
  | .combine shard id m (left :: rest) =>
    match s.arena.get? left with
    | none => (s, [.combine shard id m rest])
    | some l =>
      (s, [.ofSet setting (siteOfPair left l id m) (some m.gap)
          (setting.rules.findBinary shard l.symbol m.symbol),
        .combine shard id m rest])
  | .propagate _ _ [] => (s, [])
  | .propagate id m (shard :: rest) =>
    (s, [.ofSet setting (siteOfOne id m) none (setting.rules.findUnary shard m.symbol),
      .lookLeft shard id m, .propagate id m rest])
  | .enter id =>
    match s.arena.get? id with
    | none => (s, [])
    | some m =>
      ({ s with chart := s.chart.insert m.span.stop id }, [.propagate id m setting.shards])
  | .drain =>
    match s.pending with
    | [] => (s, [])
    | id :: rest => ({ s with pending := rest }, [.enter id, .drain])
  | .settle => ({ s with phase := .idle }, [])
  | .process =>
    match s.phase with
    | .processing => (s, [])
    | .idle => ({ s with phase := .processing }, [.drain, .settle])
  | .literals _ _ _ [] => (s, [])
  | .literals site text folded (shard :: rest) =>
    (s, [.ofSet setting site none (setting.rules.findTerminal shard text true),
      .ofSet setting site none (setting.rules.findTerminal shard folded false),
      .literals site text folded rest])
  | .feed [] => (s, [])
  | .feed (.terminal span offset text :: rest) =>
    ({ s with stats := { s.stats with terminals := s.stats.terminals + 1 } },
      [.literals (siteOfText span offset) text (Lowercase.text text) setting.shards, .process,
        .feed rest])
  | .feed (.symbol m :: rest) =>
    match s.allocate setting.capacity m with
    | (s, none) => (s, [.feed rest])
    | (s, some id) => (s, [.enqueue id, .process, .feed rest])

end

end Task

/-- A session in the middle of its work. -/
structure Machine where
  session : Session
  tasks : List Task

namespace Machine

section
variable (setting : Setting) (handler : Handler)

/-- One step of the innermost task. A machine without tasks stands still. -/
def next? : Machine → Option Machine
  | ⟨_, []⟩ => none
  | ⟨s, task :: rest⟩ =>
    let (s, tasks) := task.step setting handler s
    some ⟨s, tasks ++ rest⟩

inductive Reaches : Machine → Machine → Prop
  | refl (a : Machine) : Reaches a a
  | head {a b c : Machine} (step : a.next? setting handler = some b) (rest : Reaches b c) :
      Reaches a c

end

variable {setting : Setting} {handler : Handler}

theorem Reaches.trans {a b c : Machine} (first : Reaches setting handler a b)
    (second : Reaches setting handler b c) : Reaches setting handler a c := by
  induction first with
  | refl => exact second
  | head step _ ih => exact .head step (ih second)

/-- A step of a machine is a step of its innermost task. -/
theorem next?_eq_some {a b : Machine} (next : a.next? setting handler = some b) :
    ∃ task rest, a.tasks = task :: rest ∧
      b = ⟨(task.step setting handler a.session).1,
        (task.step setting handler a.session).2 ++ rest⟩ := by
  obtain ⟨s, tasks⟩ := a
  cases tasks with
  | nil => cases next
  | cons task rest => exact ⟨task, rest, rfl, (Option.some.inj next).symm⟩

/-- A property that every step keeps holds of every machine that is reached. -/
theorem Reaches.preserves {P : Machine → Prop} {a b : Machine}
    (keeps : ∀ a b, P a → a.next? setting handler = some b → P b)
    (reach : Reaches setting handler a b) (start : P a) : P b := by
  induction reach with
  | refl => exact start
  | head step _ ih => exact ih (keeps _ _ start step)

/-- Steps are determined, so a machine on the way to an end gets there. -/
theorem Reaches.onward {a b c : Machine}
    (first : Reaches setting handler a b) (second : Reaches setting handler a c)
    (done : c.tasks = []) : Reaches setting handler b c := by
  induction first with
  | refl => exact second
  | head step _ ih =>
    cases second with
    | refl =>
      obtain ⟨s, tasks⟩ := c
      obtain rfl : tasks = [] := done
      cases step
    | head step' rest =>
      obtain rfl := Option.some.inj (step.symm.trans step')
      exact ih rest

theorem Reaches.eq_of_done {a b : Machine}
    (reach : Reaches setting handler a b) (done : a.tasks = []) : b = a := by
  cases reach with
  | refl => rfl
  | head step =>
    obtain ⟨s, tasks⟩ := a
    obtain rfl : tasks = [] := done
    cases step

theorem Reaches.next {a b c : Machine}
    (reach : Reaches setting handler a b) (step : b.next? setting handler = some c) :
    Reaches setting handler a c :=
  reach.trans (.head step (.refl c))

/-- From `s`, the tasks `tasks` are done after some steps and leave the session `t` behind, whatever
else is waiting. -/
def Does (setting : Setting) (handler : Handler) (s : Session) (tasks : List Task) (t : Session) :
    Prop :=
  ∀ rest, Reaches setting handler ⟨s, tasks ++ rest⟩ ⟨t, rest⟩

theorem Does.nil (s : Session) : Does setting handler s [] s := fun _ => .refl _

theorem Does.append {s t u : Session} {first second : List Task}
    (one : Does setting handler s first t) (two : Does setting handler t second u) :
    Does setting handler s (first ++ second) u := by
  intro rest
  rw [List.append_assoc]
  exact (one (second ++ rest)).trans (two rest)

theorem Does.cons {s t u : Session} {task : Task} {tasks : List Task}
    (one : Does setting handler s [task] t) (two : Does setting handler t tasks u) :
    Does setting handler s (task :: tasks) u :=
  Does.append one two

theorem Does.step {s t u : Session} {task : Task} {l : List Task}
    (step : task.step setting handler s = (t, l)) (does : Does setting handler t l u) :
    Does setting handler s [task] u := by
  intro rest
  refine .head (b := ⟨t, l ++ rest⟩) ?_ (does rest)
  simp [next?, step]

theorem Does.single {s t : Session} {task : Task} (step : task.step setting handler s = (t, [])) :
    Does setting handler s [task] t :=
  .step step (.nil t)

theorem does_execute (site : Match) (gap : Option Nat) (heads : List Head)
    (shared : Option (MatchId × Symbol)) (s : Session) :
    Does setting handler s [.execute site gap shared heads]
      (Session.execute setting handler site gap shared s heads) := by
  induction heads generalizing shared s with
  | nil => exact .single rfl
  | cons head rest ih =>
    have fires (t : Session) (id : MatchId) :
        Does setting handler t [.fire id head.callback] (t.fire handler id head.callback) :=
      .single rfl
    rw [Session.execute]
    by_cases allowed : allows head gap = true
    · simp only [allowed, Bool.not_true, Bool.false_eq_true, ↓reduceIte]
      split
      · next id symbol found =>
        refine .step (t := s)
          (l := [.fire id head.callback, .execute site gap (some (id, symbol)) rest]) ?_
          (.cons (fires s id) (ih _ _))
        simp only [Task.step, Task.stepHead, allowed, found, Bool.not_true, Bool.false_eq_true,
          ↓reduceIte]
      · next found =>
        split
        · next t dropped =>
          refine .step (t := t) (l := [.execute site gap none rest]) ?_ (ih _ _)
          simp only [Task.step, Task.stepHead, allowed, found, dropped, Bool.not_true,
            Bool.false_eq_true, ↓reduceIte]
        · next t id made =>
          split
          · next isFilter =>
            refine .step (t := t)
              (l := [.fire id head.callback, .execute site gap none rest]) ?_
              (.cons (fires t id) (ih _ _))
            simp only [Task.step, Task.stepHead, allowed, found, made, Bool.not_true,
              Bool.false_eq_true, ↓reduceIte]
            exact if_pos isFilter
          · next isFilter =>
            refine .step (t := t)
              (l := [.fire id head.callback, .enqueue id,
                .execute site gap (some (id, head.symbol)) rest]) ?_
              (.cons (fires t id) (.cons (.single rfl) (ih _ _)))
            simp only [Task.step, Task.stepHead, allowed, found, made, Bool.not_true,
              Bool.false_eq_true, ↓reduceIte]
            exact if_neg isFilter
    · simp only [allowed, Bool.not_false, ↓reduceIte]
      refine .step (t := s) (l := [.execute site gap shared rest]) ?_ (ih _ _)
      simp [Task.step, Task.stepHead, allowed]

theorem does_ofSet (site : Match) (gap : Option Nat) (set : Option Nat) (s : Session) :
    Does setting handler s [.ofSet setting site gap set]
      (executeSet setting handler site gap s set) := by
  cases set with
  | none => exact .single rfl
  | some set => exact does_execute site gap (setting.rules.heads set) none s

theorem does_combine (shard : Nat) (id : MatchId) (m : Match) (lefts : List MatchId)
    (s : Session) :
    Does setting handler s [.combine shard id m lefts]
      (lefts.foldl (Session.combine setting handler shard id m) s) := by
  induction lefts generalizing s with
  | nil => exact .single rfl
  | cons left rest ih =>
    rw [List.foldl_cons]
    cases found : s.arena.get? left with
    | none =>
      have same : Session.combine setting handler shard id m s left = s := by
        simp only [Session.combine, found]
      rw [same]
      refine .step (t := s) (l := [.combine shard id m rest]) ?_ (ih s)
      simp only [Task.step, found]
    | some l =>
      have made : Session.combine setting handler shard id m s left =
          executeSet setting handler (Task.siteOfPair left l id m) (some m.gap) s
            (setting.rules.findBinary shard l.symbol m.symbol) := by
        simp only [Session.combine, found, Task.siteOfPair]
      rw [made]
      refine .step (t := s) ?_ (.cons (does_ofSet _ _ _ s) (ih _))
      simp only [Task.step, found]

theorem does_propagateAll (id : MatchId) (m : Match) (shards : List Nat) (s : Session) :
    Does setting handler s [.propagate id m shards]
      (shards.foldl (propagateIn setting handler id m) s) := by
  induction shards generalizing s with
  | nil => exact .single rfl
  | cons shard rest ih =>
    have look (t : Session) : Does setting handler t [.lookLeft shard id m]
        (((t.chart.endingAt m.offset).filter (· != id)).foldl
          (Session.combine setting handler shard id m) t) :=
      .step rfl (does_combine shard id m _ t)
    exact .step rfl (.cons (does_ofSet _ _ _ s) (.cons (look _) (ih _)))

theorem does_enter (id : MatchId) (s : Session) :
    Does setting handler s [.enter id] (Session.propagate setting handler s id) := by
  cases found : s.arena.get? id with
  | none =>
    refine .single ?_
    simp only [Task.step, Session.propagate, found]
  | some m =>
    refine .step (t := { s with chart := s.chart.insert m.span.stop id })
      (l := [.propagate id m setting.shards]) ?_ ?_
    · simp only [Task.step, found]
    · simp only [Session.propagate, found]
      exact does_propagateAll id m setting.shards _

theorem does_drain (s : Session) :
    Does setting handler s [.drain] (Session.drain setting handler s) := by
  fun_induction Session.drain setting handler s with
  | case1 s queue =>
    refine .single ?_
    simp only [Task.step, queue]
  | case2 s id rest queue ih =>
    refine .step (t := { s with pending := rest }) (l := [.enter id, .drain]) ?_
      (.cons (does_enter id _) ih)
    simp only [Task.step, queue]

theorem does_process (s : Session) :
    Does setting handler s [.process] (Session.process setting handler s) := by
  cases phase : s.phase with
  | idle =>
    refine .step (t := { s with phase := .processing }) (l := [.drain, .settle]) ?_
      (.cons (does_drain _) ?_)
    · simp only [Task.step, phase]
    · refine .single ?_
      simp only [Task.step, Session.process, phase]
  | processing =>
    refine .single ?_
    simp only [Task.step, Session.process, phase]

theorem does_literals (site : Match) (text folded : String) (shards : List Nat) (s : Session) :
    Does setting handler s [.literals site text folded shards]
      (shards.foldl (matchLiteral setting handler site text folded) s) := by
  induction shards generalizing s with
  | nil => exact .single rfl
  | cons shard rest ih =>
    exact .step rfl (.cons (does_ofSet _ _ _ s) (.cons (does_ofSet _ _ _ _) (ih _)))

theorem does_feed (items : List FeedItem) (s : Session) :
    Does setting handler s [.feed items] (items.foldl (take setting handler) s) := by
  induction items generalizing s with
  | nil => exact .single rfl
  | cons item rest ih =>
    cases item with
    | terminal span offset text =>
      exact .step rfl (.cons (does_literals _ _ _ _ _) (.cons (does_process _) (ih _)))
    | symbol m =>
      rw [List.foldl_cons, take, addNew]
      cases made : s.allocate setting.capacity m with
      | mk t id =>
        cases id with
        | none =>
          refine .step (t := t) (l := [.feed rest]) ?_ (ih t)
          simp only [Task.step, made]
        | some id =>
          refine .step (t := t) (l := [.enqueue id, .process, .feed rest]) ?_
            (.cons (.single rfl) (.cons (does_process _) (ih _)))
          simp only [Task.step, made]

end Machine

namespace Pass

/-- Everything that a pass hands to the matcher, the start of the text first. -/
def feed (rules : RuleSet) (tokens : List Token) (labels : List Label) : List FeedItem :=
  Feed.symbolItem rules.layout.structural.start ⟨0, 0⟩ 0 ++ Feed.items rules tokens labels

theorem session_eq_foldl (setting : Setting) (tokens : List Token) (labels : List Label) :
    session setting tokens labels =
      (feed setting.rules tokens labels).foldl (take setting .collector) {} := by
  rw [session, feed, List.foldl_append, Session.read]
  congr 1
  simp only [reset, Feed.symbolItem]
  split <;> rfl

/-- A machine at the start of a pass. -/
def start (setting : Setting) (tokens : List Token) (labels : List Label) : Machine :=
  ⟨{}, [.feed (feed setting.rules tokens labels)]⟩

/-- A session that a pass goes through. -/
def Visits (setting : Setting) (tokens : List Token) (labels : List Label) (s : Session) : Prop :=
  ∃ tasks, Machine.Reaches setting .collector (start setting tokens labels) ⟨s, tasks⟩

/-- The single steps of a pass end with its session, and nothing is left to do then. -/
theorem reaches_session (setting : Setting) (tokens : List Token) (labels : List Label) :
    Machine.Reaches setting .collector (start setting tokens labels)
      ⟨session setting tokens labels, []⟩ := by
  rw [session_eq_foldl]
  exact Machine.does_feed (feed setting.rules tokens labels) {} []

theorem visits_session (setting : Setting) (tokens : List Token) (labels : List Label) :
    Visits setting tokens labels (session setting tokens labels) :=
  ⟨[], reaches_session setting tokens labels⟩

end Pass

end Phrasebook
