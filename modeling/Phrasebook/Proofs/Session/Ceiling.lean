import Phrasebook.Proofs.RuleSet.Listing
import Phrasebook.Proofs.Session.Evaluation
import Phrasebook.Proofs.Session.Queueing
import Phrasebook.RuleSet.Encode

/-!
The limit of the arena as the bound of a pass. Where the built-in filters that are called are listed
as filters, no match is queued twice, whatever the bytes of the rule set: a pass propagates no more
matches than the arena holds. Verification does not ask for this. A filter that is not listed has
its match queued by its answer and by the matcher, so the match enters the chart again, and its
bucket becomes a circle.
-/

namespace Phrasebook

namespace Links

variable {l k : Links} {a : Arena}

theorem Chain.unique {cursor : Option MatchId} {ids others : List MatchId}
    (chain : l.Chain cursor ids) (other : l.Chain cursor others) : ids = others := by
  induction chain generalizing others with
  | nil => cases other with | nil => rfl
  | cons later ih => cases other with | cons later' => rw [ih later']

/-- The links go on from every match of a chain. -/
theorem Chain.from_mem {cursor : Option MatchId} {ids : List MatchId} (chain : l.Chain cursor ids)
    {id : MatchId} (member : id ∈ ids) :
    ∃ rest, l.Chain (l.next id) rest ∧ (id :: rest).Sublist ids := by
  induction chain with
  | nil => cases member
  | @cons first rest later ih =>
    cases member with
    | head => exact ⟨rest, later, List.Sublist.refl _⟩
    | tail _ member =>
      obtain ⟨after, goesOn, within⟩ := ih member
      exact ⟨after, goesOn, within.cons first⟩

/-- A chain that ends passes no match twice. -/
theorem Chain.nodup {cursor : Option MatchId} {ids : List MatchId} (chain : l.Chain cursor ids) :
    ids.Nodup := by
  induction chain with
  | nil => exact List.nodup_nil
  | @cons id rest later ih =>
    apply List.nodup_cons.mpr
    refine ⟨fun member => ?_, ih⟩
    obtain ⟨after, goesOn, within⟩ := later.from_mem member
    rw [goesOn.unique later] at within
    have shorter := within.length_le
    rw [List.length_cons] at shorter
    omega

/-- Links that agree up to a match lead there too. -/
theorem Chain.mem_of_agree {cursor : Option MatchId} {before after ids : List MatchId} {id : MatchId}
    (chain : l.Chain cursor (before ++ id :: after)) (agree : ∀ x ∈ before, k.next x = l.next x)
    (other : k.Chain cursor ids) : id ∈ ids := by
  induction before generalizing cursor ids with
  | nil =>
    cases chain with
    | cons _ => cases other with | cons _ => exact List.mem_cons_self
  | cons x before ih =>
    obtain ⟨here, agree⟩ := List.forall_mem_cons.mp agree
    cases chain with
    | cons later =>
      cases other with
      | cons later' => exact List.mem_cons_of_mem _ (ih later agree (here ▸ later'))

theorem Chain.drop {cursor : Option MatchId} {before after : List MatchId}
    (chain : l.Chain cursor (before ++ after)) : l.Chain after.head? after := by
  induction before generalizing cursor with
  | nil => exact chain.eq_head? ▸ chain
  | cons x before ih => cases chain with | cons later => exact ih later

theorem next_splice (i : Fin bucketCount) (id : MatchId) (prev cursor : Option MatchId)
    (x : MatchId) :
    (l.splice i id prev cursor).next x =
      if prev = some x then some id else if x = id then cursor else l.next x := by
  cases prev with
  | none => simp [splice, Function.update_apply]
  | some p => simp [splice, Function.update_apply, eq_comm]

/-- From a match that was put before itself the links lead back to it. -/
theorem Chain.splice_endless {i : Fin bucketCount} {id : MatchId} {prev : Option MatchId}
    {after : List MatchId} (chain : l.Chain after.head? after) (again : id ∈ after)
    (apart : ∀ p ∈ prev, p ∉ after) (ids : List MatchId) :
    ¬ (l.splice i id prev after.head?).Chain (some id) ids := by
  intro circle
  have single := circle.nodup
  have other {x : MatchId} (member : x ∈ after) : prev ≠ some x := fun isPrev =>
    apart x isPrev member
  cases circle with
  | cons later =>
    rw [next_splice, if_neg (other again), if_pos rfl] at later
    obtain ⟨before, rest, rfl⟩ := List.append_of_mem again
    refine (List.nodup_cons.mp single).1 (chain.mem_of_agree ?_ later)
    intro x member
    have ne : x ≠ id := by
      rintro rfl
      exact (List.nodup_append'.mp chain.nodup).2.2 member List.mem_cons_self
    rw [next_splice, if_neg (other (List.mem_append_left _ member)), if_neg ne]

/-- A match that is put before itself closes a circle. -/
theorem Chain.splice_circular {i : Fin bucketCount} {id : MatchId} {before after : List MatchId}
    (chain : l.Chain (l.first i) (before ++ after)) (again : id ∈ after) (ids : List MatchId) :
    ¬ (l.splice i id before.getLast? after.head?).Chain
      ((l.splice i id before.getLast? after.head?).first i) ids := by
  obtain ⟨distinct, _, apart⟩ := List.nodup_append'.mp chain.nodup
  have notAfter (p : MatchId) (last : p ∈ before.getLast?) : p ∉ after :=
    apart (List.mem_of_mem_getLast? last)
  have endless (ids : List MatchId) := chain.drop.splice_endless (i := i) again notAfter ids
  intro found
  rcases List.eq_nil_or_concat before with rfl | ⟨init, p, rfl⟩
  · have first : (l.splice i id none after.head?).first i = some id := Function.update_self ..
    exact endless ids (first ▸ found)
  · simp only [List.concat_eq_append, List.append_assoc, List.singleton_append,
      List.getLast?_append, List.getLast?_singleton, Option.some_or] at *
    have reached : p ∈ ids := by
      refine chain.mem_of_agree (fun x member => ?_) found
      have notLast : p ≠ x := by
        rintro rfl
        exact (List.nodup_append'.mp distinct).2.2 member List.mem_cons_self
      have ne : x ≠ id := by
        rintro rfl
        exact apart (List.mem_append_left _ member) again
      rw [next_splice, if_neg (fun isLast => notLast (Option.some.inj isLast)), if_neg ne]
    obtain ⟨rest, goesOn, _⟩ := found.from_mem reached
    rw [next_splice, if_pos rfl] at goesOn
    exact endless rest goesOn

theorem Walks.unique {stop : Nat} {prev cursor p c p' c' : Option MatchId}
    (walk : l.Walks a stop prev cursor p c) (other : l.Walks a stop prev cursor p' c') :
    p = p' ∧ c = c' := by
  induction walk with
  | atEnd => cases other with | atEnd => exact ⟨rfl, rfl⟩
  | unknown none =>
    cases other with
    | unknown | here => exact ⟨rfl, rfl⟩
    | later found => cases none.symm.trans found
  | here found reached =>
    cases other with
    | unknown | here => exact ⟨rfl, rfl⟩
    | later found' after =>
      obtain rfl := Option.some.inj (found.symm.trans found')
      exact absurd after (Nat.not_lt.mpr reached)
  | later found after _ ih =>
    cases other with
    | unknown none => cases none.symm.trans found
    | here found' reached =>
      obtain rfl := Option.some.inj (found.symm.trans found')
      exact absurd after (Nat.not_lt.mpr reached)
    | later _ _ rest' => exact ih rest'

theorem Enters.unique {id : MatchId} {after other : Links} (enters : l.Enters a id after)
    (enters' : l.Enters a id other) : after = other := by
  obtain ⟨m, prev, cursor, found, walk, rfl⟩ := enters
  obtain ⟨m', prev', cursor', found', walk', rfl⟩ := enters'
  obtain rfl := Option.some.inj (found.symm.trans found')
  obtain ⟨rfl, rfl⟩ := walk.unique walk'
  rfl

theorem Entered.unique {ids : List MatchId} (entered : Entered a ids l)
    (other : Entered a ids k) : l = k := by
  induction entered generalizing k with
  | nil => cases other with | nil => rfl
  | cons _ enters ih =>
    cases other with
    | cons earlier' enters' =>
      obtain rfl := ih earlier'
      exact enters.unique enters'

theorem Entered.known {ids : List MatchId} (entered : Entered a ids l) :
    ∀ id ∈ ids, id < a.size := by
  induction entered with
  | nil => simp
  | cons _ enters ih =>
    obtain ⟨m, _, _, found, _⟩ := enters
    exact List.forall_mem_cons.mpr ⟨Arena.lt_size_of_get? found, ih⟩

/-- The first match that enters again leaves a bucket whose links never end. -/
theorem Entered.circular {ids : List MatchId} {id : MatchId} (entered : Entered a (id :: ids) l)
    (distinct : ids.Nodup) (again : id ∈ ids) :
    ∃ i, ∀ chain, ¬ l.Chain (l.first i) chain := by
  cases entered with
  | @cons _ _ before _ earlier enters =>
    obtain ⟨m, prev, cursor, found, walk, rfl⟩ := enters
    have known := earlier.known
    have keyed := keyed_ofEntries distinct known
    obtain ⟨links, entered, spells⟩ := exists_entered distinct known
    obtain rfl := entered.unique earlier
    have entry : a.entry? id = some (m.span.stop, id) := Arena.entry?_eq_some.mpr ⟨m, found, rfl⟩
    have inBucket : (m.span.stop, id) ∈
        (Chart.ofEntries (ids.filterMap a.entry?)).bucket m.span.stop := by
      rw [(Chart.bucket_ofEntries _ _).mem_iff, List.mem_filter]
      exact ⟨List.mem_filterMap.mpr ⟨id, again, entry⟩, beq_self_eq_true _⟩
    generalize (Chart.ofEntries (ids.filterMap a.entry?)) = c at *
    have walk' := walks (spells m.span.stop) (keyed.known m.span.stop) m.span.stop none
    rw [Option.or_none] at walk'
    obtain ⟨rfl, rfl⟩ := walk.unique walk'
    have split := List.takeWhile_append_dropWhile (p := fun e => m.span.stop < e.1)
      (l := c.bucket m.span.stop)
    have later : id ∈ ((c.bucket m.span.stop).dropWhile (m.span.stop < ·.1)).map (·.2) := by
      rw [← split, List.mem_append] at inBucket
      rcases inBucket with isPassed | isAfter
      · have passed := List.mem_takeWhile_imp isPassed
        simp at passed
      · exact List.mem_map.mpr ⟨_, isAfter, rfl⟩
    have chain := spells m.span.stop
    rw [← split, List.map_append] at chain
    exact ⟨Chart.bucketIndex m.span.stop, chain.splice_circular later⟩

end Links

/-- A filter that lets every match go on but is not listed as a filter. -/
def RuleSet.Requeues (r : RuleSet) (callback : Callback) : Prop :=
  callback.id ∈ [Builtin.setType, .assertion, .mapping].map Builtin.id ∧
    r.isFilter callback.id = false

instance (r : RuleSet) (callback : Callback) : Decidable (r.Requeues callback) :=
  inferInstanceAs (Decidable (_ ∧ _))

/-- A filter that is not listed queues its match when it is fired. -/
theorem Session.fire_requeues {rules : RuleSet} (s : Session) (id : MatchId) {callback : Callback}
    (requeues : rules.Requeues callback) :
    (s.fire .collector id callback).pending = id :: s.pending := by
  have isOne := requeues.1
  simp only [List.map_cons, List.map_nil, List.mem_cons, List.not_mem_nil, or_false] at isOne
  obtain ⟨callback, param⟩ := callback
  rcases isOne with rfl | rfl | rfl <;> rfl

namespace Task

/-- The match that a task queues. -/
def queues : Task → List MatchId
  | .enqueue id => [id]
  | _ => []

/-- The matches that are queued by other tasks than the one that has to do with them here: shared
ones, and those of a filter that is not listed. -/
def relies (rules : RuleSet) : Task → List MatchId
  | .execute _ _ (some (id, _)) _ => [id]
  | .fire id callback => if rules.Requeues callback then [id] else []
  | _ => []

theorem queues_of_relies {rules : RuleSet} {task : Task} {id : MatchId}
    (relies : id ∈ task.relies rules) : task.queues = [] := by
  cases task with
  | enqueue => simp [Task.relies] at relies
  | _ => rfl

/-- What one step of a task keeps: what it was to queue is queued or still is to be, a filter that is
not listed queues its match when it is fired, and what is relied on is to be queued. -/
structure Backs (rules : RuleSet) (s : Session) (task : Task) (t : Session) (tasks : List Task) :
    Prop where
  keeps : ∀ id, task.queues.count id ≤ (tasks.flatMap queues).count id + (s.pushed t).count id
  fired : ∀ callback id phase, .fired callback id phase ∈ t.log → rules.Requeues callback →
    .fired callback id phase ∈ s.log ∨ id ∈ task.relies rules ∧ s.pushed t = [id]
  relied : ∀ id ∈ tasks.flatMap (relies rules), id ∈ task.relies rules ∨ id ∈ tasks.flatMap queues

/-- A step that fires nothing, of a task that queues nothing. -/
theorem Backs.of_quiet {rules : RuleSet} {s t : Session} {task : Task} {tasks : List Task}
    (queues : task.queues = []) (log : t.log = s.log)
    (relied : ∀ id ∈ tasks.flatMap (relies rules),
      id ∈ task.relies rules ∨ id ∈ tasks.flatMap Task.queues) :
    task.Backs rules s t tasks := by
  refine ⟨fun id => ?_, fun callback id phase member _ => ?_, relied⟩
  · simp [queues]
  · exact .inl (log ▸ member)

/-- Such a step, after which nothing is relied on. -/
theorem Backs.of_still {rules : RuleSet} {s t : Session} {task : Task} {tasks : List Task}
    (queues : task.queues = []) (log : t.log = s.log) (relied : tasks.flatMap (relies rules) = []) :
    task.Backs rules s t tasks :=
  .of_quiet queues log (by simp [relied])

theorem backs_stepHead (setting : Setting) (s : Session) (site : Match) (gap : Option Nat)
    (shared : Option (MatchId × Symbol)) (head : Head) (rest : List Head) :
    (Task.execute site gap shared (head :: rest)).Backs setting.rules s
      (stepHead setting s site gap shared head rest).1
      (stepHead setting s site gap shared head rest).2 := by
  simp only [stepHead]
  split
  · cases shared with
    | none => exact .of_still rfl rfl rfl
    | some shared => exact .of_quiet rfl rfl fun id member => .inl (by simpa [relies] using member)
  · split
    · next id symbol found =>
      obtain ⟨isShared, _⟩ := Option.filter_eq_some_iff.mp found
      refine .of_quiet rfl rfl fun other member => .inl ?_
      have isId : other = id := by
        simp only [List.flatMap_cons, List.flatMap_nil, relies] at member
        split at member <;> simpa using member
      simp [isShared, relies, isId]
    · rcases Session.allocate_cases s setting.capacity { site with symbol := head.symbol } with
        ⟨_, made⟩ | ⟨_, dropped⟩
      · rw [made]
        dsimp only
        split
        · next isFilter =>
          have listed : ¬ setting.rules.Requeues head.callback := by
            intro requeues
            simp [requeues.2] at isFilter
          refine .of_quiet rfl rfl ?_
          simp [relies, listed]
        · refine .of_quiet rfl rfl fun other member => .inr ?_
          have isId : other = s.arena.size := by
            simp only [List.flatMap_cons, List.flatMap_nil, relies] at member
            split at member <;> simpa using member
          simp [queues, isId]
      · rw [dropped]
        exact .of_still rfl rfl rfl

theorem backs_step (setting : Setting) (s : Session) (task : Task) :
    task.Backs setting.rules s (task.step setting .collector s).1
      (task.step setting .collector s).2 := by
  cases task with
  | execute site gap shared heads =>
    cases heads with
    | nil => exact .of_still rfl rfl rfl
    | cons head rest => exact backs_stepHead setting s site gap shared head rest
  | fire id callback =>
    refine ⟨by simp [queues], fun other id' phase member requeues => ?_, by simp [step]⟩
    rcases Session.mem_log_fire member with before | now
    · exact .inl before
    · obtain ⟨rfl, rfl, rfl⟩ := Event.fired.inj now
      right
      constructor
      · simp [relies, requeues]
      · exact Session.pushed_eq (s.fire_requeues id' requeues)
  | enqueue id =>
    have pushed : s.pushed (s.enqueue id) = [id] := Session.pushed_eq rfl
    refine ⟨fun other => ?_, fun _ _ _ member _ => .inl member, by simp [step]⟩
    simp [step, pushed, queues]
  | lookLeft shard id m => exact .of_still rfl rfl rfl
  | combine shard id m lefts =>
    cases lefts with
    | nil => exact .of_still rfl rfl rfl
    | cons left rest =>
      simp only [step]
      split
      · exact .of_still rfl rfl rfl
      · exact .of_still rfl rfl rfl
  | propagate id m shards =>
    cases shards with
    | nil => exact .of_still rfl rfl rfl
    | cons shard rest => exact .of_still rfl rfl rfl
  | enter | drain | process =>
    simp only [step]
    split <;> exact .of_still rfl rfl rfl
  | settle => exact .of_still rfl rfl rfl
  | literals site text folded shards =>
    cases shards with
    | nil => exact .of_still rfl rfl rfl
    | cons shard rest => exact .of_still rfl rfl rfl
  | feed items =>
    cases items with
    | nil => exact .of_still rfl rfl rfl
    | cons item rest =>
      cases item with
      | terminal span offset text => exact .of_still rfl rfl rfl
      | symbol m =>
        simp only [step]
        rcases Session.allocate_cases s setting.capacity m with ⟨_, made⟩ | ⟨_, dropped⟩
        · rw [made]
          exact .of_still rfl rfl rfl
        · rw [dropped]
          exact .of_still rfl rfl rfl

end Task

namespace Machine

/-- How often a match has been queued or is about to be. -/
def queueings (a : Machine) (h : History) (id : MatchId) : Nat :=
  (a.tasks.flatMap Task.queues).count id + h.queued.count id

/-- What is relied on is queued, and the match of a filter that is not listed twice. -/
structure Backed (rules : RuleSet) (a : Machine) (h : History) : Prop where
  fired : ∀ callback id phase, .fired callback id phase ∈ a.session.log → rules.Requeues callback →
    2 ≤ a.queueings h id
  relied : ∀ id ∈ a.tasks.flatMap (Task.relies rules), 1 ≤ a.queueings h id

theorem Backed.step {setting : Setting} {a b : Machine} {h : History}
    (backed : a.Backed setting.rules h) (next : a.next? setting .collector = some b) :
    b.Backed setting.rules
      ⟨a.session.pushed b.session ++ h.queued, a.entering ++ h.propagated⟩ := by
  obtain ⟨s, tasks⟩ := a
  obtain ⟨task, rest, here, rfl⟩ := next?_eq_some next
  obtain rfl : tasks = task :: rest := here
  have backs := Task.backs_step setting s task
  generalize task.step setting .collector s = result at backs
  obtain ⟨t, tasks⟩ := result
  dsimp only at backs ⊢
  have more (id : MatchId) : Machine.queueings ⟨s, task :: rest⟩ h id ≤
      Machine.queueings ⟨t, tasks ++ rest⟩
        ⟨s.pushed t ++ h.queued, Machine.entering ⟨s, task :: rest⟩ ++ h.propagated⟩ id := by
    have keeps := backs.keeps id
    simp only [queueings, List.flatMap_append, List.flatMap_cons, List.count_append]
    omega
  constructor
  · intro callback id phase member requeues
    rcases backs.fired callback id phase member requeues with before | ⟨relies, pushed⟩
    · exact Nat.le_trans (backed.fired callback id phase before requeues) (more id)
    · have once := backed.relied id (List.mem_flatMap.mpr ⟨task, List.mem_cons_self, relies⟩)
      have quiet := Task.queues_of_relies relies
      simp only [queueings, List.flatMap_append, List.flatMap_cons, List.count_append, quiet,
        pushed, List.count_nil, List.count_singleton_self] at once ⊢
      omega
  · intro id member
    rw [List.flatMap_append, List.mem_append] at member
    rcases member with new | old
    · rcases backs.relied id new with relies | queued
      · have once := backed.relied id (List.mem_flatMap.mpr ⟨task, List.mem_cons_self, relies⟩)
        exact Nat.le_trans once (more id)
      · have positive := List.count_pos_iff.mpr queued
        simp only [queueings, List.flatMap_append, List.count_append]
        omega
    · exact Nat.le_trans (backed.relied id (List.mem_append_right _ old)) (more id)

/-- Every run from a session without matches and tasks that rely on nothing. -/
theorem Records.backed {setting : Setting} {tasks : List Task} {a : Machine} {h : History}
    (relied : tasks.flatMap (Task.relies setting.rules) = [])
    (records : Records setting .collector ⟨{}, tasks⟩ a h) : a.Backed setting.rules h := by
  induction records with
  | start => exact ⟨by simp, by simp [relied]⟩
  | step _ next ih => exact ih.step next

end Machine

/-- Every state that a pass goes through has a history. Where the rule set lists the filters that it
calls, each match has been queued once at most, no more matches have been propagated than there are,
and the chart is linked up from those that have been. Every filter that is not listed, lets its match
go on and is fired has the match queued twice by the end of the pass; and when a match is propagated
again for the first time, its bucket becomes a circle. -/
theorem Pass.queued_once (rules : RuleSet) (locales : List Locale) (limit : Nat)
    (tokens : List Token) (labels : List Label) (a : Machine) :
    (Machine.Reaches (.ofRules rules locales limit) .collector
        (start (.ofRules rules locales limit) tokens labels) a →
      ∃ h, Machine.Records (.ofRules rules locales limit) .collector
        (start (.ofRules rules locales limit) tokens labels) a h) ∧
    ∀ h, Machine.Records (.ofRules rules locales limit) .collector
        (start (.ofRules rules locales limit) tokens labels) a h →
      (rules.ListsFilters → a.Charted h) ∧
      (a.tasks = [] → ∀ callback id phase, .fired callback id phase ∈ a.session.log →
        rules.Requeues callback → 2 ≤ h.queued.count id) ∧
      ∀ id ids, h.propagated = id :: ids → ids.Nodup → id ∈ ids →
        ∀ l, Links.Entered a.session.arena h.propagated l →
          ∃ i, ∀ chain, ¬ l.Chain (l.first i) chain := by
  refine ⟨fun reach => reach.exists_records, fun h records => ⟨?_, ?_, ?_⟩⟩
  · intro lists
    apply records.charted_of_lists lists _ rfl rfl
    simp [Task.Listed]
  · intro done callback id phase member requeues
    have twice := (records.backed rfl).fired callback id phase member requeues
    simpa [Machine.queueings, done] using twice
  · intro id ids isFirst distinct again l entered
    rw [isFirst] at entered
    exact entered.circular distinct again

/-- The start of the text, 1, which a filter lets go on as a 2 of type 5. -/
def NormalForm.typedStart (filters : Std.TreeSet UInt32) : NormalForm :=
  { shards := #[{
      tables := { unary := .insert ∅ 1 [{ symbol := 2, callback := ⟨Builtin.setType.id, 5⟩ }] } }]
    filters
    numbering := { last := 2 }
    structural := { start := 1 } }

/-- The bytes of a normal form are accepted and the rule set is as wanted. -/
def NormalForm.accepts (n : NormalForm) (wanted : RuleSet → Bool) : Bool :=
  (RuleSet.ofBytes (RuleSet.encode n false).toArray).toOption.any wanted

theorem NormalForm.typedStart_lists :
    (typedStart (.insert ∅ Builtin.setType.id)).accepts (fun r => decide r.ListsFilters) = true := by
  unfold accepts
  rw [RuleSet.encode_eq_listed]
  decide +kernel

theorem NormalForm.typedStart_fires :
    (typedStart ∅).accepts (fun r => !r.isFilter Builtin.setType.id &&
      decide (.fired ⟨Builtin.setType.id, 5⟩ 1 .processing ∈
        (Pass.session (.ofRules r [] 1000) [] []).log)) = true := by
  unfold accepts
  rw [RuleSet.encode_eq_listed, Pass.session_eq_sessionIn 500]
  decide +kernel

theorem Pass.queued_once_typedStart :
    (∃ rules, RuleSet.ofBytes
        (RuleSet.encode (.typedStart (.insert ∅ Builtin.setType.id)) false).toArray = .ok rules ∧
      rules.ListsFilters ∧
      ∃ h, Machine.Charted ⟨session (.ofRules rules [] 1000) [] [], []⟩ h) ∧
    ∃ rules, RuleSet.ofBytes (RuleSet.encode (.typedStart ∅) false).toArray = .ok rules ∧
      ∃ h, Machine.Records (.ofRules rules [] 1000) .collector
        (start (.ofRules rules [] 1000) [] []) ⟨session (.ofRules rules [] 1000) [] [], []⟩ h ∧
        2 ≤ h.queued.count 1 := by
  constructor
  · obtain ⟨rules, accepted, lists⟩ := RuleSet.exists_ok_of_any NormalForm.typedStart_lists
    have lists : rules.ListsFilters := of_decide_eq_true lists
    obtain ⟨hasHistory, known⟩ := queued_once rules [] 1000 [] []
      ⟨session (.ofRules rules [] 1000) [] [], []⟩
    obtain ⟨h, records⟩ := hasHistory (reaches_session _ _ _)
    exact ⟨rules, accepted, lists, h, (known h records).1 lists⟩
  · obtain ⟨rules, accepted, fires⟩ := RuleSet.exists_ok_of_any NormalForm.typedStart_fires
    simp only [Bool.and_eq_true, Bool.not_eq_true', decide_eq_true_eq] at fires
    obtain ⟨hasHistory, known⟩ := queued_once rules [] 1000 [] []
      ⟨session (.ofRules rules [] 1000) [] [], []⟩
    obtain ⟨h, records⟩ := hasHistory (reaches_session _ _ _)
    refine ⟨rules, accepted, h, records, (known h records).2.1 rfl _ 1 _ fires.2 ?_⟩
    exact ⟨by decide, fires.1⟩

end Phrasebook
