import Phrasebook.Proofs.Derivation.Nesting
import Phrasebook.Proofs.Session.Queueing
import Phrasebook.Proofs.Session.Recognition

/-!
What a pass finds, said without an order. Of a match the rules see only where it stands and which
symbol it has. A pass that drops nothing finds the least outcome that holds what the text supplies
and is closed under the rules: nothing else takes part, since every step stays within a closed
outcome, and the chart at the end is closed itself. So an outcome does not depend on the order in
which labels are given. This needs callbacks that decide without regard to what has been found
before, as all do but that of an exclusion.
-/

namespace Phrasebook

open Session

/-- What the rules see of a match. -/
structure Edge where
  symbol : Symbol
  span : Span
  offset : Nat

/-- The gap between the text before an edge and its start. -/
def Edge.gap (e : Edge) : Nat := e.span.start - e.offset

def Match.edge (m : Match) : Edge := ⟨m.symbol, m.span, m.offset⟩

/-- The edges that take part, and the spans that are reported for rules. -/
abbrev Outcome := Set Edge × Set (UInt64 × Span)

def Session.outcome (s : Session) : Outcome :=
  ({e | ∃ id m, s.Propagated id ∧ s.arena.get? id = some m ∧ m.edge = e},
    {r | ∃ d ∈ s.derivations, d.report s.arena = r})

/-- The session that has only been told where the text starts. -/
def Pass.opening (setting : Setting) : Session := Session.reset setting .collector {}

/-- The head is completed by a piece, by an edge, or by two adjacent edges, of which the second
covers something. -/
inductive Completes (setting : Setting) (tokens : List Token) (edges : Set Edge) (h : Head) :
    Span → Nat → Prop
  | text {offset : Nat} {piece : Token} (placed : (offset, piece) ∈ Feed.place 0 (solidPieces tokens))
      (reads : setting.HeadOfText piece.value h) : Completes setting tokens edges h piece.span offset
  | one {e : Edge} (operand : e ∈ edges) (isHead : setting.HeadOfOne e.symbol h) :
      Completes setting tokens edges h e.span e.offset
  | two {l r : Edge} (left : l ∈ edges) (right : r ∈ edges) (adjacent : r.offset = l.span.stop)
      (covers : r.offset < r.span.stop) (isHead : setting.HeadOfTwo l.symbol r.symbol h)
      (allowed : allows h (some r.gap) = true) :
      Completes setting tokens edges h ⟨l.span.start, r.span.stop⟩ l.offset

/-- An outcome that contains what the start of the text gives and what pieces and labels supply, and
that has an edge and a report wherever a head that lets its match go on, or reports a rule, is
completed. -/
structure Outcome.Closed (setting : Setting) (tokens : List Token) (labels : List Label)
    (o : Outcome) : Prop where
  opening : (Pass.opening setting).outcome ≤ o
  supplied : ∀ m, Supplied setting.rules tokens labels m → m.offset < m.span.stop → m.edge ∈ o.1
  edges : ∀ h span offset, Completes setting tokens o.1 h span offset → setting.Passes h →
    ⟨h.symbol, span, offset⟩ ∈ o.1
  reports : ∀ h span offset, Completes setting tokens o.1 h span offset →
    h.callback.id = Builtin.rootRule.id → (h.callback.param, span) ∈ o.2

section
variable {setting : Setting} {tokens : List Token} {labels : List Label}

theorem Completes.hasHead {edges : Set Edge} {h : Head} {span : Span} {offset : Nat}
    (completes : Completes setting tokens edges h span offset) : setting.HasHead h := by
  cases completes with
  | text _ reads => exact .inl ⟨_, reads⟩
  | one _ isHead => exact .inr (.inl ⟨_, isHead⟩)
  | two _ _ _ _ isHead _ => exact .inr (.inr ⟨_, _, isHead⟩)

/-! ### Every step stays within a closed outcome -/

/-- No match stops before the text that it hangs on. -/
theorem Session.Sound.offset_le {s : Session} (sound : s.Sound setting tokens labels)
    (laid : Token.Laid tokens) (fit : Feed.LabelsFit tokens labels) {id : Nat} {m : Match}
    (found : s.arena.get? id = some m) : m.offset ≤ m.span.stop := by
  have ordered : ∀ label ∈ labels, label.span.start ≤ label.span.stop := by
    intro label member
    exact Nat.le_of_lt (fit label member).1
  have forward := (sound.nests laid ordered found).1
  exact Nat.le_trans forward.behind forward.ordered

/-- The match `id` is an edge of `edges` and covers something. -/
def Arena.Within (a : Arena) (edges : Set Edge) (id : Nat) : Prop :=
  ∃ m, a.get? id = some m ∧ m.offset < m.span.stop ∧ m.edge ∈ edges

theorem Arena.Within.keeps {a b : Arena} {edges : Set Edge} {id : Nat} (keeps : a.Keeps b)
    (within : a.Within edges id) : b.Within edges id := by
  obtain ⟨m, found, covers, member⟩ := within
  obtain ⟨kind, found'⟩ := keeps id m found
  exact ⟨_, found', covers, member⟩

/-- What is queued, propagated and reported lies within an outcome. -/
structure Session.Within (o : Outcome) (s : Session) : Prop where
  pending : ∀ id ∈ s.pending, s.arena.Within o.1 id
  chart : ∀ id, s.Propagated id → ∃ m, s.arena.get? id = some m ∧ m.edge ∈ o.1
  noted : ∀ d ∈ s.derivations, ∃ m, s.arena.get? d.root = some m ∧ (d.ruleId, m.span) ∈ o.2

theorem Session.Within.outcome_le {o : Outcome} {s : Session} (within : s.Within o) :
    s.outcome ≤ o := by
  constructor
  · rintro _ ⟨id, m, inChart, found, rfl⟩
    obtain ⟨n, found', member⟩ := within.chart id inChart
    obtain rfl := Option.some.inj (found.symm.trans found')
    exact member
  · rintro _ ⟨d, member, rfl⟩
    obtain ⟨m, found, reported⟩ := within.noted d member
    rw [Derivation.report, Arena.spanOf, found]
    exact reported

/-- Work that stays within an outcome. -/
def Task.Within (setting : Setting) (tokens : List Token) (o : Outcome) (a : Arena) : Task → Prop
  | .execute site gap shared heads =>
    site.offset < site.span.stop ∧
    (∀ h ∈ heads, allows h gap = true → Completes setting tokens o.1 h site.span site.offset) ∧
    ∀ id symbol, shared = some (id, symbol) → ⟨symbol, site.span, site.offset⟩ ∈ o.1
  | .fire id callback =>
    ∃ m h, a.get? id = some m ∧ h.callback = callback ∧ m.offset < m.span.stop ∧
      m.symbol = h.symbol ∧ Completes setting tokens o.1 h m.span m.offset
  | .enqueue id | .enter id => a.Within o.1 id
  | .lookLeft _ _ m | .propagate _ m _ => m.offset < m.span.stop ∧ m.edge ∈ o.1
  | .combine _ _ m lefts =>
    m.offset < m.span.stop ∧ m.edge ∈ o.1 ∧
    ∀ left ∈ lefts, ∃ l, a.get? left = some l ∧ l.edge ∈ o.1
  | .literals site _ _ _ => site.offset < site.span.stop
  | .feed items => ∀ item ∈ items, item.offset < item.stop
  | .drain | .settle | .process => True

theorem Task.Within.keeps {o : Outcome} {a b : Arena} {task : Task} (keeps : a.Keeps b)
    (within : task.Within setting tokens o a) : task.Within setting tokens o b := by
  cases task with
  | fire id callback =>
    obtain ⟨m, h, found, rest⟩ := within
    obtain ⟨kind, found'⟩ := keeps id m found
    exact ⟨_, h, found', rest⟩
  | enqueue id => exact Arena.Within.keeps keeps within
  | enter id => exact Arena.Within.keeps keeps within
  | combine shard id m lefts =>
    refine ⟨within.1, within.2.1, fun left member => ?_⟩
    obtain ⟨l, found, isEdge⟩ := within.2.2 left member
    obtain ⟨kind, found'⟩ := keeps left l found
    exact ⟨_, found', isEdge⟩
  | execute | lookLeft | propagate | literals | feed | drain | settle | process => exact within

/-- Changes to anything but arena, queue, chart and derivations do not matter. -/
theorem Session.Within.congr {o : Outcome} {s t : Session} (within : s.Within o)
    (keeps : s.arena.Keeps t.arena) (pending : ∀ id ∈ t.pending, t.arena.Within o.1 id)
    (chart : t.chart = s.chart) (derivations : t.derivations = s.derivations) : t.Within o := by
  constructor
  · exact pending
  · intro id inChart
    obtain ⟨stop, member⟩ := inChart
    obtain ⟨m, found, isEdge⟩ := within.chart id ⟨stop, chart ▸ member⟩
    obtain ⟨kind, found'⟩ := keeps id m found
    exact ⟨_, found', isEdge⟩
  · intro d member
    obtain ⟨m, found, reported⟩ := within.noted d (derivations ▸ member)
    obtain ⟨kind, found'⟩ := keeps d.root m found
    exact ⟨_, found', reported⟩

/-- Session and new tasks stay within an outcome. -/
def Task.StaysWithin (setting : Setting) (tokens : List Token) (o : Outcome)
    (r : Session × List Task) : Prop :=
  r.1.Within o ∧ ∀ task ∈ r.2, task.Within setting tokens o r.1.arena

/-- A built-in filter accepts every match, unless it is an exclusion. -/
theorem Callback.accepts_of_isBuiltinFilter {callback : Callback}
    (isFilter : callback.isBuiltinFilter = true) (other : callback.id ≠ Builtin.exclusion.id) :
    Builtin.ofId? callback.id = some .setType ∨ Builtin.ofId? callback.id = some .assertion ∨
      Builtin.ofId? callback.id = some .mapping := by
  obtain ⟨b, known, same⟩ := List.any_eq_true.mp isFilter
  rw [← eq_of_beq same] at other ⊢
  cases b with
  | setType => exact .inl rfl
  | assertion => exact .inr (.inl rfl)
  | mapping => exact .inr (.inr rfl)
  | exclusion => exact absurd rfl other
  | rootRule => simp [Builtin.filters] at known

/-- A callback of a completed head stays within a closed outcome. -/
theorem Session.Within.fire {o : Outcome} (closed : o.Closed setting tokens labels)
    (unexcluded : ∀ h, setting.HasHead h → h.callback.id ≠ Builtin.exclusion.id) {s : Session}
    {id : MatchId} {callback : Callback} (within : s.Within o)
    (due : (Task.fire id callback).Within setting tokens o s.arena) :
    (s.fire .collector id callback).Within o := by
  have answers := fire_answers s id callback
  have keeps := answers.keeps
  obtain ⟨m, h, found, rfl, covers, symbol, completes⟩ := due
  obtain ⟨kind, found'⟩ := keeps id m found
  have old (other : MatchId) (member : other ∈ s.pending) :
      (s.fire .collector id h.callback).arena.Within o.1 other :=
    (within.pending other member).keeps keeps
  have noted (d : Derivation) (member : d ∈ s.derivations) :
      ∃ n, (s.fire .collector id h.callback).arena.get? d.root = some n ∧
        (d.ruleId, n.span) ∈ o.2 := by
    obtain ⟨n, foundn, reported⟩ := within.noted d member
    obtain ⟨kind', found'⟩ := keeps d.root n foundn
    exact ⟨_, found', reported⟩
  constructor
  · intro other member
    rcases fire_pending s id h.callback with same | ⟨isFilter, queued⟩
    · exact old other (same ▸ member)
    · rw [queued] at member
      by_cases same : other = id
      · subst same
        have passes : setting.Passes h := fun _ _ =>
          Callback.accepts_of_isBuiltinFilter isFilter (unexcluded h completes.hasHead)
        have isEdge := closed.edges h m.span m.offset completes passes
        rw [← symbol] at isEdge
        exact ⟨_, found', covers, isEdge⟩
      · exact old other (List.mem_of_ne_of_mem same member)
  · intro other inChart
    obtain ⟨stop, member⟩ := inChart
    obtain ⟨n, foundn, isEdge⟩ := within.chart other ⟨stop, answers.chart ▸ member⟩
    obtain ⟨kind', found'⟩ := keeps other n foundn
    exact ⟨_, found', isEdge⟩
  · intro d member
    rcases answers.derivations with same | ⟨root, pushed⟩
    · exact noted d (same ▸ member)
    · rw [pushed, Array.mem_push] at member
      by_cases last : d = ⟨h.callback.param, id⟩
      · subst last
        exact ⟨_, found', closed.reports h m.span m.offset completes root⟩
      · exact noted d (member.resolve_right last)

/-- One head of a set that is completed. -/
theorem Task.staysWithin_stepHead {o : Outcome} (closed : o.Closed setting tokens labels)
    {s : Session} {site : Match} {gap : Option Nat} {shared : Option (MatchId × Symbol)}
    {head : Head} {rest : List Head} (within : s.Within o)
    (sound : (Task.execute site gap shared (head :: rest)).Sound setting tokens labels s.arena)
    (due : (Task.execute site gap shared (head :: rest)).Within setting tokens o s.arena) :
    Task.StaysWithin setting tokens o (Task.stepHead setting s site gap shared head rest) := by
  obtain ⟨covers, completes, isShared⟩ := due
  have later (h : Head) (member : h ∈ rest) := completes h (List.mem_cons_of_mem _ member)
  simp only [Task.stepHead]
  split
  · refine ⟨within, ?_⟩
    simp only [List.mem_singleton, forall_eq]
    exact ⟨covers, later, isShared⟩
  · next allowed =>
    have complete := completes head List.mem_cons_self (by simpa using allowed)
    split
    · next id symbol found =>
      obtain ⟨same, fits⟩ := Option.filter_eq_some_iff.mp found
      obtain ⟨kind, there⟩ := sound.2 id symbol same
      have isEdge := isShared id symbol same
      have eq : symbol = head.symbol := by
        simp only [Bool.and_eq_true, beq_iff_eq] at fits
        exact fits.1
      refine ⟨within, ?_⟩
      simp only [List.mem_cons, List.not_mem_nil, or_false, forall_eq_or_imp, forall_eq]
      refine ⟨⟨_, head, there, rfl, covers, eq, complete⟩, covers, later, ?_⟩
      rintro _ _ ⟨⟩
      exact isEdge
    · rcases allocate_cases s setting.capacity { site with symbol := head.symbol } with
        ⟨room, made⟩ | ⟨full, dropped⟩
      · rw [made]
        have keeps := Arena.Keeps.push s.arena { site with symbol := head.symbol }
        have there : (s.arena.push { site with symbol := head.symbol }).get? s.arena.size =
            some { site with symbol := head.symbol } := by
          rw [Arena.get?_push, if_pos rfl]
        have after : Session.Within o
            { s with
              arena := s.arena.push { site with symbol := head.symbol }
              stats := { s.stats with allocated := s.stats.allocated + 1 } } :=
          within.congr keeps (fun id member => (within.pending id member).keeps keeps) rfl rfl
        have fires : (Task.fire s.arena.size head.callback).Within setting tokens o
            (s.arena.push { site with symbol := head.symbol }) :=
          ⟨_, head, there, rfl, covers, rfl, complete⟩
        dsimp only
        split
        · refine ⟨after, ?_⟩
          simp only [List.mem_cons, List.not_mem_nil, or_false, forall_eq_or_imp, forall_eq]
          exact ⟨fires, covers, later, by simp⟩
        · next noFilter =>
          have passes : setting.Passes head := by
            intro loud isFilter
            exact absurd (by simp [loud, isFilter]) noFilter
          have isEdge := closed.edges head _ _ complete passes
          refine ⟨after, ?_⟩
          simp only [List.mem_cons, List.not_mem_nil, or_false, forall_eq_or_imp, forall_eq]
          refine ⟨fires, ⟨_, there, covers, isEdge⟩, covers, later, ?_⟩
          rintro _ _ ⟨⟩
          exact isEdge
      · rw [dropped]
        refine ⟨within.congr (.refl _) within.pending rfl rfl, ?_⟩
        simp only [List.mem_singleton, forall_eq]
        exact ⟨covers, later, by simp⟩

theorem Task.within_ofSet {o : Outcome} {a : Arena} {site : Match} {gap : Option Nat}
    {set : Option Nat} (covers : site.offset < site.span.stop)
    (completes : ∀ i, set = some i → ∀ h ∈ setting.rules.heads i, allows h gap = true →
      Completes setting tokens o.1 h site.span site.offset) :
    (Task.ofSet setting site gap set).Within setting tokens o a := by
  cases set with
  | none => exact ⟨covers, by simp, by simp⟩
  | some i => exact ⟨covers, fun h member => completes i rfl h (by simpa using member), by simp⟩

section
variable {o : Outcome} {s : Session}

theorem Session.Within.enqueue {id : MatchId} (within : s.Within o)
    (due : s.arena.Within o.1 id) : (s.enqueue id).Within o :=
  within.congr (.refl _) (List.forall_mem_cons.mpr ⟨due, within.pending⟩) rfl rfl

theorem Task.staysWithin_combine {shard : Nat} {id : MatchId} {m : Match} {lefts : List MatchId}
    (laid : Token.Laid tokens) (fit : Feed.LabelsFit tokens labels)
    (sound : s.Sound setting tokens labels)
    (isSound : (Task.combine shard id m lefts).Sound setting tokens labels s.arena)
    (within : s.Within o) (due : (Task.combine shard id m lefts).Within setting tokens o s.arena) :
    Task.StaysWithin setting tokens o
      ((Task.combine shard id m lefts).step setting .collector s) := by
  cases lefts with
  | nil => exact ⟨within, by simp [Task.step]⟩
  | cons left rest =>
    obtain ⟨covers, isEdge, each⟩ := due
    obtain ⟨active, _, adjacent⟩ := isSound
    obtain ⟨l, found, isLeft⟩ := each left List.mem_cons_self
    obtain ⟨_, n, found', stop⟩ := adjacent left List.mem_cons_self
    obtain rfl := Option.some.inj (found.symm.trans found')
    simp only [Task.step, found]
    refine ⟨within, ?_⟩
    simp only [List.mem_cons, List.not_mem_nil, or_false, forall_eq_or_imp, forall_eq]
    refine ⟨Task.within_ofSet ?_ ?_, covers, isEdge, fun other member =>
      each other (List.mem_cons_of_mem _ member)⟩
    · have before : l.offset ≤ m.offset := stop ▸ sound.offset_le laid fit found
      exact Nat.lt_of_le_of_lt before covers
    · intro i isSet h member allowed
      exact .two isLeft isEdge stop.symm covers ⟨shard, active, i, member, isSet⟩ allowed

theorem Task.staysWithin_propagate {id : MatchId} {m : Match} {shards : List Nat}
    (isSound : (Task.propagate id m shards).Sound setting tokens labels s.arena)
    (within : s.Within o) (due : (Task.propagate id m shards).Within setting tokens o s.arena) :
    Task.StaysWithin setting tokens o ((Task.propagate id m shards).step setting .collector s) := by
  cases shards with
  | nil => exact ⟨within, by simp [Task.step]⟩
  | cons shard rest =>
    obtain ⟨covers, isEdge⟩ := due
    have active := isSound.1 shard List.mem_cons_self
    refine ⟨within, ?_⟩
    simp only [Task.step, List.mem_cons, List.not_mem_nil, or_false, forall_eq_or_imp, forall_eq]
    refine ⟨Task.within_ofSet covers ?_, ⟨covers, isEdge⟩, covers, isEdge⟩
    intro i isSet h member _
    exact .one isEdge ⟨shard, active, i, member, isSet⟩

theorem Task.staysWithin_enter {id : MatchId} (sound : s.Sound setting tokens labels)
    (within : s.Within o) (due : s.arena.Within o.1 id) :
    Task.StaysWithin setting tokens o ((Task.enter id).step setting .collector s) := by
  obtain ⟨m, found, covers, isEdge⟩ := due
  simp only [Task.step, found]
  refine ⟨⟨within.pending, ?_, within.noted⟩, ?_⟩
  · intro other inChart
    rcases (propagated_insert sound.sorted rfl).mp inChart with rfl | before
    · exact ⟨m, found, isEdge⟩
    · exact within.chart other before
  · simp only [List.mem_singleton, forall_eq]
    exact ⟨covers, isEdge⟩

theorem Task.staysWithin_drain (within : s.Within o) :
    Task.StaysWithin setting tokens o (Task.drain.step setting .collector s) := by
  simp only [Task.step]
  split
  · exact ⟨within, by simp⟩
  · next id rest queue =>
    have queued : ∀ other ∈ rest, s.arena.Within o.1 other := by
      intro other member
      exact within.pending other (queue ▸ List.mem_cons_of_mem _ member)
    refine ⟨within.congr (.refl _) queued rfl rfl, ?_⟩
    simp only [List.mem_cons, List.not_mem_nil, or_false, forall_eq_or_imp, forall_eq]
    exact ⟨within.pending id (queue ▸ List.mem_cons_self), trivial⟩

theorem Task.staysWithin_literals {site : Match} {text folded : String} {shards : List Nat}
    (isSound : (Task.literals site text folded shards).Sound setting tokens labels s.arena)
    (within : s.Within o) (covers : site.offset < site.span.stop) :
    Task.StaysWithin setting tokens o
      ((Task.literals site text folded shards).step setting .collector s) := by
  cases shards with
  | nil => exact ⟨within, by simp [Task.step]⟩
  | cons shard rest =>
    obtain ⟨active, rfl, offset, piece, placed, rfl, rfl⟩ := isSound
    have here := active shard List.mem_cons_self
    refine ⟨within, ?_⟩
    simp only [Task.step, List.mem_cons, List.not_mem_nil, or_false, forall_eq_or_imp, forall_eq]
    refine ⟨Task.within_ofSet covers ?_, Task.within_ofSet covers ?_, covers⟩
    · exact fun i isSet h member _ => .text placed ⟨shard, here, i, member, .inl isSet⟩
    · exact fun i isSet h member _ => .text placed ⟨shard, here, i, member, .inr isSet⟩

theorem Task.staysWithin_feed {items : List FeedItem} (closed : o.Closed setting tokens labels)
    (isSound : (Task.feed items).Sound setting tokens labels s.arena) (within : s.Within o)
    (due : (Task.feed items).Within setting tokens o s.arena) :
    Task.StaysWithin setting tokens o ((Task.feed items).step setting .collector s) := by
  cases items with
  | nil => exact ⟨within, by simp [Task.step]⟩
  | cons item rest =>
    have others : (Task.feed rest).Within setting tokens o s.arena :=
      fun other member => due other (List.mem_cons_of_mem _ member)
    have covers := due item List.mem_cons_self
    cases item with
    | terminal span offset text =>
      refine ⟨within.congr (.refl _) within.pending rfl rfl, ?_⟩
      simp only [Task.step, List.mem_cons, List.not_mem_nil, or_false, forall_eq_or_imp, forall_eq]
      exact ⟨covers, trivial, others⟩
    | symbol m =>
      obtain ⟨_, supplied⟩ := isSound _ List.mem_cons_self
      have isEdge := closed.supplied m supplied covers
      simp only [Task.step]
      rcases allocate_cases s setting.capacity m with ⟨room, made⟩ | ⟨full, dropped⟩
      · rw [made]
        have keeps := Arena.Keeps.push s.arena m
        refine ⟨within.congr keeps (fun id member => (within.pending id member).keeps keeps) rfl
          rfl, ?_⟩
        simp only [List.mem_cons, List.not_mem_nil, or_false, forall_eq_or_imp, forall_eq]
        refine ⟨⟨m, ?_, covers, isEdge⟩, trivial, others⟩
        rw [Arena.get?_push, if_pos rfl]
      · rw [dropped]
        refine ⟨within.congr (.refl _) within.pending rfl rfl, ?_⟩
        simp only [List.mem_singleton, forall_eq]
        exact others

/-- One step of work within a closed outcome. -/
theorem Task.staysWithin_step (closed : o.Closed setting tokens labels)
    (unexcluded : ∀ h, setting.HasHead h → h.callback.id ≠ Builtin.exclusion.id)
    (laid : Token.Laid tokens) (fit : Feed.LabelsFit tokens labels) {task : Task}
    (sound : s.Sound setting tokens labels) (isSound : task.Sound setting tokens labels s.arena)
    (within : s.Within o) (due : task.Within setting tokens o s.arena) :
    Task.StaysWithin setting tokens o (task.step setting .collector s) := by
  cases task with
  | execute site gap shared heads =>
    cases heads with
    | nil => exact ⟨within, by simp [Task.step]⟩
    | cons head rest => exact Task.staysWithin_stepHead closed within isSound due
  | fire id callback => exact ⟨within.fire closed unexcluded due, by simp [Task.step]⟩
  | enqueue id => exact ⟨within.enqueue due, by simp [Task.step]⟩
  | lookLeft shard id m =>
    obtain ⟨covers, isEdge⟩ := due
    refine ⟨within, ?_⟩
    simp only [Task.step, List.mem_singleton, forall_eq]
    exact ⟨covers, isEdge, fun left member =>
      within.chart left ⟨m.offset, (List.mem_filter.mp member).1⟩⟩
  | combine => exact Task.staysWithin_combine laid fit sound isSound within due
  | propagate => exact Task.staysWithin_propagate isSound within due
  | enter => exact Task.staysWithin_enter sound within due
  | drain => exact Task.staysWithin_drain within
  | settle => exact ⟨within.congr (.refl _) within.pending rfl rfl, by simp [Task.step]⟩
  | process =>
    simp only [Task.step]
    split
    · exact ⟨within, by simp⟩
    · exact ⟨within.congr (.refl _) within.pending rfl rfl, by simp [Task.Within]⟩
  | literals => exact Task.staysWithin_literals isSound within due
  | feed => exact Task.staysWithin_feed closed isSound within due

end

/-- Session and tasks of a machine stay within an outcome. -/
def Machine.Within (setting : Setting) (tokens : List Token) (o : Outcome) (a : Machine) : Prop :=
  a.session.Within o ∧ ∀ task ∈ a.tasks, task.Within setting tokens o a.session.arena

theorem Machine.within_next {o : Outcome} (closed : o.Closed setting tokens labels)
    (unexcluded : ∀ h, setting.HasHead h → h.callback.id ≠ Builtin.exclusion.id)
    (laid : Token.Laid tokens) (fit : Feed.LabelsFit tokens labels) {a b : Machine}
    (sound : a.Sound setting tokens labels) (within : a.Within setting tokens o)
    (next : a.next? setting .collector = some b) : b.Within setting tokens o := by
  obtain ⟨task, rest, isTasks, rfl⟩ := next?_eq_some next
  have first : task ∈ a.tasks := isTasks ▸ List.mem_cons_self
  obtain ⟨after, new⟩ := Task.staysWithin_step closed unexcluded laid fit sound.1
    (sound.2 task first) within.1 (within.2 task first)
  have keeps := (Task.leads_step sound.1 (sound.2 task first)).2.1
  refine ⟨after, ?_⟩
  intro other member
  rcases List.mem_append.mp member with member | member
  · exact new other member
  · exact (within.2 other (isTasks ▸ List.mem_cons_of_mem _ member)).keeps keeps

end

/-! ### The outcome of a pass that drops nothing is closed -/

theorem Feed.Ordered.left {rules : RuleSet} {tokens : List Token} {first second : List FeedItem}
    (ordered : Feed.Ordered rules tokens (first ++ second)) : Feed.Ordered rules tokens first where
  offsets item member := ordered.offsets item (List.mem_append_left _ member)
  terminals span offset text member :=
    ordered.terminals span offset text (List.mem_append_left _ member)
  leaves m member := ordered.leaves m (List.mem_append_left _ member)
  order := (List.pairwise_append.mp ordered.order).1

namespace Pass

theorem opening_eq_foldl (setting : Setting) :
    opening setting = (Feed.symbolItem setting.rules.layout.structural.start ⟨0, 0⟩ 0).foldl
      (take setting .collector) {} := by
  simp only [opening, reset, Feed.symbolItem]
  split <;> rfl

section
variable (setting : Setting) {tokens : List Token} {labels : List Label}

theorem opening_settled (laid : Token.Laid tokens) (fit : Feed.LabelsFit tokens labels) :
    (opening setting).Settled setting tokens
      (Feed.symbolItem setting.rules.layout.structural.start ⟨0, 0⟩ 0) := by
  have ordered := Feed.Ordered.left (Pass.feed_ordered setting.rules laid fit)
  rw [opening_eq_foldl]
  exact ((Settled.empty setting tokens).takeAll ordered).1

theorem opening_grows (laid : Token.Laid tokens) (fit : Feed.LabelsFit tokens labels) :
    Grows (opening setting) (session setting tokens labels) :=
  ((opening_settled setting laid fit).takeAll (Pass.feed_ordered setting.rules laid fit)).2.1

theorem opening_sound (tokens : List Token) (labels : List Label) :
    (opening setting).Sound setting tokens labels := by
  have due : ∀ item ∈ Feed.symbolItem setting.rules.layout.structural.start ⟨0, 0⟩ 0,
      item.Due setting.rules tokens labels := by
    intro item member
    exact Feed.due_symbolItem .start member
  have start : Machine.Sound setting tokens labels
      ⟨{}, [.feed (Feed.symbolItem setting.rules.layout.structural.start ⟨0, 0⟩ 0)]⟩ := by
    refine ⟨(Pass.sound_start setting tokens labels).1, ?_⟩
    simp only [List.mem_singleton, forall_eq]
    exact due
  have reach : Machine.Reaches setting .collector _ ⟨_, []⟩ := Machine.does_feed
    (Feed.symbolItem setting.rules.layout.structural.start ⟨0, 0⟩ 0) {} []
  rw [opening_eq_foldl]
  exact (reach.preserves (fun _ _ => Machine.sound_next) start).1

end

end Pass

section
variable {setting : Setting} {tokens : List Token} {labels : List Label}

/-- Whatever a pass finds lies in every closed outcome. -/
theorem Pass.session_within {o : Outcome} (closed : o.Closed setting tokens labels)
    (unexcluded : ∀ h, setting.HasHead h → h.callback.id ≠ Builtin.exclusion.id)
    (noStop : setting.rules.layout.structural.stop = 0) (laid : Token.Laid tokens)
    (fit : Feed.LabelsFit tokens labels) : (Pass.session setting tokens labels).outcome ≤ o := by
  have sound := Pass.opening_sound setting tokens labels
  have empty := (Pass.opening_settled setting laid fit).pending
  have items : Feed.items setting.rules tokens labels = Feed.inner setting.rules tokens labels := by
    simp [Feed.items, Feed.inner, Feed.byStop, Feed.symbolItem, noStop]
  have start : Machine.Sound setting tokens labels
        ⟨Pass.opening setting, [.feed (Feed.items setting.rules tokens labels)]⟩ ∧
      Machine.Within setting tokens o
        ⟨Pass.opening setting, [.feed (Feed.items setting.rules tokens labels)]⟩ := by
    refine ⟨⟨sound, ?_⟩, ⟨?_, ?_, ?_⟩, ?_⟩
    · simp only [List.mem_singleton, forall_eq]
      intro item member
      exact Pass.feed_due setting.rules tokens labels item (List.mem_append_right _ member)
    · simp [empty]
    · intro id inChart
      obtain ⟨stop, member⟩ := inChart
      obtain ⟨m, found, _⟩ := sound.chart stop id member
      exact ⟨m, found, closed.opening.1 ⟨id, m, ⟨stop, member⟩, found, rfl⟩⟩
    · intro d member
      obtain ⟨m, h, found, _⟩ := sound.derivations d member
      have reported := closed.opening.2 ⟨d, member, rfl⟩
      rw [Derivation.report, Arena.spanOf, found] at reported
      exact ⟨m, found, reported⟩
    · simp only [List.mem_singleton, forall_eq, items]
      intro item member
      exact (Feed.mem_inner laid fit member).2.1
  have reach : Machine.Reaches setting .collector _ ⟨Pass.session setting tokens labels, []⟩ :=
    Machine.does_feed (Feed.items setting.rules tokens labels) (Pass.opening setting) []
  have keeps (a b : Machine)
      (both : a.Sound setting tokens labels ∧ a.Within setting tokens o)
      (next : a.next? setting .collector = some b) :
      b.Sound setting tokens labels ∧ b.Within setting tokens o := by
    constructor
    · exact Machine.sound_next both.1 next
    · exact Machine.within_next closed unexcluded laid fit both.1 both.2 next
  exact (reach.preserves keeps start).2.1.outcome_le

/-- What the text supplies is handed to the matcher, if it covers something. -/
theorem Supplied.mem_feed {m : Match} (supplied : Supplied setting.rules tokens labels m)
    (covers : m.offset < m.span.stop) : .symbol m ∈ Pass.feed setting.rules tokens labels := by
  cases supplied with
  | start => exact absurd covers (Nat.lt_irrefl 0)
  | stop used last => exact absurd covers (Nat.lt_irrefl last)
  | piece offset piece symbol used member fits =>
    exact Feed.mem_feed (x := (offset, piece)) member (Feed.mem_pieceItems_of_fits used fits)
  | label label index symbol used member bound =>
    have isLabel : (label, index) ∈ Feed.byStop labels :=
      List.mem_mergeSort.mpr (List.mk_mem_zipIdx_iff_getElem?.mpr member)
    have isItem : FeedItem.symbol
        { symbol, span := label.span, offset := Feed.labelOffset (solidPieces tokens) label,
          kind := .label index } ∈
        Feed.labelItems setting.rules (solidPieces tokens) (label, index) := by
      simp [Feed.labelItems, bound, Feed.symbolItem, used]
    have isInner : _ ∈ Feed.inner setting.rules tokens labels :=
      List.mem_flatten.mpr ⟨_, Feed.mem_merge_of_mem_labels isLabel, isItem⟩
    exact List.mem_append_right _ (List.mem_append_left _ isInner)

/-- Where a head is completed by what has been propagated, its match is made. -/
theorem Completes.made {s : Session} (charted : s.Charted setting tokens)
    (served : ∀ item ∈ Pass.feed setting.rules tokens labels, item.Served setting s) {h : Head}
    {span : Span} {offset : Nat} (completes : Completes setting tokens s.outcome.1 h span offset) :
    ∃ site : Match, site.span = span ∧ site.offset = offset ∧ Made setting s site h := by
  cases completes with
  | @text offset piece placed reads =>
    have isItem : .terminal piece.span offset piece.value ∈
        Pass.feed setting.rules tokens labels :=
      Feed.mem_feed (x := (offset, piece)) placed (by simp [Feed.pieceItems])
    exact ⟨Task.siteOfText piece.span offset, rfl, rfl, served _ isItem h reads⟩
  | one operand isHead =>
    obtain ⟨id, m, inChart, found, rfl⟩ := operand
    exact ⟨Task.siteOfOne id m, rfl, rfl, charted.one id m inChart found h isHead⟩
  | two left right adjacent covers isHead allowed =>
    obtain ⟨left, l, inLeft, foundl, rfl⟩ := left
    obtain ⟨right, r, inRight, foundr, rfl⟩ := right
    have before : l.span.stop < r.span.stop := adjacent ▸ covers
    have different : left ≠ right := by
      rintro rfl
      obtain rfl := Option.some.inj (foundl.symm.trans foundr)
      exact Nat.lt_irrefl _ before
    exact ⟨Task.siteOfPair left l right r, rfl, rfl, charted.two left l right r inLeft inRight
      different foundl foundr adjacent (.inl before) h isHead allowed⟩

/-- A pass that drops nothing has a closed outcome. -/
theorem Pass.outcome_closed (laid : Token.Laid tokens) (fit : Feed.LabelsFit tokens labels)
    (whole : (Pass.session setting tokens labels).stats.dropped = 0) :
    (Pass.session setting tokens labels).outcome.Closed setting tokens labels := by
  obtain ⟨settled, served⟩ := Pass.session_settled setting laid fit
  have grows := Pass.opening_grows setting laid fit
  have sound := Pass.opening_sound setting tokens labels
  generalize Pass.session setting tokens labels = s at *
  have propagated {id : MatchId} (live : s.Live id) : s.Propagated id := by
    rcases live with queued | inChart
    · rw [settled.pending] at queued
      cases queued
    · exact inChart
  constructor
  · constructor
    · rintro _ ⟨id, m, inChart, found, rfl⟩
      obtain ⟨kind, found'⟩ := grows.keeps id m found
      exact ⟨id, _, propagated (grows.live id (.inr inChart)), found', rfl⟩
    · rintro _ ⟨d, member, rfl⟩
      obtain ⟨m, h, found, _⟩ := sound.derivations d member
      obtain ⟨kind, found'⟩ := grows.keeps d.root m found
      refine ⟨d, grows.derivations d member, ?_⟩
      rw [Derivation.report, Derivation.report, Arena.spanOf, Arena.spanOf, found, found']
      rfl
  · intro m supplied covers
    rcases served _ (supplied.mem_feed covers) with dropped | ⟨id, kind, found, live⟩
    · omega
    · exact ⟨id, _, propagated live, found, rfl⟩
  · intro h span offset completes passes
    obtain ⟨site, rfl, rfl, dropped | ⟨id, kind, found, live, _⟩⟩ :=
      completes.made settled.toCharted served
    · omega
    · exact ⟨id, _, propagated (live passes), found, rfl⟩
  · intro h span offset completes root
    obtain ⟨site, rfl, rfl, dropped | ⟨id, kind, found, _, noted⟩⟩ :=
      completes.made settled.toCharted served
    · omega
    · refine ⟨_, noted root, ?_⟩
      rw [Derivation.report, Arena.spanOf, found]
      rfl

/-- A pass that drops nothing finds the least closed outcome. -/
theorem Pass.session_isLeast
    (unexcluded : ∀ h, setting.HasHead h → h.callback.id ≠ Builtin.exclusion.id)
    (noStop : setting.rules.layout.structural.stop = 0) (laid : Token.Laid tokens)
    (fit : Feed.LabelsFit tokens labels)
    (whole : (Pass.session setting tokens labels).stats.dropped = 0) :
    IsLeast {o : Outcome | o.Closed setting tokens labels}
      (Pass.session setting tokens labels).outcome := by
  constructor
  · exact Pass.outcome_closed laid fit whole
  · intro o closed
    exact Pass.session_within closed unexcluded noStop laid fit

/-! ### The order of the labels does not matter -/

/-- Labels in another order supply the same matches, but for their numbers. -/
theorem Supplied.of_perm {labels' : List Label} (perm : labels.Perm labels') {m : Match}
    (supplied : Supplied setting.rules tokens labels m) :
    ∃ kind, Supplied setting.rules tokens labels' { m with kind } := by
  cases supplied with
  | start used => exact ⟨_, .start used⟩
  | stop used last h => exact ⟨_, .stop used last h⟩
  | piece offset piece symbol used member fits => exact ⟨_, .piece offset piece symbol used member fits⟩
  | label label index symbol used member bound =>
    obtain ⟨index', member'⟩ :=
      List.mem_iff_getElem?.mp (perm.mem_iff.mp (List.mem_of_getElem? member))
    exact ⟨_, .label label index' symbol used member' bound⟩

theorem Outcome.Closed.of_perm {labels' : List Label} (perm : labels.Perm labels') {o : Outcome}
    (closed : o.Closed setting tokens labels) : o.Closed setting tokens labels' := by
  refine { closed with supplied := fun m supplied covers => ?_ }
  obtain ⟨kind, supplied'⟩ := supplied.of_perm perm.symm
  exact closed.supplied { m with kind } supplied' covers

/-- Two passes over one text whose labels differ in their order only have the same outcome. -/
theorem Pass.outcome_eq_of_perm {labels' : List Label} (perm : labels.Perm labels')
    (unexcluded : ∀ h, setting.HasHead h → h.callback.id ≠ Builtin.exclusion.id)
    (noStop : setting.rules.layout.structural.stop = 0) (laid : Token.Laid tokens)
    (fit : Feed.LabelsFit tokens labels)
    (whole : (Pass.session setting tokens labels).stats.dropped = 0)
    (whole' : (Pass.session setting tokens labels').stats.dropped = 0) :
    (Pass.session setting tokens labels).outcome = (Pass.session setting tokens labels').outcome := by
  have fit' : Feed.LabelsFit tokens labels' := fun label member =>
    fit label (perm.mem_iff.mpr member)
  have first := Pass.session_isLeast unexcluded noStop laid fit whole
  have second := Pass.session_isLeast unexcluded noStop laid fit' whole'
  have same : {o : Outcome | o.Closed setting tokens labels} =
      {o : Outcome | o.Closed setting tokens labels'} := by
    ext o
    constructor
    · exact .of_perm perm
    · exact .of_perm perm.symm
  rw [same] at first
  exact first.unique second

end

end Phrasebook
