import Phrasebook.Proofs.Session.Soundness

namespace Phrasebook

open Session

/-- The head lets its match go on: its callback is no filter, or one that accepts every match. -/
def Setting.Passes (setting : Setting) (h : Head) : Prop :=
  h.callback.isSilent = false → setting.rules.isFilter h.callback.id = true →
    Builtin.ofId? h.callback.id = some .setType ∨
    Builtin.ofId? h.callback.id = some .assertion ∨
    Builtin.ofId? h.callback.id = some .mapping

/-- The filters among the heads let every match go on. -/
def Setting.Accepting (setting : Setting) : Prop :=
  ∀ h, setting.HasHead h → setting.Passes h

namespace Session

/-- A match that takes part: it is queued or has entered the chart. -/
def Live (s : Session) (id : MatchId) : Prop := id ∈ s.pending ∨ s.Propagated id

theorem Live.mono {s t : Session} {id : MatchId} (live : s.Live id) (chart : t.chart = s.chart)
    (pending : ∀ id ∈ s.pending, id ∈ t.pending) : t.Live id := by
  rcases live with queued | ⟨stop, member⟩
  · exact .inl (pending id queued)
  · exact .inr ⟨stop, chart ▸ member⟩

/-- Matches, those that take part among them, derivations and the count of dropped matches only
grow. -/
structure Grows (s t : Session) : Prop where
  keeps : s.arena.Keeps t.arena
  dropped : s.stats.dropped ≤ t.stats.dropped
  derivations : ∀ d ∈ s.derivations, d ∈ t.derivations
  live : ∀ id, s.Live id → t.Live id

namespace Grows

theorem refl (s : Session) : Grows s s := ⟨.refl _, Nat.le_refl _, fun _ => id, fun _ => id⟩

theorem trans {s t u : Session} (first : Grows s t) (second : Grows t u) : Grows s u :=
  ⟨first.keeps.trans second.keeps, Nat.le_trans first.dropped second.dropped,
    fun d member => second.derivations d (first.derivations d member),
    fun id live => second.live id (first.live id live)⟩

end Grows

/-- The head's match is there, takes part if the head lets it, and has its derivation if the head
reports one, unless some match was dropped. -/
def Made (setting : Setting) (s : Session) (site : Match) (h : Head) : Prop :=
  0 < s.stats.dropped ∨
    ∃ (id : Nat) (kind : MatchKind),
      s.arena.get? id = some { site with symbol := h.symbol, kind } ∧
      (setting.Passes h → s.Live id) ∧
      (h.callback.id = Builtin.rootRule.id → ⟨h.callback.param, id⟩ ∈ s.derivations)

theorem Made.grows {setting : Setting} {s t : Session} {site : Match} {h : Head}
    (grows : Grows s t) (made : Made setting s site h) : Made setting t site h := by
  rcases made with dropped | ⟨id, kind, found, passes, noted⟩
  · exact .inl (Nat.lt_of_lt_of_le dropped grows.dropped)
  · obtain ⟨kind', found'⟩ := grows.keeps _ _ found
    exact .inr ⟨id, kind', found', fun accepted => grows.live id (passes accepted),
      fun root => grows.derivations _ (noted root)⟩

end Session

/-- From `s` to `t` the chart stays, new matches are such as `P` describes, and only matches from
`base` on are queued. -/
structure Session.Works (setting : Setting) (base : Nat) (P : Match → Prop) (s t : Session) :
    Prop extends Grows s t where
  chart : t.chart = s.chart
  phase : t.phase = s.phase
  new : ∀ (id : Nat) m, s.arena.size ≤ id → t.arena.get? id = some m → ∃ kind, P { m with kind }
  pending : ∀ id ∈ s.pending, id ∈ t.pending
  queued : ∀ id ∈ t.pending, id ∈ s.pending ∨ base ≤ id ∧ id < t.arena.size
  full : setting.Accepting → ∀ id, s.arena.size ≤ id → id < t.arena.size → id ∈ t.pending

namespace Session.Works

variable {setting : Setting} {base : Nat} {P : Match → Prop} {s t u : Session}

theorem refl (s : Session) : Works setting base P s s where
  toGrows := .refl s
  chart := rfl
  phase := rfl
  new id m old found := absurd (Arena.lt_size_of_get? found) (by omega)
  pending _ := id
  queued _ := .inl
  full _ id old new := absurd new (by omega)

theorem trans (first : Works setting base P s t) (second : Works setting base P t u) :
    Works setting base P s u where
  toGrows := first.toGrows.trans second.toGrows
  chart := second.chart.trans first.chart
  phase := second.phase.trans first.phase
  new id m old found := by
    by_cases later : t.arena.size ≤ id
    · exact second.new id m later found
    · obtain ⟨n, found'⟩ := Arena.get?_of_lt_size (Nat.lt_of_not_le later)
      obtain ⟨kind, holds⟩ := first.new id n old found'
      obtain ⟨_, kept⟩ := second.keeps id n found'
      obtain rfl := Option.some.inj (found.symm.trans kept)
      exact ⟨kind, holds⟩
  pending id member := second.pending id (first.pending id member)
  queued id member := by
    rcases second.queued id member with member | new
    · refine (first.queued id member).imp_right fun ⟨from_, inside⟩ => ⟨from_, ?_⟩
      exact Nat.lt_of_lt_of_le inside second.keeps.size_le
    · exact .inr new
  full accepting id old new := by
    by_cases later : t.arena.size ≤ id
    · exact second.full accepting id later new
    · exact second.pending id (first.full accepting id old (Nat.lt_of_not_le later))

theorem size_le (works : Works setting base P s t) : s.arena.size ≤ t.arena.size :=
  works.keeps.size_le

/-- One step after another. What a step gets done stays done. -/
theorem foldl {step : Session → α → Session} {C : α → Session → Prop}
    (stays : ∀ a t u, Grows t u → C a t → C a u) {items : List α} {s : Session}
    (each : ∀ a ∈ items, ∀ t, Works setting base P s t →
      Works setting base P t (step t a) ∧ C a (step t a)) :
    Works setting base P s (items.foldl step s) ∧ ∀ a ∈ items, C a (items.foldl step s) := by
  suffices h : ∀ t, Works setting base P s t →
      Works setting base P t (items.foldl step t) ∧ ∀ a ∈ items, C a (items.foldl step t) from
    h s (.refl s)
  induction items with
  | nil => exact fun t _ => ⟨.refl t, by simp⟩
  | cons a rest ih =>
    intro t before
    obtain ⟨first, done⟩ := each a List.mem_cons_self t before
    obtain ⟨later, others⟩ := ih (fun b member => each b (List.mem_cons_of_mem _ member))
      (step t a) (before.trans first)
    refine ⟨first.trans later, fun b member => ?_⟩
    rcases List.mem_cons.mp member with rfl | member
    · exact stays b _ _ later.toGrows done
    · exact others b member

end Session.Works

namespace Session

variable {setting : Setting} {base : Nat} {P : Match → Prop}

theorem mem_derivations_fire (s : Session) (id : MatchId) {callback : Callback}
    (root : callback.id = Builtin.rootRule.id) :
    ⟨callback.param, id⟩ ∈ (s.fire .collector id callback).derivations := by
  have loud : callback.isSilent = false := by
    simp [Callback.isSilent, root, Builtin.id]
  simp [fire, loud, Handler.collector, collect, root]

theorem mem_pending_fire (s : Session) (id : MatchId) {callback : Callback}
    (accepting : Builtin.ofId? callback.id = some .setType ∨
      Builtin.ofId? callback.id = some .assertion ∨ Builtin.ofId? callback.id = some .mapping) :
    id ∈ (s.fire .collector id callback).pending := by
  have loud : callback.isSilent = false := by
    by_contra silent
    simp only [Callback.isSilent, Bool.not_eq_false, beq_iff_eq] at silent
    simp [silent, Builtin.ofId?] at accepting
  have other : ¬ callback.id = Builtin.rootRule.id := by
    intro root
    simp [root, Builtin.ofId?, Builtin.id] at accepting
  rcases accepting with h | h | h <;>
    simp [fire, loud, Handler.collector, collect, other, applyBuiltin, h, accept, enqueue]

theorem mem_pending_of_mem {s : Session} {id : MatchId} {callback : Callback} {other : MatchId}
    (member : other ∈ s.pending) : other ∈ (s.fire .collector id callback).pending := by
  rcases (fire_answers s id callback).pending with same | queued
  · rwa [same]
  · rw [queued]
    exact List.mem_cons_of_mem _ member

theorem fire_grows_from (s : Session) (id : MatchId) (callback : Callback) :
    Grows s (s.fire .collector id callback) := by
  have answers := fire_answers s id callback
  refine ⟨answers.keeps, Nat.le_of_eq answers.dropped.symm, fun d member => ?_, fun other live =>
    live.mono answers.chart fun _ => mem_pending_of_mem⟩
  rcases answers.derivations with same | ⟨_, pushed⟩
  · rw [same]
    exact member
  · rw [pushed, Array.mem_push]
    exact .inl member

theorem pending_fire {s : Session} {id : MatchId} {callback : Callback} {other : MatchId}
    (member : other ∈ (s.fire .collector id callback).pending) :
    other ∈ s.pending ∨ other = id := by
  rcases (fire_answers s id callback).pending with same | queued
  · exact .inl (same ▸ member)
  · rw [queued] at member
    exact (List.mem_cons.mp member).symm

/-- Firing a callback of a match that is there already. -/
theorem works_fire (s : Session) {id : Nat} (callback : Callback) (from_ : base ≤ id)
    (inside : id < s.arena.size) :
    Works setting base P s (s.fire .collector id callback) := by
  have answers := fire_answers s id callback
  refine
    { toGrows := fire_grows_from s id callback
      chart := answers.chart
      phase := answers.phase
      new := fun other m old found => ?new
      pending := fun other member => mem_pending_of_mem member
      queued := fun other member => ?queued
      full := fun _ other old new => ?full }
  case new =>
    have bound := Arena.lt_size_of_get? found
    rw [answers.size] at bound
    omega
  case queued =>
    rcases pending_fire member with old | rfl
    · exact .inl old
    · exact .inr ⟨from_, answers.size ▸ inside⟩
  case full =>
    rw [answers.size] at new
    omega

theorem works_dropped (s : Session) :
    Works setting base P s
      { s with stats := { s.stats with dropped := s.stats.dropped + 1 } } :=
  ⟨⟨.refl _, by simp, fun _ => id, fun _ => id⟩, rfl, rfl,
    fun id m old found => absurd (Arena.lt_size_of_get? found) (by simpa using old),
    fun _ => id, fun _ => .inl, fun _ id old new => absurd new (by simpa using old)⟩

/-- A session like `s` with one match more, which has had its callback fired. -/
def withFired (s : Session) (m : Match) (callback : Callback) : Session :=
  fire .collector
    { s with
      arena := s.arena.push m
      stats := { s.stats with allocated := s.stats.allocated + 1 } }
    s.arena.size callback

theorem grows_withFired (s : Session) (m : Match) (callback : Callback) :
    Grows s (s.withFired m callback) := by
  have pushed : Grows s
      { s with
        arena := s.arena.push m
        stats := { s.stats with allocated := s.stats.allocated + 1 } } :=
    ⟨.push s.arena m, Nat.le_refl _, fun _ => id, fun _ => id⟩
  exact pushed.trans (fire_grows_from _ _ _)

theorem size_withFired (s : Session) (m : Match) (callback : Callback) :
    (s.withFired m callback).arena.size = s.arena.size + 1 := by
  rw [withFired, (fire_answers _ _ _).size, Arena.size_push]

/-- The new match is found under the next id. -/
theorem get?_withFired (s : Session) (m : Match) (callback : Callback) :
    ∃ kind, (s.withFired m callback).arena.get? s.arena.size = some { m with kind } := by
  refine (fire_answers _ _ _).keeps s.arena.size m ?_
  rw [Arena.get?_push, if_pos rfl]

theorem made_withFired {s t : Session} {site : Match} {h : Head}
    (grows : Grows (s.withFired { site with symbol := h.symbol } h.callback) t)
    (passes : setting.Passes h → t.Live s.arena.size) : Made setting t site h := by
  obtain ⟨kind, found⟩ := get?_withFired s { site with symbol := h.symbol } h.callback
  obtain ⟨kind', found'⟩ := grows.keeps _ _ found
  exact .inr ⟨s.arena.size, kind', found', passes, fun root =>
    grows.derivations _ (mem_derivations_fire _ _ root)⟩

theorem grows_enqueue (s : Session) (id : MatchId) : Grows s (s.enqueue id) :=
  ⟨.refl _, Nat.le_refl _, fun _ member => member, fun _ live =>
    live.mono rfl fun _ => List.mem_cons_of_mem _⟩

/-- Adding a match, with its callback fired and perhaps once more in the queue. -/
theorem works_withFired (s : Session) {m : Match} {callback : Callback} (from_ : base ≤ s.arena.size)
    (holds : P m) {t : Session} (arena : t.arena = (s.withFired m callback).arena)
    (chart : t.chart = s.chart) (phase : t.phase = s.phase)
    (dropped : t.stats.dropped = (s.withFired m callback).stats.dropped)
    (derivations : t.derivations = (s.withFired m callback).derivations)
    (pending : ∀ id ∈ (s.withFired m callback).pending, id ∈ t.pending)
    (queued : ∀ id ∈ t.pending, id ∈ (s.withFired m callback).pending ∨ id = s.arena.size)
    (full : setting.Accepting → s.arena.size ∈ t.pending) : Works setting base P s t := by
  have grows := grows_withFired s m callback
  have size := size_withFired s m callback
  have stays (id : MatchId) (member : id ∈ s.pending) : id ∈ t.pending :=
    pending id (mem_pending_of_mem member)
  refine ⟨⟨arena ▸ grows.keeps, dropped ▸ grows.dropped, derivations ▸ grows.derivations,
    fun id live => live.mono chart stays⟩, chart, phase, ?_, stays, ?_, ?_⟩
  · intro id n old found
    rw [arena] at found
    have bound := Arena.lt_size_of_get? found
    obtain rfl : id = s.arena.size := by omega
    obtain ⟨kind, kept⟩ := get?_withFired s m callback
    obtain rfl := Option.some.inj (found.symm.trans kept)
    exact ⟨m.kind, holds⟩
  · intro id member
    have last (h : id = s.arena.size) :
        id ∈ s.pending ∨ base ≤ id ∧ id < t.arena.size := by
      rw [arena, size]
      exact .inr ⟨h ▸ from_, h ▸ Nat.lt_succ_self _⟩
    rcases queued id member with member | rfl
    · rcases pending_fire member with old | new
      · exact .inl old
      · exact last new
    · exact last rfl
  · intro accepting id old new
    rw [arena] at new
    obtain rfl : id = s.arena.size := by omega
    exact full accepting

/-- The match that the next head may share is one of `site`'s, made since `base` and queued. -/
def Shares (base : Nat) (site : Match) (shared : Option (MatchId × Symbol)) (s : Session) : Prop :=
  ∀ (id : Nat) symbol, shared = some (id, symbol) →
    base ≤ id ∧ id ∈ s.pending ∧ ∃ kind, s.arena.get? id = some { site with symbol, kind }

theorem Shares.none (base : Nat) (site : Match) (s : Session) : Shares base site none s := by
  rintro _ _ ⟨⟩

theorem Shares.works {site : Match} {shared : Option (MatchId × Symbol)} {s t : Session}
    (works : Works setting base P s t) (shares : Shares base site shared s) :
    Shares base site shared t := by
  intro id symbol h
  obtain ⟨from_, queued, kind, found⟩ := shares id symbol h
  obtain ⟨kind', found'⟩ := works.keeps _ _ found
  exact ⟨from_, works.pending id queued, kind', found'⟩

/-- One head of a set. -/
theorem execute_cons {site : Match} {gap : Option Nat} {head : Head} {rest : List Head}
    (own : setting.HasHead head) (holds : P { site with symbol := head.symbol })
    {shared : Option (MatchId × Symbol)} {s : Session} (from_ : base ≤ s.arena.size)
    (shares : Shares base site shared s) :
    ∃ t next, execute setting .collector site gap shared s (head :: rest) =
        execute setting .collector site gap next t rest ∧
      Works setting base P s t ∧ (allows head gap = true → Made setting t site head) ∧
      Shares base site next t := by
  rw [execute]
  by_cases allowed : allows head gap = true
  · simp only [allowed, Bool.not_true, Bool.false_eq_true, ↓reduceIte]
    split
    · next id symbol found =>
      obtain ⟨isShared, fits⟩ := Option.filter_eq_some_iff.mp found
      obtain ⟨below, queued, kind, there⟩ := shares id symbol isShared
      have eq : symbol = head.symbol := by
        simp only [Bool.and_eq_true, beq_iff_eq] at fits
        exact fits.1
      subst eq
      have works : Works setting base P s (s.fire .collector id head.callback) :=
        works_fire s head.callback below (Arena.lt_size_of_get? there)
      refine ⟨_, _, rfl, works, fun _ => ?_, isShared ▸ shares.works works⟩
      obtain ⟨kind', there'⟩ := works.keeps _ _ there
      exact .inr ⟨id, kind', there', fun _ => .inl (works.pending id queued),
        mem_derivations_fire _ _⟩
    · rcases allocate_cases s setting.capacity { site with symbol := head.symbol } with
        ⟨room, made⟩ | ⟨full, dropped⟩
      · rw [made]
        dsimp only
        split
        · next isFilter =>
          simp only [Bool.and_eq_true, Bool.not_eq_true'] at isFilter
          have queued (passes : setting.Passes head) : s.arena.size ∈
              (s.withFired { site with symbol := head.symbol } head.callback).pending :=
            mem_pending_fire _ _ (passes isFilter.1 isFilter.2)
          refine ⟨_, _, rfl, works_withFired s from_ holds rfl ?_ ?_ rfl rfl (fun _ => id)
            (fun _ => .inl) fun accepting => queued (accepting head own),
            fun _ => made_withFired (.refl _) fun passes => .inl (queued passes), .none _ _ _⟩
          · exact (fire_answers _ _ _).chart
          · exact (fire_answers _ _ _).phase
        · have works : Works setting base P s
              ((s.withFired { site with symbol := head.symbol } head.callback).enqueue
                s.arena.size) := by
            refine works_withFired s from_ holds rfl ?_ ?_ rfl rfl ?_ ?_ ?_
            · exact (fire_answers _ _ _).chart
            · exact (fire_answers _ _ _).phase
            · exact fun id member => List.mem_cons_of_mem _ member
            · exact fun id member => (List.mem_cons.mp member).symm
            · exact fun _ => List.mem_cons_self
          refine ⟨_, _, rfl, works, fun _ => ?_, ?_⟩
          · exact made_withFired (grows_enqueue _ _) fun _ => .inl List.mem_cons_self
          · rintro _ _ ⟨⟩
            exact ⟨from_, List.mem_cons_self,
              get?_withFired s { site with symbol := head.symbol } head.callback⟩
      · rw [dropped]
        exact ⟨_, _, rfl, works_dropped s, fun _ => .inl (by simp), .none _ _ _⟩
  · refine ⟨s, shared, ?_, .refl s, fun h => absurd h allowed, shares⟩
    simp [allowed]

theorem execute_works {site : Match} {gap : Option Nat} {heads : List Head}
    (own : ∀ h ∈ heads, setting.HasHead h)
    (holds : ∀ h ∈ heads, P { site with symbol := h.symbol })
    {shared : Option (MatchId × Symbol)} {s : Session} (from_ : base ≤ s.arena.size)
    (shares : Shares base site shared s) :
    Works setting base P s (execute setting .collector site gap shared s heads) ∧
      ∀ h ∈ heads, allows h gap = true →
        Made setting (execute setting .collector site gap shared s heads) site h := by
  induction heads generalizing shared s with
  | nil => exact ⟨.refl s, by simp⟩
  | cons head rest ih =>
    obtain ⟨t, next, eq, first, made, shares'⟩ :=
      execute_cons (own head List.mem_cons_self)
        (holds head List.mem_cons_self) from_ shares
    obtain ⟨later, others⟩ := ih (fun h member => own h (List.mem_cons_of_mem _ member))
      (fun h member => holds h (List.mem_cons_of_mem _ member))
      (Nat.le_trans from_ first.size_le) shares'
    rw [eq]
    refine ⟨first.trans later, fun h member allowed => ?_⟩
    rcases List.mem_cons.mp member with rfl | member
    · exact (made allowed).grows later.toGrows
    · exact others h member allowed

/-- The heads of a set, if there is one, are all made. -/
theorem executeSet_works {site : Match} {gap : Option Nat} {set : Option Nat} {s : Session}
    (own : ∀ i, set = some i → ∀ h ∈ setting.rules.heads i, setting.HasHead h)
    (holds : ∀ symbol, P { site with symbol }) (from_ : base ≤ s.arena.size) :
    Works setting base P s (executeSet setting .collector site gap s set) ∧
      ∀ i, set = some i → ∀ h ∈ setting.rules.heads i, allows h gap = true →
        Made setting (executeSet setting .collector site gap s set) site h := by
  cases set with
  | none => exact ⟨.refl s, by simp⟩
  | some i =>
    obtain ⟨works, made⟩ : Works setting base P s
          (execute setting .collector site gap none s (setting.rules.heads i)) ∧
        ∀ h ∈ setting.rules.heads i, allows h gap = true →
          Made setting (execute setting .collector site gap none s (setting.rules.heads i)) site h :=
      execute_works (own i rfl) (fun h _ => holds h.symbol) from_ (.none _ _ _)
    refine ⟨works, ?_⟩
    rintro _ ⟨⟩
    exact made

theorem combine_works {shard : Nat} {id left : MatchId} {m l : Match} {s : Session}
    (active : shard ∈ setting.shards) (found : s.arena.get? left = some l)
    (holds : ∀ symbol, P { Task.siteOfPair left l id m with symbol })
    (from_ : base ≤ s.arena.size) :
    Works setting base P s (combine setting .collector shard id m s left) ∧
      ∀ i, setting.rules.findBinary shard l.symbol m.symbol = some i →
        ∀ h ∈ setting.rules.heads i, allows h (some m.gap) = true →
          Made setting (combine setting .collector shard id m s left)
            (Task.siteOfPair left l id m) h := by
  simp only [combine, found]
  refine executeSet_works (fun i isSet h member => ?_) holds from_
  exact .inr (.inr ⟨_, _, shard, active, i, member, isSet⟩)

/-- Everything that a match completes within one shard, with the matches `Left` to its left. -/
def MadeIn (setting : Setting) (id : MatchId) (m : Match) (Left : MatchId → Match → Prop)
    (shard : Nat) (t : Session) : Prop :=
  (∀ i, setting.rules.findUnary shard m.symbol = some i → ∀ h ∈ setting.rules.heads i,
    Made setting t (Task.siteOfOne id m) h) ∧
  ∀ left l, Left left l → ∀ i, setting.rules.findBinary shard l.symbol m.symbol = some i →
    ∀ h ∈ setting.rules.heads i, allows h (some m.gap) = true →
      Made setting t (Task.siteOfPair left l id m) h

theorem MadeIn.grows {id : MatchId} {m : Match} {Left : MatchId → Match → Prop} {shard : Nat}
    {t u : Session} (grows : Grows t u) (made : MadeIn setting id m Left shard t) :
    MadeIn setting id m Left shard u :=
  ⟨fun i isSet h member => (made.1 i isSet h member).grows grows,
    fun left l isLeft i isSet h member allowed =>
      (made.2 left l isLeft i isSet h member allowed).grows grows⟩

theorem combineAll_works {shard : Nat} {id : MatchId} {m : Match} {ids : List MatchId}
    {s : Session} (active : shard ∈ setting.shards) (there : ∀ left ∈ ids, ∃ l, s.arena.get? left = some l)
    (two : ∀ left ∈ ids, ∀ l, s.arena.get? left = some l →
      ∀ symbol, P { Task.siteOfPair left l id m with symbol })
    (from_ : base ≤ s.arena.size) :
    Works setting base P s (ids.foldl (combine setting .collector shard id m) s) ∧
      ∀ left ∈ ids, ∀ l, s.arena.get? left = some l →
        ∀ i, setting.rules.findBinary shard l.symbol m.symbol = some i →
          ∀ h ∈ setting.rules.heads i, allows h (some m.gap) = true →
            Made setting (ids.foldl (combine setting .collector shard id m) s)
              (Task.siteOfPair left l id m) h := by
  refine Works.foldl
    (C := fun left t => ∀ l, s.arena.get? left = some l →
      ∀ i, setting.rules.findBinary shard l.symbol m.symbol = some i →
        ∀ h ∈ setting.rules.heads i, allows h (some m.gap) = true →
          Made setting t (Task.siteOfPair left l id m) h)
    (fun left t u grows made l found i isSet h member allowed =>
      (made l found i isSet h member allowed).grows grows) ?_
  intro left member t works
  obtain ⟨l, found⟩ := there left member
  obtain ⟨kind, found'⟩ := works.keeps _ _ found
  obtain ⟨works', made⟩ : Works setting base P t (combine setting .collector shard id m t left) ∧ _ :=
    combine_works active found' (two left member l found) (Nat.le_trans from_ works.size_le)
  refine ⟨works', fun other same => ?_⟩
  obtain rfl := Option.some.inj (found.symm.trans same)
  exact made

theorem propagateIn_eq (id : MatchId) (m : Match) (s : Session) (shard : Nat) :
    propagateIn setting .collector id m s shard =
      let t := executeSet setting .collector (Task.siteOfOne id m) none s
        (setting.rules.findUnary shard m.symbol)
      ((t.chart.endingAt m.offset).filter (· != id)).foldl
        (combine setting .collector shard id m) t :=
  rfl

theorem propagateIn_works {id : MatchId} {m : Match} {shard : Nat} {s : Session}
    (active : shard ∈ setting.shards)
    (there : ∀ left ∈ s.chart.endingAt m.offset, ∃ l, s.arena.get? left = some l)
    (one : ∀ symbol, P { Task.siteOfOne id m with symbol })
    (two : ∀ left ∈ s.chart.endingAt m.offset, ∀ l, s.arena.get? left = some l →
      ∀ symbol, P { Task.siteOfPair left l id m with symbol })
    (from_ : base ≤ s.arena.size) {Left : MatchId → Match → Prop}
    (isLeft : ∀ left l, Left left l → left ∈ s.chart.endingAt m.offset ∧ left ≠ id ∧
      ∃ kind, s.arena.get? left = some { l with kind }) :
    Works setting base P s (propagateIn setting .collector id m s shard) ∧
      MadeIn setting id m Left shard (propagateIn setting .collector id m s shard) := by
  have unary : Works setting base P s (executeSet setting .collector (Task.siteOfOne id m) none s
      (setting.rules.findUnary shard m.symbol)) ∧ _ :=
    executeSet_works
      (fun i isSet h member => .inr (.inl ⟨m.symbol, shard, active, i, member, isSet⟩)) one from_
  rw [propagateIn_eq]
  revert unary
  generalize executeSet setting .collector (Task.siteOfOne id m) none s _ = t
  rintro ⟨first, unary⟩
  have inChart {left : MatchId} (member : left ∈ (t.chart.endingAt m.offset).filter (· != id)) :
      left ∈ s.chart.endingAt m.offset := by
    rw [← first.chart]
    exact (List.mem_filter.mp member).1
  obtain ⟨later, binary⟩ : Works setting base P t
      (((t.chart.endingAt m.offset).filter (· != id)).foldl
        (combine setting .collector shard id m) t) ∧ _ := by
    refine combineAll_works active ?_ ?_ (Nat.le_trans from_ first.size_le)
    · intro left member
      obtain ⟨l, found⟩ := there left (inChart member)
      obtain ⟨kind, found'⟩ := first.keeps _ _ found
      exact ⟨_, found'⟩
    · intro left member l found'
      obtain ⟨n, found⟩ := there left (inChart member)
      obtain ⟨kind, kept⟩ := first.keeps _ _ found
      obtain rfl := Option.some.inj (found'.symm.trans kept)
      exact two left (inChart member) n found
  refine ⟨first.trans later, fun i isSet h member => ?_, fun left l related => ?_⟩
  · exact (unary i isSet h member rfl).grows later.toGrows
  · obtain ⟨inChart, ne, kind, found⟩ := isLeft left l related
    obtain ⟨kind', found'⟩ := first.keeps _ _ found
    have isLeft : left ∈ (t.chart.endingAt m.offset).filter (· != id) :=
      List.mem_filter.mpr ⟨first.chart ▸ inChart, by simpa using ne⟩
    exact fun i isSet h => binary left isLeft _ found' i isSet h

/-- Everything that a match completes in all active shards. -/
theorem propagate_works {id : MatchId} {m : Match} {s : Session}
    (found : s.arena.get? id = some m)
    (there : ∀ left ∈ (s.chart.insert m.span.stop id).endingAt m.offset,
      ∃ l, s.arena.get? left = some l)
    (one : ∀ symbol, P { Task.siteOfOne id m with symbol })
    (two : ∀ left ∈ (s.chart.insert m.span.stop id).endingAt m.offset, ∀ l,
      s.arena.get? left = some l → ∀ symbol, P { Task.siteOfPair left l id m with symbol })
    (from_ : base ≤ s.arena.size) {Left : MatchId → Match → Prop}
    (isLeft : ∀ left l, Left left l →
      left ∈ (s.chart.insert m.span.stop id).endingAt m.offset ∧ left ≠ id ∧
      ∃ kind, s.arena.get? left = some { l with kind }) :
    Works setting base P { s with chart := s.chart.insert m.span.stop id }
        (propagate setting .collector s id) ∧
      ∀ shard ∈ setting.shards,
        MadeIn setting id m Left shard (propagate setting .collector s id) := by
  simp only [propagate, found]
  refine Works.foldl (C := MadeIn setting id m Left) (fun shard t u grows => MadeIn.grows grows) ?_
  intro shard active t works
  have keeps := works.keeps
  refine propagateIn_works active ?_ one ?_ (Nat.le_trans from_ works.size_le) ?_
  · intro left member
    rw [works.chart] at member
    obtain ⟨l, found⟩ := there left member
    obtain ⟨kind, found'⟩ := keeps _ _ found
    exact ⟨_, found'⟩
  · intro left member l found'
    rw [works.chart] at member
    obtain ⟨n, found⟩ := there left member
    obtain ⟨kind, kept⟩ := keeps _ _ found
    obtain rfl := Option.some.inj (found'.symm.trans kept)
    exact two left member n found
  · intro left l related
    obtain ⟨inChart, ne, kind, found⟩ := isLeft left l related
    obtain ⟨kind', found'⟩ := keeps _ _ found
    exact ⟨works.chart ▸ inChart, ne, kind', found'⟩

/-- Every literal of an active shard that reads the text is made. -/
theorem literals_works {site : Match} {text : String} {s : Session}
    (holds : ∀ symbol, P { site with symbol }) (from_ : base ≤ s.arena.size) :
    Works setting base P s (setting.shards.foldl
        (matchLiteral setting .collector site text (Lowercase.text text)) s) ∧
      ∀ h, setting.HeadOfText text h → Made setting (setting.shards.foldl
        (matchLiteral setting .collector site text (Lowercase.text text)) s) site h := by
  obtain ⟨works, made⟩ : Works setting base P s (setting.shards.foldl
      (matchLiteral setting .collector site text (Lowercase.text text)) s) ∧ _ := by
    refine Works.foldl
      (C := fun shard t => ∀ i, (setting.rules.findTerminal shard text true = some i ∨
          setting.rules.findTerminal shard (Lowercase.text text) false = some i) →
        ∀ h ∈ setting.rules.heads i, Made setting t site h)
      (fun shard t u grows made i isSet h member => (made i isSet h member).grows grows) ?_
    intro shard active t works
    obtain ⟨first, exact_⟩ : Works setting base P t (executeSet setting .collector site none t
        (setting.rules.findTerminal shard text true)) ∧ _ :=
      executeSet_works
        (fun i isSet h member => .inl ⟨text, shard, active, i, member, .inl isSet⟩) holds
        (Nat.le_trans from_ works.size_le)
    obtain ⟨second, folded⟩ : Works setting base P _
        (matchLiteral setting .collector site text (Lowercase.text text) t shard) ∧ _ :=
      executeSet_works
        (fun i isSet h member => .inl ⟨text, shard, active, i, member, .inr isSet⟩) holds
        (Nat.le_trans from_ (works.trans first).size_le)
    refine ⟨first.trans second, fun i isSet h member => ?_⟩
    rcases isSet with isSet | isSet
    · exact (exact_ i isSet h member rfl).grows second.toGrows
    · exact folded i isSet h member rfl
  refine ⟨works, ?_⟩
  rintro h ⟨shard, active, i, member, isSet⟩
  exact made shard active i isSet h member

end Session

end Phrasebook
