import Mathlib
import Phrasebook.Pass
import Phrasebook.Proofs.Session.Soundness
import Phrasebook.Session.Policy

/-!
Callbacks that use the matcher. A handler may answer with any operations of the matcher, and these
may fire callbacks in turn. While matches are being propagated such an answer only makes matches and
queues them; whoever began to propagate goes on with the queue. Callbacks are fired then, with one
exception: the literals of a piece that is handed in from outside are tried before the propagation
begins. After each call from outside nothing is under way and nothing is queued.
-/

namespace Phrasebook

open Session

/-- Operations of the matcher lead from one session to the other. The callbacks that they fire are
answered by handlers in `S`. -/
inductive Session.Operated (setting : Setting) (S : Handler → Prop) : Session → Session → Prop
  | done (s : Session) : Operated setting S s s
  | enqueue {s t : Session} (id : MatchId) (rest : Operated setting S (s.enqueue id) t) :
      Operated setting S s t
  | setKind {s t : Session} (id : MatchId) (kind : MatchKind)
      (rest : Operated setting S (s.setKind id kind) t) : Operated setting S s t
  | allocate {s t : Session} (m : Match)
      (rest : Operated setting S (s.allocate setting.capacity m).1 t) : Operated setting S s t
  | addMatch {s t : Session} {handler : Handler} (answers : S handler) (id : MatchId)
      (rest : Operated setting S (addMatch setting handler s id) t) : Operated setting S s t
  | addTerminal {s t : Session} {handler : Handler} (answers : S handler) (span : Span)
      (offset : Nat) (text : String)
      (rest : Operated setting S (addTerminal setting handler s span offset text) t) :
      Operated setting S s t
  | derive {s t : Session} (d : Derivation)
      (rest : Operated setting S { s with derivations := s.derivations.push d } t) :
      Operated setting S s t
  | handled {s t : Session} (answer : Bool)
      (rest : Operated setting S { s with log := s.log.push (.handled answer) } t) :
      Operated setting S s t

/-- The handler answers callbacks by operations of the matcher, and so do the handlers that answer
the callbacks of these. -/
def Handler.Operates (setting : Setting) (handler : Handler) : Prop :=
  ∃ S : Handler → Prop, S handler ∧
    ∀ h, S h → ∀ s id callback, Operated setting S s (h.react s id callback)

/-- A match made from the text itself. -/
def Arena.IsLeaf (a : Arena) (id : MatchId) : Prop := ∃ m, a.get? id = some m ∧ m.children = .none

theorem Arena.IsLeaf.keeps {a b : Arena} {id : MatchId} (keeps : a.Keeps b) (leaf : a.IsLeaf id) :
    b.IsLeaf id := by
  obtain ⟨m, found, none⟩ := leaf
  obtain ⟨kind, found'⟩ := keeps id m found
  exact ⟨_, found', none⟩

namespace Session

/-- From `s` to `t` callbacks are fired while matches are propagated, or on leaves if `literals`
says so. -/
structure Proceeds (literals : Prop) (s t : Session) : Prop where
  phase : t.phase = s.phase
  keeps : s.arena.Keeps t.arena
  log : ∃ events, t.log = s.log ++ events ∧ ∀ callback id phase,
    .fired callback id phase ∈ events → phase = .processing ∨ literals ∧ t.arena.IsLeaf id

/-- What an answer to a callback does. While matches are propagated it only adds to the queue. -/
structure Continues (s t : Session) : Prop extends Proceeds (s.phase = .idle) s t where
  queue : s.phase = .processing → t.chart = s.chart ∧ s.pending <:+ t.pending

section
variable {literals : Prop} {s t u : Session}

theorem Proceeds.of_silent (phase : t.phase = s.phase) (keeps : s.arena.Keeps t.arena)
    (log : t.log = s.log) : Proceeds literals s t :=
  ⟨phase, keeps, #[], by simp [log], by simp⟩

theorem Proceeds.trans (first : Proceeds literals s t) (second : Proceeds literals t u) :
    Proceeds literals s u := by
  obtain ⟨before, isBefore, firedBefore⟩ := first.log
  obtain ⟨after, isAfter, firedAfter⟩ := second.log
  refine ⟨second.phase.trans first.phase, first.keeps.trans second.keeps, before ++ after, ?_, ?_⟩
  · rw [isAfter, isBefore, Array.append_assoc]
  · intro callback id phase member
    rcases Array.mem_append.mp member with old | new
    · exact (firedBefore callback id phase old).imp_right fun ⟨allowed, leaf⟩ =>
        ⟨allowed, leaf.keeps second.keeps⟩
    · exact firedAfter callback id phase new

theorem Proceeds.refl (s : Session) : Proceeds literals s s := .of_silent rfl (.refl _) rfl

/-- What was done before without firing a callback. -/
theorem Proceeds.after (proceeds : Proceeds literals t u) (phase : t.phase = s.phase)
    (keeps : s.arena.Keeps t.arena) (log : t.log = s.log) : Proceeds literals s u :=
  .trans (.of_silent phase keeps log) proceeds

theorem Proceeds.mono {others : Prop} (proceeds : Proceeds literals s t) (le : literals → others) :
    Proceeds others s t := by
  obtain ⟨events, isLog, fired⟩ := proceeds.log
  exact ⟨proceeds.phase, proceeds.keeps, events, isLog, fun callback id phase member =>
    (fired callback id phase member).imp_right (.imp_left le)⟩

/-- The event is one of those between `s` and `t`. -/
def Fires (s t : Session) (event : Event) : Prop :=
  ∃ events, t.log = s.log ++ events ∧ event ∈ events

theorem Fires.later {event : Event} (fires : Fires s t event) (proceeds : Proceeds literals t u) :
    Fires s u event := by
  obtain ⟨before, isBefore, member⟩ := fires
  obtain ⟨after, isAfter, _⟩ := proceeds.log
  exact ⟨before ++ after, by rw [isAfter, isBefore, Array.append_assoc],
    Array.mem_append_left _ member⟩

theorem Fires.earlier {event : Event} (proceeds : Proceeds literals s t) (fires : Fires t u event) :
    Fires s u event := by
  obtain ⟨before, isBefore, _⟩ := proceeds.log
  obtain ⟨after, isAfter, member⟩ := fires
  exact ⟨before ++ after, by rw [isAfter, isBefore, Array.append_assoc],
    Array.mem_append_right _ member⟩

theorem Continues.of_silent (phase : t.phase = s.phase) (keeps : s.arena.Keeps t.arena)
    (log : t.log = s.log) (chart : t.chart = s.chart) (pending : s.pending <:+ t.pending) :
    Continues s t :=
  ⟨.of_silent phase keeps log, fun _ => ⟨chart, pending⟩⟩

theorem Continues.refl (s : Session) : Continues s s :=
  .of_silent rfl (.refl _) rfl rfl (List.suffix_refl _)

theorem Continues.trans (first : Continues s t) (second : Continues t u) : Continues s u := by
  have same := first.phase
  refine ⟨first.toProceeds.trans (second.toProceeds.mono fun idle => same ▸ idle), fun processing => ?_⟩
  obtain ⟨chart, pending⟩ := first.queue processing
  obtain ⟨chart', pending'⟩ := second.queue (same.trans processing)
  exact ⟨chart'.trans chart, pending.trans pending'⟩

theorem Continues.enqueue (s : Session) (id : MatchId) : Continues s (s.enqueue id) :=
  .of_silent rfl (.refl _) rfl rfl (List.suffix_cons id s.pending)

theorem Continues.setKind (s : Session) (id : MatchId) (kind : MatchKind) :
    Continues s (s.setKind id kind) :=
  .of_silent rfl (.setKind _ _ _) rfl rfl (List.suffix_refl _)

theorem allocate_proceeds (s : Session) (capacity : Nat) (m : Match) :
    Proceeds literals s (s.allocate capacity m).1 ∧ (s.allocate capacity m).1.chart = s.chart ∧
      (s.allocate capacity m).1.pending = s.pending := by
  rcases allocate_cases s capacity m with ⟨_, made⟩ | ⟨_, dropped⟩
  · rw [made]
    exact ⟨.of_silent rfl (.push _ _) rfl, rfl, rfl⟩
  · rw [dropped]
    exact ⟨.of_silent rfl (.refl _) rfl, rfl, rfl⟩

theorem Continues.allocate (s : Session) (capacity : Nat) (m : Match) :
    Continues s (s.allocate capacity m).1 := by
  obtain ⟨proceeds, chart, pending⟩ := allocate_proceeds s capacity m
  exact ⟨proceeds, fun _ => ⟨chart, pending ▸ List.suffix_refl _⟩⟩

theorem Continues.of_allocate {capacity : Nat} {m : Match} {id : Option MatchId}
    (allocated : s.allocate capacity m = (t, id)) : Continues s t := by
  have continues := Continues.allocate s capacity m
  rwa [allocated] at continues

theorem get?_allocate {capacity : Nat} {m : Match} {id : MatchId}
    (made : s.allocate capacity m = (t, some id)) : t.arena.get? id = some m := by
  rcases allocate_cases s capacity m with ⟨_, allocated⟩ | ⟨_, dropped⟩
  · obtain ⟨rfl, isId⟩ := Prod.mk.inj (made.symm.trans allocated)
    obtain rfl := Option.some.inj isId
    rw [Arena.get?_push, if_pos rfl]
  · cases (Prod.mk.inj (made.symm.trans dropped)).2

/-- A callback is noted with the phase in which it is fired. -/
theorem Continues.note {id : MatchId} (leaf : s.phase = .idle → s.arena.IsLeaf id)
    (callback : Callback) : Continues s (s.note id callback) := by
  refine ⟨⟨rfl, .refl _, #[.fired callback id s.phase], by simp [Session.note], ?_⟩,
    fun _ => ⟨rfl, List.suffix_refl _⟩⟩
  intro other x phase member
  obtain ⟨rfl, rfl, rfl⟩ := Event.fired.inj (Array.mem_singleton.mp member)
  cases phase : s.phase with
  | idle => exact .inr ⟨rfl, leaf phase⟩
  | processing => exact .inl rfl

end

end Session

/-- How many more matches fit into the arena. -/
def Setting.room (setting : Setting) (s : Session) : Nat := setting.capacity - s.arena.size

theorem Setting.room_le {setting : Setting} {s t : Session} (keeps : s.arena.Keeps t.arena) :
    setting.room t ≤ setting.room s := by
  have := keeps.size_le
  simp only [room]
  omega

/-- Where there is less room than `bound`, answers of the handler only continue. -/
def Handler.ContinuesBelow (setting : Setting) (bound : Nat) (handler : Handler) : Prop :=
  ∀ s id callback, setting.room s < bound → Continues s (handler.react s id callback)

section
variable {setting : Setting} {handler : Handler} {bound : Nat}

theorem Session.fire_continues (acts : handler.ContinuesBelow setting bound) {s : Session}
    {id : MatchId} (room : setting.room s < bound) (leaf : s.phase = .idle → s.arena.IsLeaf id)
    (callback : Callback) : Continues s (s.fire handler id callback) := by
  unfold fire
  split
  · exact .refl s
  · exact (Continues.note leaf callback).trans (acts _ id callback room)

theorem Session.fire_fires (acts : handler.ContinuesBelow setting bound) {s : Session}
    (room : setting.room s < bound) (id : MatchId) {callback : Callback}
    (loud : callback.isSilent = false) :
    Fires s (s.fire handler id callback) (.fired callback id s.phase) := by
  have noted : Fires s (s.note id callback) (.fired callback id s.phase) :=
    ⟨#[.fired callback id s.phase], by simp [note], Array.mem_singleton.mpr rfl⟩
  rw [fire, loud]
  exact noted.later (acts (s.note id callback) id callback room).toProceeds

/-- The match that the next head may share has been made since there was less room than `bound`. In
idle phase it is a leaf. -/
def Session.SharesBelow (setting : Setting) (bound : Nat) (s : Session)
    (shared : Option (MatchId × Symbol)) : Prop :=
  ∀ id symbol, shared = some (id, symbol) →
    setting.room s < bound ∧ (s.phase = .idle → s.arena.IsLeaf id)

/-- One head. Its callback is fired on a match that has just been made, when there is less room than
before. In idle phase only leaves are made. -/
theorem Session.execute_head (acts : handler.ContinuesBelow setting bound) {site : Match}
    {gap : Option Nat} {shared : Option (MatchId × Symbol)} {s : Session}
    (room : setting.room s ≤ bound) (leaf : s.phase = .idle → site.children = .none)
    (shares : s.SharesBelow setting bound shared) (head : Head) (rest : List Head) :
    ∃ shared' t, execute setting handler site gap shared s (head :: rest) =
        execute setting handler site gap shared' t rest ∧
      Continues s t ∧ t.SharesBelow setting bound shared' ∧
      (allows head gap = true → head.callback.isSilent = false →
        s.arena.size < setting.capacity → ∃ id, Fires s t (.fired head.callback id s.phase)) := by
  rw [execute]
  split
  · next refused =>
    refine ⟨shared, s, rfl, .refl s, shares, fun allowed => ?_⟩
    rw [allowed] at refused
    cases refused
  · dsimp only
    split
    · next id symbol found =>
      obtain ⟨small, isLeaf⟩ := shares id symbol (Option.filter_eq_some_iff.mp found).1
      have fired := fire_continues acts small isLeaf head.callback
      refine ⟨_, _, rfl, fired, ?_, fun _ loud _ => ⟨id, fire_fires acts small id loud⟩⟩
      rintro _ _ ⟨⟩
      exact ⟨Nat.lt_of_le_of_lt (Setting.room_le fired.keeps) small,
        fun idle => (isLeaf (fired.phase ▸ idle)).keeps fired.keeps⟩
    · split
      · next t dropped =>
        refine ⟨_, _, rfl, .of_allocate dropped, by simp [SharesBelow], fun _ _ fits => ?_⟩
        rcases allocate_cases s setting.capacity { site with symbol := head.symbol } with
          ⟨_, made⟩ | ⟨full, _⟩
        · cases (Prod.mk.inj (dropped.symm.trans made)).2
        · omega
      · next t id made =>
        have whole := Continues.of_allocate made
        obtain ⟨fits, size⟩ := allocate_some made
        have small : setting.room t < bound := by
          simp only [Setting.room] at room ⊢
          omega
        have isLeaf (idle : t.phase = .idle) : t.arena.IsLeaf id :=
          ⟨_, get?_allocate made, leaf (whole.phase ▸ idle)⟩
        have continues := fire_continues acts small isLeaf head.callback
        have fires (loud : head.callback.isSilent = false) :
            Fires s (t.fire handler id head.callback) (.fired head.callback id s.phase) :=
          .earlier whole.toProceeds (whole.phase ▸ fire_fires acts small id loud)
        split
        · exact ⟨_, _, rfl, whole.trans continues, by simp [SharesBelow],
            fun _ loud _ => ⟨id, fires loud⟩⟩
        · have queued := Continues.enqueue (t.fire handler id head.callback) id
          refine ⟨_, _, rfl, (whole.trans continues).trans queued, ?_, fun _ loud _ =>
            ⟨id, (fires loud).later queued.toProceeds⟩⟩
          rintro _ _ ⟨⟩
          exact ⟨Nat.lt_of_le_of_lt (Setting.room_le continues.keeps) small,
            fun idle => (isLeaf (continues.phase ▸ idle)).keeps continues.keeps⟩

theorem Session.execute_continues (acts : handler.ContinuesBelow setting bound) {site : Match}
    {gap : Option Nat} {heads : List Head} {shared : Option (MatchId × Symbol)} {s : Session}
    (room : setting.room s ≤ bound) (leaf : s.phase = .idle → site.children = .none)
    (shares : s.SharesBelow setting bound shared) :
    Continues s (execute setting handler site gap shared s heads) := by
  induction heads generalizing s shared with
  | nil => exact .refl s
  | cons head rest ih =>
    obtain ⟨shared', t, eq, continues, shares, _⟩ := execute_head acts room leaf shares head rest
    rw [eq]
    exact continues.trans (ih (Nat.le_trans (Setting.room_le continues.keeps) room)
      (fun idle => leaf (continues.phase ▸ idle)) shares)

/-- While there is room, the callback of every head is fired, and in the phase of the moment. -/
theorem Session.execute_fires (acts : handler.ContinuesBelow setting bound) {site : Match}
    {gap : Option Nat} {heads : List Head} {shared : Option (MatchId × Symbol)} {s : Session}
    (room : setting.room s ≤ bound) (leaf : s.phase = .idle → site.children = .none)
    (shares : s.SharesBelow setting bound shared) {head : Head} (member : head ∈ heads)
    (allowed : allows head gap = true) (loud : head.callback.isSilent = false)
    (fits : (execute setting handler site gap shared s heads).arena.size < setting.capacity) :
    ∃ id, Fires s (execute setting handler site gap shared s heads)
      (.fired head.callback id s.phase) := by
  induction heads generalizing s shared with
  | nil => cases member
  | cons first rest ih =>
    obtain ⟨shared', t, eq, continues, shares, fires⟩ := execute_head acts room leaf shares first rest
    rw [eq] at fits ⊢
    have room' := Nat.le_trans (Setting.room_le continues.keeps) room
    have leaf' (idle : t.phase = .idle) : site.children = .none := leaf (continues.phase ▸ idle)
    have others : Continues t (execute setting handler site gap shared' t rest) :=
      execute_continues acts room' leaf' shares
    rcases List.mem_cons.mp member with rfl | member
    · have before : s.arena.size < setting.capacity :=
        Nat.lt_of_le_of_lt (continues.trans others).keeps.size_le fits
      obtain ⟨id, fired⟩ := fires allowed loud before
      exact ⟨id, fired.later others.toProceeds⟩
    · obtain ⟨id, fired⟩ := ih room' leaf' shares member fits
      exact ⟨id, continues.phase ▸ fired.earlier continues.toProceeds⟩

theorem Session.executeSet_continues (acts : handler.ContinuesBelow setting bound) {site : Match}
    {gap : Option Nat} {set : Option Nat} {s : Session} (room : setting.room s ≤ bound)
    (leaf : s.phase = .idle → site.children = .none) :
    Continues s (executeSet setting handler site gap s set) := by
  cases set with
  | none => exact .refl s
  | some set => exact execute_continues acts room leaf (by simp [SharesBelow])

/-- While matches are propagated, what only continues fires nothing in idle phase. -/
theorem Session.Continues.proceeds {s t : Session} (continues : Continues s t)
    (processing : s.phase = .processing) : Proceeds False s t :=
  continues.toProceeds.mono fun idle => by rw [processing] at idle; cases idle

theorem Session.combine_continues (acts : handler.ContinuesBelow setting bound) {shard : Nat}
    {id : MatchId} {m : Match} {s : Session} (room : setting.room s ≤ bound)
    (processing : s.phase = .processing) (left : MatchId) :
    Continues s (combine setting handler shard id m s left) := by
  unfold combine
  split
  · exact .refl s
  · refine executeSet_continues acts room fun idle => ?_
    rw [processing] at idle
    cases idle

/-- A step that continues may be taken as often as there are items. -/
theorem Session.continues_foldl {step : Session → α → Session} {phase : Phase}
    (continues : ∀ s item, setting.room s ≤ bound → s.phase = phase → Continues s (step s item))
    (items : List α) {s : Session} (room : setting.room s ≤ bound) (isPhase : s.phase = phase) :
    Continues s (items.foldl step s) := by
  induction items generalizing s with
  | nil => exact .refl s
  | cons item rest ih =>
    have first := continues s item room isPhase
    exact first.trans (ih (Nat.le_trans (Setting.room_le first.keeps) room)
      (first.phase.trans isPhase))

theorem Session.propagateIn_continues (acts : handler.ContinuesBelow setting bound) (id : MatchId)
    (m : Match) {s : Session} (room : setting.room s ≤ bound) (processing : s.phase = .processing)
    (shard : Nat) : Continues s (propagateIn setting handler id m s shard) := by
  have unary : Continues s (executeSet setting handler
      { symbol := 0, span := m.span, offset := m.offset, children := .one id } none s
      (setting.rules.findUnary shard m.symbol)) := by
    refine executeSet_continues acts room fun idle => ?_
    rw [processing] at idle
    cases idle
  exact unary.trans (continues_foldl
    (fun _ left room processing => combine_continues acts room processing left) _
    (Nat.le_trans (Setting.room_le unary.keeps) room) (unary.phase.trans processing))

theorem Session.propagate_proceeds (acts : handler.ContinuesBelow setting bound) {s : Session}
    (room : setting.room s ≤ bound) (processing : s.phase = .processing) (id : MatchId) :
    Proceeds False s (propagate setting handler s id) := by
  unfold propagate
  split
  · exact .refl s
  · next m _ =>
    have all := continues_foldl
      (fun _ shard room processing => propagateIn_continues acts id m room processing shard)
      setting.shards (s := { s with chart := s.chart.insert m.span.stop id }) room processing
    exact (all.proceeds processing).after rfl (.refl _) rfl

/-- Draining fires callbacks while matches are propagated only, and leaves nothing queued. -/
theorem Session.drain_proceeds (acts : handler.ContinuesBelow setting bound) {s : Session}
    (room : setting.room s ≤ bound) (processing : s.phase = .processing) :
    Proceeds False s (drain setting handler s) ∧ (drain setting handler s).pending = [] := by
  fun_induction drain setting handler s with
  | case1 s queue => exact ⟨.refl s, queue⟩
  | case2 s id rest queue ih =>
    have first := (propagate_proceeds acts (s := { s with pending := rest }) room processing id).after
      (s := s) rfl (.refl _) rfl
    obtain ⟨proceeds, empty⟩ := ih (Nat.le_trans (Setting.room_le first.keeps) room)
      (first.phase.trans processing)
    exact ⟨first.trans proceeds, empty⟩

theorem Session.process_proceeds (acts : handler.ContinuesBelow setting bound) {s : Session}
    (room : setting.room s ≤ bound) :
    Proceeds False s (process setting handler s) ∧
      (s.phase = .idle → (process setting handler s).pending = []) := by
  cases phase : s.phase with
  | processing =>
    rw [process, phase]
    exact ⟨.refl s, fun idle => by cases idle⟩
  | idle =>
    rw [process, phase]
    obtain ⟨proceeds, empty⟩ := drain_proceeds acts (s := { s with phase := .processing }) room rfl
    exact ⟨⟨phase.symm, proceeds.keeps, proceeds.log⟩, fun _ => empty⟩

/-- Inside a propagation nothing is drained. -/
theorem Session.process_continues (acts : handler.ContinuesBelow setting bound) {s : Session}
    (room : setting.room s ≤ bound) : Continues s (process setting handler s) := by
  refine ⟨(process_proceeds acts room).1.mono False.elim, fun processing => ?_⟩
  rw [process, processing]
  exact ⟨rfl, List.suffix_refl _⟩

theorem Session.addMatch_continues (acts : handler.ContinuesBelow setting bound) {s : Session}
    (room : setting.room s ≤ bound) (id : MatchId) :
    Continues s (addMatch setting handler s id) :=
  (Continues.enqueue s id).trans (process_continues acts (s := s.enqueue id) room)

theorem Session.matchLiteral_continues (acts : handler.ContinuesBelow setting bound)
    {site : Match} (leaf : site.children = .none) (text folded : String) {s : Session}
    (room : setting.room s ≤ bound) (shard : Nat) :
    Continues s (matchLiteral setting handler site text folded s shard) := by
  have first : Continues s
      (executeSet setting handler site none s (setting.rules.findTerminal shard text true)) :=
    executeSet_continues acts room fun _ => leaf
  exact first.trans (executeSet_continues acts (Nat.le_trans (Setting.room_le first.keeps) room)
    fun _ => leaf)

/-- The literals of a piece, up to where the propagation begins. -/
theorem Session.matchLiterals_continues (acts : handler.ContinuesBelow setting bound)
    {site : Match} (leaf : site.children = .none) (text folded : String) (shards : List Nat)
    {s : Session} (room : setting.room s ≤ bound) :
    Continues s (shards.foldl (matchLiteral setting handler site text folded) s) :=
  continues_foldl (fun _ shard room _ => matchLiteral_continues acts leaf text folded room shard)
    shards room rfl

theorem Session.executeSet_fires (acts : handler.ContinuesBelow setting bound) {site : Match}
    (leaf : site.children = .none) {s : Session} (room : setting.room s ≤ bound) {set : Nat}
    {head : Head} (member : head ∈ setting.rules.heads set) (loud : head.callback.isSilent = false)
    (fits : (executeSet setting handler site none s (some set)).arena.size < setting.capacity) :
    ∃ id, Fires s (executeSet setting handler site none s (some set))
      (.fired head.callback id s.phase) :=
  execute_fires acts room (fun _ => leaf) (by simp [SharesBelow]) member rfl loud fits

/-- While there is room, the callback of every literal that reads a piece is fired before the
propagation begins. -/
theorem Session.matchLiterals_fires (acts : handler.ContinuesBelow setting bound) {site : Match}
    (leaf : site.children = .none) {text folded : String} {head : Head}
    (loud : head.callback.isSilent = false) {shard set : Nat}
    (isSet : setting.rules.findTerminal shard text true = some set ∨
      setting.rules.findTerminal shard folded false = some set)
    (member : head ∈ setting.rules.heads set) {shards : List Nat} (active : shard ∈ shards)
    {s : Session} (room : setting.room s ≤ bound)
    (fits : (shards.foldl (matchLiteral setting handler site text folded) s).arena.size <
      setting.capacity) :
    ∃ id, Fires s (shards.foldl (matchLiteral setting handler site text folded) s)
      (.fired head.callback id s.phase) := by
  induction shards generalizing s with
  | nil => cases active
  | cons first rest ih =>
    have here := matchLiteral_continues acts leaf text folded room first
    have room' := Nat.le_trans (Setting.room_le here.keeps) room
    have others := matchLiterals_continues acts leaf text folded rest room'
    rw [List.foldl_cons] at fits ⊢
    rcases List.mem_cons.mp active with rfl | active
    · have fits' := Nat.lt_of_le_of_lt others.keeps.size_le fits
      have exact : Continues s
          (executeSet setting handler site none s (setting.rules.findTerminal shard text true)) :=
        executeSet_continues acts room fun _ => leaf
      have exactRoom := Nat.le_trans (Setting.room_le exact.keeps) room
      have folds : Continues _ (matchLiteral setting handler site text folded s shard) :=
        executeSet_continues acts exactRoom fun _ => leaf
      simp only [matchLiteral] at folds fits' others ⊢
      rcases isSet with isExact | isFolded
      · rw [isExact] at folds others fits' ⊢
        obtain ⟨id, fired⟩ := executeSet_fires acts leaf room member loud
          (Nat.lt_of_le_of_lt folds.keeps.size_le fits')
        exact ⟨id, (fired.later folds.toProceeds).later others.toProceeds⟩
      · rw [isFolded] at others fits' ⊢
        obtain ⟨id, fired⟩ := executeSet_fires acts leaf exactRoom member loud fits'
        exact ⟨id, exact.phase ▸ (fired.earlier exact.toProceeds).later others.toProceeds⟩
    · obtain ⟨id, fired⟩ := ih active room' fits
      exact ⟨id, here.phase ▸ fired.earlier here.toProceeds⟩

theorem Session.addTerminal_continues (acts : handler.ContinuesBelow setting bound) {s : Session}
    (room : setting.room s ≤ bound) (span : Span) (offset : Nat) (text : String) :
    Continues s (addTerminal setting handler s span offset text) := by
  have counted : Continues s
      { s with stats := { s.stats with terminals := s.stats.terminals + 1 } } :=
    .of_silent rfl (.refl _) rfl rfl (List.suffix_refl _)
  have leaf : (Task.siteOfText span offset).children = .none := rfl
  have literals := counted.trans
    (matchLiterals_continues acts leaf text (Lowercase.text text) setting.shards room)
  exact literals.trans (process_continues acts (Nat.le_trans (Setting.room_le literals.keeps) room))

/-- Operations continue if the handlers of their callbacks do where there is less room. -/
theorem Session.Operated.continues {S : Handler → Prop}
    (acts : ∀ h, S h → h.ContinuesBelow setting bound) {s t : Session}
    (operated : Operated setting S s t) (room : setting.room s ≤ bound) : Continues s t := by
  induction operated with
  | done s => exact .refl s
  | enqueue id _ ih => exact (Continues.enqueue _ id).trans (ih room)
  | @setKind s _ id kind _ ih =>
    have first := Continues.setKind s id kind
    exact first.trans (ih (Nat.le_trans (Setting.room_le first.keeps) room))
  | @allocate s _ m _ ih =>
    have first := Continues.allocate s setting.capacity m
    exact first.trans (ih (Nat.le_trans (Setting.room_le first.keeps) room))
  | addMatch answers id _ ih =>
    have first := addMatch_continues (acts _ answers) room id
    exact first.trans (ih (Nat.le_trans (Setting.room_le first.keeps) room))
  | addTerminal answers span offset text _ ih =>
    have first := addTerminal_continues (acts _ answers) room span offset text
    exact first.trans (ih (Nat.le_trans (Setting.room_le first.keeps) room))
  | @derive s _ d _ ih =>
    have noted : Continues s { s with derivations := s.derivations.push d } :=
      .of_silent rfl (.refl _) rfl rfl (List.suffix_refl _)
    exact noted.trans (ih room)
  | @handled s _ answer _ ih =>
    have noted : Continues s { s with log := s.log.push (.handled answer) } :=
      ⟨⟨rfl, .refl _, #[.handled answer], by simp, by simp⟩, fun _ => ⟨rfl, List.suffix_refl _⟩⟩
    exact noted.trans (ih room)

/-- The answers of a handler that operates the matcher continue. Each of them leaves less room to the
callbacks that it fires. -/
theorem Handler.Operates.continues (operates : handler.Operates setting) (s : Session) (id : MatchId)
    (callback : Callback) : Continues s (handler.react s id callback) := by
  obtain ⟨S, isOne, all⟩ := operates
  have acts (bound : Nat) : ∀ h, S h → h.ContinuesBelow setting bound := by
    induction bound with
    | zero => exact fun _ _ _ _ _ none => absurd none (Nat.not_lt_zero _)
    | succ bound ih =>
      exact fun h answers s id callback room =>
        (all h answers s id callback).continues ih (Nat.le_of_lt_succ room)
  exact acts _ handler isOne s id callback (Nat.lt_succ_self _)

end

section
variable {setting : Setting} {S : Handler → Prop}

theorem Session.Operated.trans {s t u : Session} (first : Operated setting S s t)
    (second : Operated setting S t u) : Operated setting S s u := by
  induction first with
  | done => exact second
  | enqueue id _ ih => exact .enqueue id (ih second)
  | setKind id kind _ ih => exact .setKind id kind (ih second)
  | allocate m _ ih => exact .allocate m (ih second)
  | addMatch answers id _ ih => exact .addMatch answers id (ih second)
  | addTerminal answers span offset text _ ih =>
    exact .addTerminal answers span offset text (ih second)
  | derive d _ ih => exact .derive d (ih second)
  | handled answer _ ih => exact .handled answer (ih second)

theorem Session.operated_addNew {handler : Handler} (answers : S handler) (s : Session) (m : Match) :
    Operated setting S s (addNew setting handler s m) := by
  refine .allocate m ?_
  unfold addNew
  split
  · next allocated =>
    rw [allocated]
    exact .addMatch answers _ (.done _)
  · next allocated =>
    rw [allocated]
    exact .done _

theorem Session.operated_applyBuiltin (s : Session) (id : MatchId) (callback : Callback) :
    Operated setting S s (s.applyBuiltin id callback).1 := by
  have accepts (kind : MatchKind) : Operated setting S s (s.accept id kind) :=
    .setKind id kind (.enqueue id (.done _))
  unfold applyBuiltin
  split
  · exact accepts _
  · exact accepts _
  · exact accepts _
  · unfold exclude
    split
    · exact .done s
    · split
      · exact .done s
      · exact .enqueue id (.done _)
  · exact .done s
  · exact .done s

theorem Session.operated_collect (s : Session) (id : MatchId) (callback : Callback) :
    Operated setting S s (s.collect id callback) := by
  unfold collect
  split
  · exact .derive _ (.done _)
  · exact operated_applyBuiltin s id callback

theorem Session.operated_foldl {step : Session → α → Session}
    (operated : ∀ s item, Operated setting S s (step s item)) (items : List α) (s : Session) :
    Operated setting S s (items.foldl step s) := by
  induction items generalizing s with
  | nil => exact .done s
  | cons item rest ih => exact (operated s item).trans (ih _)

theorem Session.operated_perform {handler : Handler} (answers : S handler) (id : MatchId)
    (s : Session) (reaction : Reaction) :
    Operated setting S s (perform setting handler id s reaction) := by
  unfold perform
  split
  · exact .done s
  · cases reaction with
    | enqueue => exact .enqueue id (.done _)
    | enqueueUpTo length =>
      dsimp only
      split
      · exact .enqueue id (.done _)
      · exact .done s
    | terminal text => exact .addTerminal answers _ _ _ (.done _)
    | derive symbol => exact operated_addNew answers s _
    | setKind kind => exact .setKind id kind (.done _)
    | builtin callback =>
      exact (operated_applyBuiltin s id callback).trans (.handled _ (.done _))

end

namespace Handler

theorem operates_collector (setting : Setting) : collector.Operates setting := by
  refine ⟨(· = collector), rfl, ?_⟩
  rintro _ rfl s id callback
  exact operated_collect s id callback

/-- Whatever the policy, its handler operates the matcher. -/
theorem operates_ofPolicy (setting : Setting) (policy : Policy) :
    (ofPolicy setting policy).Operates setting := by
  refine ⟨fun h => ∃ depth, h = ofPolicyTo setting policy depth, ⟨_, rfl⟩, ?_⟩
  rintro _ ⟨depth, rfl⟩ s id callback
  cases depth with
  | zero => exact operated_collect s id callback
  | succ depth =>
    simp only [ofPolicyTo]
    split
    · exact operated_collect s id callback
    · exact operated_foldl (operated_perform ⟨depth, rfl⟩ id) _ s

end Handler

/-- What a matcher is asked to do from outside, when it is doing nothing else. -/
inductive Call
  | reset
  | allocate (m : Match)
  | addMatch (id : MatchId)
  | addTerminal (span : Span) (offset : Nat) (text : String)
  | read (tokens : List Token) (labels : List Label)

namespace Call

def run (setting : Setting) (handler : Handler) (s : Session) : Call → Session
  | .reset => Session.reset setting handler s
  | .allocate m => (s.allocate setting.capacity m).1
  | .addMatch id => Session.addMatch setting handler s id
  | .addTerminal span offset text => Session.addTerminal setting handler s span offset text
  | .read tokens labels => Session.read setting handler s tokens labels

/-- One call after the other, on a new matcher. -/
def runAll (setting : Setting) (handler : Handler) (calls : List Call) : Session :=
  calls.foldl (run setting handler) {}

/-- The calls that look pieces up among the literals. -/
def readsText : Call → Bool
  | .addTerminal .. | .read .. => true
  | .reset | .allocate _ | .addMatch _ => false

end Call

/-- Nothing is under way, and nothing is queued. -/
structure Session.Rests (s : Session) : Prop where
  idle : s.phase = .idle
  empty : s.pending = []

section
variable {setting : Setting} {handler : Handler} {s : Session}

theorem Session.process_rests (operates : handler.Operates setting) (idle : s.phase = .idle) :
    Proceeds False s (process setting handler s) ∧ (process setting handler s).Rests := by
  have acts : handler.ContinuesBelow setting (setting.room s) :=
    fun s id callback _ => operates.continues s id callback
  obtain ⟨proceeds, empty⟩ := process_proceeds acts (Nat.le_refl _)
  exact ⟨proceeds, proceeds.phase.trans idle, empty idle⟩

theorem Session.addMatch_rests (operates : handler.Operates setting) (idle : s.phase = .idle)
    (id : MatchId) :
    Proceeds False s (addMatch setting handler s id) ∧ (addMatch setting handler s id).Rests := by
  obtain ⟨proceeds, rests⟩ := process_rests operates (s := s.enqueue id) idle
  exact ⟨proceeds.after rfl (.refl _) rfl, rests⟩

theorem Session.addNew_rests (operates : handler.Operates setting) (rests : s.Rests) (m : Match) :
    Proceeds False s (addNew setting handler s m) ∧ (addNew setting handler s m).Rests := by
  unfold addNew
  rcases allocate_cases s setting.capacity m with ⟨_, made⟩ | ⟨_, dropped⟩
  · rw [made]
    obtain ⟨proceeds, after⟩ := addMatch_rests operates (s := { s with
      arena := s.arena.push m
      stats := { s.stats with allocated := s.stats.allocated + 1 } }) rests.idle s.arena.size
    exact ⟨proceeds.after rfl (.push _ _) rfl, after⟩
  · rw [dropped]
    exact ⟨.of_silent rfl (.refl _) rfl, rests.idle, rests.empty⟩

theorem Session.addTerminal_rests (operates : handler.Operates setting) (idle : s.phase = .idle)
    (span : Span) (offset : Nat) (text : String) :
    Proceeds True s (addTerminal setting handler s span offset text) ∧
      (addTerminal setting handler s span offset text).Rests ∧
      ((addTerminal setting handler s span offset text).arena.size < setting.capacity →
        ∀ h, setting.HeadOfText text h → h.callback.isSilent = false →
          ∃ id, Fires s (addTerminal setting handler s span offset text)
            (.fired h.callback id .idle)) := by
  have acts : handler.ContinuesBelow setting (setting.room s) :=
    fun s id callback _ => operates.continues s id callback
  have leaf : (Task.siteOfText span offset).children = .none := rfl
  have literals := matchLiterals_continues acts leaf text (Lowercase.text text) setting.shards
    (s := { s with stats := { s.stats with terminals := s.stats.terminals + 1 } }) (Nat.le_refl _)
  obtain ⟨proceeds, rests⟩ := process_rests operates (literals.phase.trans idle)
  have whole := (literals.toProceeds.mono fun _ => trivial).trans (proceeds.mono False.elim)
  refine ⟨whole.after rfl (.refl _) rfl, rests, fun fits h => ?_⟩
  rintro ⟨shard, active, set, member, isSet⟩ loud
  obtain ⟨id, fired⟩ := matchLiterals_fires acts leaf loud isSet member active
    (s := { s with stats := { s.stats with terminals := s.stats.terminals + 1 } }) (Nat.le_refl _)
    (Nat.lt_of_le_of_lt proceeds.keeps.size_le fits)
  have counted : Proceeds True s
      { s with stats := { s.stats with terminals := s.stats.terminals + 1 } } :=
    .of_silent rfl (.refl _) rfl
  exact ⟨id, idle ▸ (fired.later proceeds).earlier counted⟩

theorem Session.take_rests (operates : handler.Operates setting) (rests : s.Rests)
    (item : FeedItem) :
    Proceeds True s (take setting handler s item) ∧ (take setting handler s item).Rests := by
  cases item with
  | terminal span offset text =>
    obtain ⟨proceeds, after, _⟩ := addTerminal_rests operates rests.idle span offset text
    exact ⟨proceeds, after⟩
  | symbol m =>
    obtain ⟨proceeds, after⟩ := addNew_rests operates rests m
    exact ⟨proceeds.mono False.elim, after⟩

theorem Session.takeAll_rests (operates : handler.Operates setting) (rests : s.Rests)
    (items : List FeedItem) :
    Proceeds True s (items.foldl (take setting handler) s) ∧
      (items.foldl (take setting handler) s).Rests := by
  induction items generalizing s with
  | nil => exact ⟨.refl s, rests⟩
  | cons item rest ih =>
    obtain ⟨first, after⟩ := take_rests operates rests item
    obtain ⟨proceeds, last⟩ := ih after
    exact ⟨first.trans proceeds, last⟩

/-- One call. A reset forgets the matches, but not what was noted. -/
theorem Call.run_rests (operates : handler.Operates setting) (rests : s.Rests) (call : Call) :
    (∃ t : Session, t.log = s.log ∧
      Proceeds (call.readsText = true) t (call.run setting handler s)) ∧
      (call.run setting handler s).Rests := by
  cases call with
  | reset =>
    have fresh : ({ derivations := s.derivations, log := s.log } : Session).Rests := ⟨rfl, rfl⟩
    refine ⟨⟨{ derivations := s.derivations, log := s.log }, rfl, ?_⟩, ?_⟩
    · simp only [run, Session.reset]
      split
      · exact .refl _
      · exact (addNew_rests operates fresh _).1.mono False.elim
    · simp only [run, Session.reset]
      split
      · exact fresh
      · exact (addNew_rests operates fresh _).2
  | allocate m =>
    obtain ⟨proceeds, _, pending⟩ := allocate_proceeds s setting.capacity m
    exact ⟨⟨s, rfl, proceeds⟩, proceeds.phase.trans rests.idle, pending.trans rests.empty⟩
  | addMatch id =>
    obtain ⟨proceeds, after⟩ := addMatch_rests operates rests.idle id
    exact ⟨⟨s, rfl, proceeds.mono False.elim⟩, after⟩
  | addTerminal span offset text =>
    obtain ⟨proceeds, after, _⟩ := addTerminal_rests operates rests.idle span offset text
    exact ⟨⟨s, rfl, proceeds.mono fun _ => rfl⟩, after⟩
  | read tokens labels =>
    obtain ⟨proceeds, after⟩ := takeAll_rests operates rests (Feed.items setting.rules tokens labels)
    exact ⟨⟨s, rfl, proceeds.mono fun _ => rfl⟩, after⟩

theorem Session.Proceeds.fired {literals : Prop} {t u : Session} (proceeds : Proceeds literals s t)
    (log : s.log = u.log) {callback : Callback} {id : MatchId} {phase : Phase}
    (fires : Fires u t (.fired callback id phase)) :
    phase = .processing ∨ literals ∧ t.arena.IsLeaf id := by
  obtain ⟨events, isLog, allowed⟩ := proceeds.log
  obtain ⟨others, alsoLog, member⟩ := fires
  rw [isLog, log] at alsoLog
  exact allowed callback id phase ((Array.append_right_inj _).mp alsoLog ▸ member)

end

theorem Call.runAll_rests {setting : Setting} {handler : Handler}
    (operates : handler.Operates setting) (calls : List Call) :
    (Call.runAll setting handler calls).Rests := by
  induction calls using List.reverseRecOn with
  | nil => exact ⟨rfl, rfl⟩
  | append_singleton before last ih =>
    rw [runAll, List.foldl_append]
    exact (run_rests operates ih last).2

/-- However a matcher is called, and whatever operations its callbacks are answered with: after each
call it rests. Callbacks are fired while matches are propagated, when an answer adds to the queue and
leaves the chart alone; only the literals of a piece that is handed in from outside are fired before
that, each with its callback. -/
theorem Handler.calls_rest {setting : Setting} {handler : Handler}
    (operates : handler.Operates setting) (calls : List Call) :
    (Call.runAll setting handler calls).Rests ∧
    (∀ (call : Call) callback id phase,
      Fires (Call.runAll setting handler calls) (Call.runAll setting handler (calls ++ [call]))
          (.fired callback id phase) →
        phase = .processing ∨ call.readsText = true ∧
          (Call.runAll setting handler (calls ++ [call])).arena.IsLeaf id) ∧
    (∀ span offset text,
      (Call.runAll setting handler (calls ++ [.addTerminal span offset text])).arena.size <
          setting.capacity →
        ∀ h, setting.HeadOfText text h → h.callback.isSilent = false →
          ∃ id, Fires (Call.runAll setting handler calls)
            (Call.runAll setting handler (calls ++ [.addTerminal span offset text]))
            (.fired h.callback id .idle)) ∧
    ∀ s id callback, s.phase = .processing →
      (handler.react s id callback).phase = .processing ∧
        (handler.react s id callback).chart = s.chart ∧
        s.pending <:+ (handler.react s id callback).pending := by
  have rests := Call.runAll_rests operates calls
  have last (call : Call) : Call.runAll setting handler (calls ++ [call]) =
      call.run setting handler (Call.runAll setting handler calls) := by
    rw [Call.runAll, List.foldl_append]
    rfl
  refine ⟨rests, ?_, ?_, fun s id callback processing => ?_⟩
  · intro call callback id phase fires
    rw [last] at fires ⊢
    obtain ⟨⟨t, log, proceeds⟩, _⟩ := Call.run_rests operates rests call
    exact proceeds.fired log fires
  · intro span offset text fits
    rw [last] at fits ⊢
    exact (addTerminal_rests operates rests.idle span offset text).2.2 fits
  · have continues := operates.continues s id callback
    exact ⟨continues.phase.trans processing, continues.queue processing⟩

/-- The literal "hi" is a 1, with a callback. -/
def RuleSet.greeting : RuleSet where
  buffer := (words [8, 1, 0xffffffff, 0, 0, 1, 20, 0, 0, 0xffffffff] ++ [104, 105, 0]).toArray
  layout :=
    { hasNames := false
      symbolCount := 2
      terminals := ⟨40, 3⟩
      strings := {}
      records := ⟨20, 1⟩
      sets := ⟨0, 1⟩
      filters := {}
      labels := {}
      names := {}
      structural := {}
      shards := [{ exact := ⟨12, 1⟩ }] }

def Setting.greeting : Setting := .ofRules .greeting [] 1000

/-- Answers that callback by adding a 2 over its match. -/
def Handler.answering : Handler := .ofPolicy .greeting [(20, [.derive 2])]

set_option maxRecDepth 10000 in
theorem RuleSet.heads_greeting : RuleSet.greeting.heads 0 = [⟨1, ⟨20, 0⟩, -1⟩] := by cbv

set_option maxRecDepth 10000 in
theorem RuleSet.findTerminal_greeting : RuleSet.greeting.findTerminal 0 "hi" true = some 0 := by cbv

set_option maxRecDepth 10000 in
/-- The callback of the literal is fired in idle phase, and what its answer adds is in the chart when
the answer is given. -/
theorem Handler.calls_rest_greeting :
    answering.Operates .greeting ∧
      (Call.runAll .greeting answering [.reset, .addTerminal ⟨0, 2⟩ 0 "hi"]).Rests ∧
      (∃ id, Fires (Call.runAll .greeting answering [.reset])
        (Call.runAll .greeting answering [.reset, .addTerminal ⟨0, 2⟩ 0 "hi"])
        (.fired ⟨20, 0⟩ id .idle)) ∧
      (answering.react { arena := ⟨#[{ symbol := 1, span := ⟨0, 2⟩, offset := 0 }]⟩ } 0
        ⟨20, 0⟩).chart.endingAt 2 = [1] := by
  have operates : answering.Operates .greeting := operates_ofPolicy .greeting [(20, [.derive 2])]
  have isHead : Setting.greeting.HeadOfText "hi" ⟨1, ⟨20, 0⟩, -1⟩ := by
    refine ⟨0, by decide, 0, ?_, .inl RuleSet.findTerminal_greeting⟩
    rw [show Setting.greeting.rules = .greeting from rfl, RuleSet.heads_greeting]
    exact List.mem_singleton_self _
  obtain ⟨rests, _⟩ := calls_rest operates [.reset, .addTerminal ⟨0, 2⟩ 0 "hi"]
  obtain ⟨_, _, literals, _⟩ := calls_rest operates [.reset]
  exact ⟨operates, rests, literals ⟨0, 2⟩ 0 "hi" (by cbv) _ isHead rfl, by cbv⟩

end Phrasebook
