import Phrasebook.Session.Basic
import Phrasebook.Text.Lowercase

/-!
Bottom-up matching. A match that enters the chart completes unary rules by itself and binary rules
with the matches before it, up to the blanks in between. Each completed rule adds a match, which is
queued in turn. `drain` ends because a match is queued only when the arena grows, and the arena is
bounded.
-/

namespace Phrasebook.Session

/-- Counts a callback and notes it. -/
def note (s : Session) (id : MatchId) (callback : Callback) : Session :=
  { s with
    stats := { s.stats with callbacks := s.stats.callbacks + 1 }
    log := s.log.push (.fired callback id s.phase) }

/-- Has a callback answered. Silent callbacks are passed over. -/
def fire (handler : Handler) (s : Session) (id : MatchId) (callback : Callback) : Session :=
  if callback.isSilent then s else handler.react (s.note id callback) id callback

/-- Whether a head allows the white space between its operands. -/
def allows (head : Head) : (gap : Option Nat) → Bool
  | none => true
  | some gap => head.gap < 0 || (gap : Int) ≤ head.gap.toInt

/-- Makes the matches of a head set, each like `site` but for its symbol. `shared` is the match that
the next head of the same symbol can share, so that a symbol with several callbacks is propagated
once. A filter's match is its own and is queued only by its callback. -/
def execute (setting : Setting) (handler : Handler) (site : Match) (gap : Option Nat) :
    (shared : Option (MatchId × Symbol)) → Session → List Head → Session
  | _, s, [] => s
  | shared, s, head :: rest =>
    if !allows head gap then execute setting handler site gap shared s rest
    else
      let isFilter := !head.callback.isSilent && setting.rules.isFilter head.callback.id
      match shared.filter fun (_, symbol) => symbol == head.symbol && !isFilter with
      | some (id, symbol) =>
        execute setting handler site gap (some (id, symbol)) (s.fire handler id head.callback) rest
      | none =>
        match s.allocate setting.capacity { site with symbol := head.symbol } with
        | (s, none) => execute setting handler site gap none s rest
        | (s, some id) =>
          let s := s.fire handler id head.callback
          if isFilter then execute setting handler site gap none s rest
          else execute setting handler site gap (some (id, head.symbol)) (s.enqueue id) rest

/-- Makes the matches of a head set, if there is one. -/
def executeSet (setting : Setting) (handler : Handler) (site : Match) (gap : Option Nat)
    (s : Session) : (set : Option Nat) → Session
  | none => s
  | some set => execute setting handler site gap none s (setting.rules.heads set)

/-- Combines the match `id` with one to its left. -/
def combine (setting : Setting) (handler : Handler) (shard : Nat) (id : MatchId) (m : Match)
    (s : Session) (left : MatchId) : Session :=
  match s.arena.get? left with
  | none => s
  | some l =>
    let site : Match :=
      { symbol := 0, span := ⟨l.span.start, m.span.stop⟩, offset := l.offset,
        children := .two left id }
    executeSet setting handler site (some m.gap) s
      (setting.rules.findBinary shard l.symbol m.symbol)

/-- Applies the rules of one shard to a match. -/
def propagateIn (setting : Setting) (handler : Handler) (id : MatchId) (m : Match) (s : Session)
    (shard : Nat) : Session :=
  let site : Match := { symbol := 0, span := m.span, offset := m.offset, children := .one id }
  let s := executeSet setting handler site none s (setting.rules.findUnary shard m.symbol)
  let lefts := (s.chart.endingAt m.offset).filter (· != id)
  lefts.foldl (combine setting handler shard id m) s

/-- Enters a match into the chart and applies all rules that it completes. -/
def propagate (setting : Setting) (handler : Handler) (s : Session) (id : MatchId) : Session :=
  match s.arena.get? id with
  | none => s
  | some m =>
    let s := { s with chart := s.chart.insert m.span.stop id }
    setting.shards.foldl (propagateIn setting handler id m) s

/-- Nothing was added and nothing queued, or the arena had room and has grown. -/
def Moves (capacity : Nat) (s t : Session) : Prop :=
  (t.arena.size = s.arena.size ∧ t.pending = s.pending) ∨
    (s.arena.size < capacity ∧ s.arena.size < t.arena.size)

theorem Moves.refl (capacity : Nat) (s : Session) : Moves capacity s s := .inl ⟨rfl, rfl⟩

theorem Moves.trans {capacity : Nat} {s t u : Session} (first : Moves capacity s t)
    (second : Moves capacity t u) : Moves capacity s u := by
  rcases first with ⟨h, hp⟩ | ⟨h, hlt⟩ <;> rcases second with ⟨k, kp⟩ | ⟨k, klt⟩
  · exact .inl ⟨k.trans h, kp.trans hp⟩
  · exact .inr ⟨by omega, by omega⟩
  · exact .inr ⟨h, by omega⟩
  · exact .inr ⟨h, by omega⟩

theorem Moves.size_le {capacity : Nat} {s t : Session} (h : Moves capacity s t) :
    s.arena.size ≤ t.arena.size := by
  rcases h with ⟨h, _⟩ | ⟨_, h⟩ <;> omega

theorem Moves.foldl {capacity : Nat} {step : Session → α → Session}
    (h : ∀ s a, Moves capacity s (step s a)) (items : List α) (s : Session) :
    Moves capacity s (items.foldl step s) := by
  induction items generalizing s with
  | nil => exact .refl _ _
  | cons a rest ih => exact (h s a).trans (ih _)

theorem fire_grows (handler : Handler) (s : Session) (id : MatchId) (callback : Callback) :
    s.arena.size ≤ (s.fire handler id callback).arena.size := by
  unfold fire
  split
  · exact Nat.le_refl _
  · exact handler.grows (s.note id callback) id callback

theorem allocate_none {s t : Session} {capacity : Nat} {m : Match}
    (h : s.allocate capacity m = (t, none)) : t.arena = s.arena ∧ t.pending = s.pending := by
  simp only [allocate] at h
  split at h
  · simp at h
  · obtain ⟨rfl, _⟩ := Prod.mk.inj h
    exact ⟨rfl, rfl⟩

theorem allocate_some {s t : Session} {capacity : Nat} {m : Match} {id : MatchId}
    (h : s.allocate capacity m = (t, some id)) :
    s.arena.size < capacity ∧ t.arena.size = s.arena.size + 1 := by
  simp only [allocate] at h
  split at h
  · next room =>
    obtain ⟨rfl, _⟩ := Prod.mk.inj h
    exact ⟨room, by simp [Arena.push, Arena.size]⟩
  · simp at h

theorem execute_grows (setting : Setting) (handler : Handler) (site : Match) (gap : Option Nat)
    (shared : Option (MatchId × Symbol)) (s : Session) (heads : List Head) :
    s.arena.size ≤ (execute setting handler site gap shared s heads).arena.size := by
  induction heads generalizing shared s with
  | nil => simp [execute]
  | cons head rest ih =>
    rw [execute]
    split
    · exact ih _ _
    · dsimp only
      split
      · exact Nat.le_trans (fire_grows handler s _ _) (ih _ _)
      · split
        · next t h =>
          have := (allocate_none h).1
          exact this ▸ ih none t
        · next t id h =>
          have grown := (allocate_some h).2
          have fired := fire_grows handler t id head.callback
          split
          · have := ih none (t.fire handler id head.callback)
            omega
          · have := ih (some (id, head.symbol)) ((t.fire handler id head.callback).enqueue id)
            simp only [enqueue] at this ⊢
            omega

theorem execute_moves (setting : Setting) (handler : Handler) (site : Match) (gap : Option Nat)
    (s : Session) (heads : List Head) :
    Moves setting.capacity s (execute setting handler site gap none s heads) := by
  induction heads generalizing s with
  | nil => exact .refl _ _
  | cons head rest ih =>
    rw [execute]
    split
    · exact ih _
    · dsimp only [Option.filter]
      split
      · next t h =>
        obtain ⟨ha, hp⟩ := allocate_none h
        exact Moves.trans (.inl ⟨by rw [ha], hp⟩) (ih t)
      · next t id h =>
        obtain ⟨room, grown⟩ := allocate_some h
        have fired := fire_grows handler t id head.callback
        refine .inr ⟨room, ?_⟩
        split
        · have := execute_grows setting handler site gap none (t.fire handler id head.callback) rest
          omega
        · have := execute_grows setting handler site gap (some (id, head.symbol))
            ((t.fire handler id head.callback).enqueue id) rest
          simp only [enqueue] at this ⊢
          omega

theorem executeSet_moves (setting : Setting) (handler : Handler) (site : Match) (gap : Option Nat)
    (s : Session) (set : Option Nat) :
    Moves setting.capacity s (executeSet setting handler site gap s set) := by
  cases set with
  | none => exact .refl _ _
  | some set => exact execute_moves _ _ _ _ _ _

theorem combine_moves (setting : Setting) (handler : Handler) (shard : Nat) (id : MatchId)
    (m : Match) (s : Session) (left : MatchId) :
    Moves setting.capacity s (combine setting handler shard id m s left) := by
  unfold combine
  split
  · exact .refl _ _
  · exact executeSet_moves _ _ _ _ _ _

theorem propagateIn_moves (setting : Setting) (handler : Handler) (id : MatchId) (m : Match)
    (s : Session) (shard : Nat) :
    Moves setting.capacity s (propagateIn setting handler id m s shard) :=
  (executeSet_moves _ _ _ _ _ _).trans (.foldl (combine_moves setting handler shard id m) _ _)

/-- A propagation queues something only if it adds a match. -/
theorem propagate_moves (setting : Setting) (handler : Handler) (s : Session) (id : MatchId) :
    Moves setting.capacity s (propagate setting handler s id) := by
  unfold propagate
  split
  · exact .refl _ _
  · next m _ =>
    exact Moves.trans (.inl ⟨rfl, rfl⟩)
      (.foldl (propagateIn_moves setting handler id m) setting.shards
        { s with chart := s.chart.insert m.span.stop id })

/-- Propagates pending matches until none is left. It ends because every propagation either fills
the arena further or shortens the queue. -/
def drain (setting : Setting) (handler : Handler) (s : Session) : Session :=
  match _queue : s.pending with
  | [] => s
  | id :: rest => drain setting handler (propagate setting handler { s with pending := rest } id)
termination_by (setting.capacity - s.arena.size, s.pending.length)
decreasing_by
  rcases propagate_moves setting handler { s with pending := rest } id with
    ⟨size, pending⟩ | ⟨room, grown⟩
  · simp only at size pending
    rw [size, pending, _queue]
    exact Prod.Lex.right _ (by simp)
  · simp only at room grown
    exact Prod.Lex.left _ _ (by omega)

/-- Drains the queue, unless that is already under way. -/
def process (setting : Setting) (handler : Handler) (s : Session) : Session :=
  match s.phase with
  | .processing => s
  | .idle => { drain setting handler { s with phase := .processing } with phase := .idle }

/-- Propagates a match that is already in the arena. -/
def addMatch (setting : Setting) (handler : Handler) (s : Session) (id : MatchId) : Session :=
  process setting handler (s.enqueue id)

/-- Stores a match and propagates it. -/
def addNew (setting : Setting) (handler : Handler) (s : Session) (m : Match) : Session :=
  match s.allocate setting.capacity m with
  | (s, some id) => addMatch setting handler s id
  | (s, none) => s

/-- Fires the literals of one shard that read `text`, exactly or but for case. -/
def matchLiteral (setting : Setting) (handler : Handler) (site : Match) (text folded : String)
    (s : Session) (shard : Nat) : Session :=
  let s := executeSet setting handler site none s (setting.rules.findTerminal shard text true)
  executeSet setting handler site none s (setting.rules.findTerminal shard folded false)

/-- Matches a piece of text against the literals of the grammar and propagates what they yield. -/
def addTerminal (setting : Setting) (handler : Handler) (s : Session) (span : Span) (offset : Nat)
    (text : String) : Session :=
  let s := { s with stats := { s.stats with terminals := s.stats.terminals + 1 } }
  let site : Match := { symbol := 0, span, offset }
  let s := setting.shards.foldl
    (matchLiteral setting handler site text (Lowercase.text text)) s
  process setting handler s

/-- Forgets all matches and starts a new text. Derivations and log are kept. -/
def reset (setting : Setting) (handler : Handler) (s : Session) : Session :=
  let s : Session := { derivations := s.derivations, log := s.log }
  let start := setting.rules.layout.structural.start
  if start = 0 then s
  else addNew setting handler s { symbol := start, span := ⟨0, 0⟩, offset := 0 }

end Phrasebook.Session
