import Phrasebook.Session.Builtin

namespace Phrasebook

/-- One thing to do with the match of a callback. -/
inductive Reaction
  | enqueue
  | enqueueUpTo (length : Nat)
  | terminal (text : String)
  | derive (symbol : Symbol)
  | setKind (kind : MatchKind)
  | builtin (callback : Callback)
  deriving DecidableEq, Repr

/-- What to do about each callback. Callbacks without an entry are collected as usual. -/
abbrev Policy := List (UInt32 × List Reaction)

namespace Session

theorem drain_grows (setting : Setting) (handler : Handler) (s : Session) :
    s.arena.size ≤ (drain setting handler s).arena.size := by
  fun_induction drain setting handler s with
  | case1 => exact Nat.le_refl _
  | case2 s id rest _ ih =>
    exact Nat.le_trans (propagate_moves setting handler { s with pending := rest } id).size_le ih

theorem process_grows (setting : Setting) (handler : Handler) (s : Session) :
    s.arena.size ≤ (process setting handler s).arena.size := by
  unfold process
  split
  · exact Nat.le_refl _
  · exact drain_grows setting handler { s with phase := .processing }

theorem addMatch_grows (setting : Setting) (handler : Handler) (s : Session) (id : MatchId) :
    s.arena.size ≤ (addMatch setting handler s id).arena.size :=
  process_grows setting handler (s.enqueue id)

theorem addNew_grows (setting : Setting) (handler : Handler) (s : Session) (m : Match) :
    s.arena.size ≤ (addNew setting handler s m).arena.size := by
  unfold addNew
  split
  · next t id h =>
    have grown := (allocate_some h).2
    have := addMatch_grows setting handler t id
    omega
  · next t h => exact Nat.le_of_eq (by rw [(allocate_none h).1])

theorem matchLiteral_moves (setting : Setting) (handler : Handler) (site : Match)
    (text folded : String) (s : Session) (shard : Nat) :
    Moves setting.capacity s (matchLiteral setting handler site text folded s shard) :=
  (executeSet_moves _ _ _ _ _ _).trans (executeSet_moves _ _ _ _ _ _)

theorem addTerminal_grows (setting : Setting) (handler : Handler) (s : Session) (span : Span)
    (offset : Nat) (text : String) :
    s.arena.size ≤ (addTerminal setting handler s span offset text).arena.size := by
  refine Nat.le_trans ?_ (process_grows setting handler _)
  exact (Moves.foldl (matchLiteral_moves setting handler _ _ _) setting.shards
    { s with stats := { s.stats with terminals := s.stats.terminals + 1 } }).size_le

/-- Does one thing with the match `id`. Callbacks that this fires are answered by `handler`. -/
def perform (setting : Setting) (handler : Handler) (id : MatchId) (s : Session)
    (reaction : Reaction) : Session :=
  match s.arena.get? id with
  | none => s
  | some m =>
    match reaction with
    | .enqueue => s.enqueue id
    | .enqueueUpTo length => if m.span.length ≤ length then s.enqueue id else s
    | .terminal text => addTerminal setting handler s m.span m.offset text
    | .derive symbol =>
      addNew setting handler s { symbol, span := m.span, offset := m.offset, children := .one id }
    | .setKind kind => s.setKind id kind
    | .builtin callback =>
      let (s, handled) := s.applyBuiltin id callback
      { s with log := s.log.push (.handled handled) }

theorem perform_grows (setting : Setting) (handler : Handler) (id : MatchId) (s : Session)
    (reaction : Reaction) :
    s.arena.size ≤ (perform setting handler id s reaction).arena.size := by
  unfold perform
  split
  · exact Nat.le_refl _
  · split
    · exact Nat.le_refl _
    · split <;> exact Nat.le_refl _
    · exact addTerminal_grows _ _ _ _ _ _
    · exact addNew_grows _ _ _ _
    · exact Nat.le_of_eq (size_setKind _ _ _).symm
    · next callback => exact Nat.le_of_eq (size_applyBuiltin s id callback).symm

theorem foldl_grows {step : Session → α → Session}
    (h : ∀ s a, s.arena.size ≤ (step s a).arena.size) (items : List α) (s : Session) :
    s.arena.size ≤ (items.foldl step s).arena.size := by
  induction items generalizing s with
  | nil => exact Nat.le_refl _
  | cons a rest ih => exact Nat.le_trans (h s a) (ih _)

end Session

namespace Handler

/-- Follows a policy to a depth of nested callbacks. -/
def ofPolicyTo (setting : Setting) (policy : Policy) : (depth : Nat) → Handler
  | 0 => collector
  | depth + 1 =>
    { react := fun s id callback =>
        match policy.lookup callback.id with
        | none => s.collect id callback
        | some reactions =>
          reactions.foldl (Session.perform setting (ofPolicyTo setting policy depth) id) s
      grows := fun s id callback => by
        split
        · exact collector.grows s id callback
        · exact Session.foldl_grows (Session.perform_grows setting _ id) _ s }

/-- Follows a policy. A callback fires only on a match that was just added, so callbacks nest no
deeper than the arena is large. -/
def ofPolicy (setting : Setting) (policy : Policy) : Handler :=
  ofPolicyTo setting policy (setting.capacity + 1)

end Handler

end Phrasebook
