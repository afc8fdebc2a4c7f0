import Phrasebook.Session.Propagation

namespace Phrasebook

namespace Session

/-- Whether a match in the chart has this symbol and exactly this span. -/
def isCovered (s : Session) (span : Span) (symbol : Nat) : Bool :=
  (s.chart.endingAt span.stop).any fun id =>
    (s.arena.get? id).any fun m => m.span == span && m.symbol == symbol

/-- Sets the kind of a match and lets it go on. -/
def accept (s : Session) (id : MatchId) (kind : MatchKind) : Session :=
  (s.setKind id kind).enqueue id

/-- Lets a match go on unless the excluded symbol covers the same span already. -/
def exclude (s : Session) (id : MatchId) (excluded : UInt64) : Session :=
  match s.arena.get? id with
  | none => s
  | some m => if s.isCovered m.span excluded.toNat then s else s.enqueue id

/-- Answers a callback that is a built-in filter, and says whether it is one. -/
def applyBuiltin (s : Session) (id : MatchId) (callback : Callback) : Session × Bool :=
  match Builtin.ofId? callback.id with
  | some .setType => (s.accept id (.typed callback.param), true)
  | some .assertion => (s.accept id (.assertion (callback.param != 0)), true)
  | some .mapping => (s.accept id (.mapping callback.param), true)
  | some .exclusion => (s.exclude id callback.param, true)
  | some .rootRule | none => (s, false)

/-- Notes root rules as derivations and applies the built-in filters. Any other callback is
ignored. -/
def collect (s : Session) (id : MatchId) (callback : Callback) : Session :=
  if callback.id == Builtin.rootRule.id then
    { s with derivations := s.derivations.push ⟨callback.param, id⟩ }
  else (s.applyBuiltin id callback).1

@[simp] theorem size_setKind (s : Session) (id : MatchId) (kind : MatchKind) :
    (s.setKind id kind).arena.size = s.arena.size := by
  simp [setKind, Arena.setKind, Arena.size]

@[simp] theorem arena_enqueue (s : Session) (id : MatchId) : (s.enqueue id).arena = s.arena := rfl

@[simp] theorem size_accept (s : Session) (id : MatchId) (kind : MatchKind) :
    (s.accept id kind).arena.size = s.arena.size := by
  simp [accept]

@[simp] theorem arena_exclude (s : Session) (id : MatchId) (excluded : UInt64) :
    (s.exclude id excluded).arena = s.arena := by
  unfold exclude
  split
  · rfl
  · split <;> rfl

@[simp] theorem size_applyBuiltin (s : Session) (id : MatchId) (callback : Callback) :
    (s.applyBuiltin id callback).1.arena.size = s.arena.size := by
  unfold applyBuiltin
  split <;> simp

@[simp] theorem size_collect (s : Session) (id : MatchId) (callback : Callback) :
    (s.collect id callback).arena.size = s.arena.size := by
  unfold collect
  split
  · rfl
  · exact size_applyBuiltin s id callback

end Session

/-- Collects derivations. -/
def Handler.collector : Handler where
  react := Session.collect
  grows s id callback := Nat.le_of_eq (Session.size_collect s id callback).symm

end Phrasebook
