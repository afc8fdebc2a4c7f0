import Phrasebook.Proofs.Derivation.Widest
import Phrasebook.Proofs.Session.Soundness

namespace Phrasebook

/-- Merge sort is stable, as insertion sort is, so they agree although the order is not strict. -/
theorem mergeSort_eq_insertionSort (le : α → α → Bool)
    (transitive : ∀ a b c, le a b = true → le b c = true → le a c = true)
    (total : ∀ a b, (le a b || le b a) = true) (items : List α) :
    items.mergeSort le = items.insertionSort (le · · = true) := by
  induction items with
  | nil => simp
  | cons a rest ih =>
    obtain ⟨before, later, whole, others, above⟩ := List.mergeSort_cons transitive total a rest
    have sorted := List.pairwise_mergeSort transitive total (a :: rest)
    rw [whole, List.pairwise_append, List.pairwise_cons] at sorted
    have passes : ∀ b ∈ before, decide (¬ le a b = true) = true := by
      intro b member
      simpa using above b member
    have stops : later.takeWhile (fun b => decide (¬ le a b = true)) = [] ∧
        later.dropWhile (fun b => decide (¬ le a b = true)) = later := by
      cases later with
      | nil => simp
      | cons b _ => simp [sorted.2.1.1 b List.mem_cons_self]
    rw [List.insertionSort_cons, ← ih, others, whole, List.orderedInsert_eq_take_drop,
      List.takeWhile_append_of_pos passes, List.dropWhile_append_of_pos passes, stops.1, stops.2,
      List.append_nil]

/-- A machine after so many steps, or when it has come to rest. -/
def Machine.after (setting : Setting) (handler : Handler) : (steps : Nat) → Machine → Machine
  | 0, a => a
  | steps + 1, a =>
    match a.next? setting handler with
    | none => a
    | some b => after setting handler steps b

theorem Machine.reaches_after {setting : Setting} {handler : Handler} (steps : Nat) (a : Machine) :
    Reaches setting handler a (after setting handler steps a) := by
  induction steps generalizing a with
  | zero => exact .refl a
  | succ steps ih =>
    rw [after]
    split
    · exact .refl a
    · next b step => exact .head step (ih b)

namespace Pass

/-- `feed`, with the labels sorted by insertion. -/
def insertedFeed (rules : RuleSet) (tokens : List Token) (labels : List Label) : List FeedItem :=
  let structural := rules.layout.structural
  let pieces := solidPieces tokens
  let sorted := labels.zipIdx.insertionSort (·.1.span.stop ≤ ·.1.span.stop)
  let last := ((pieces.getLast?).map (·.span.stop)).getD 0
  Feed.symbolItem structural.start ⟨0, 0⟩ 0 ++
    ((Feed.merge (Feed.labelItems rules pieces) (Feed.pieceItems structural) sorted 0
      pieces).flatten ++ Feed.symbolItem structural.stop ⟨last, last⟩ last)

theorem feed_eq_insertedFeed : feed = insertedFeed := by
  funext rules tokens labels
  have sorted := mergeSort_eq_insertionSort
    (fun a b : Label × Nat => decide (a.1.span.stop ≤ b.1.span.stop))
    (by simp only [decide_eq_true_eq]; omega)
    (by simp only [Bool.or_eq_true, decide_eq_true_eq]; omega) labels.zipIdx
  simp only [decide_eq_true_eq] at sorted
  rw [feed, Feed.items, sorted]
  rfl

/-- The session of a pass, computed in single steps if so many are enough. -/
def sessionIn (steps : Nat) (setting : Setting) (tokens : List Token) (labels : List Label) :
    Session :=
  let a := Machine.after setting .collector steps
    ⟨{}, [.feed (insertedFeed setting.rules tokens labels)]⟩
  if a.tasks.isEmpty then a.session else session setting tokens labels

theorem session_eq_sessionIn (steps : Nat) : session = sessionIn steps := by
  funext setting tokens labels
  rw [sessionIn, ← feed_eq_insertedFeed]
  split
  · next done =>
    have ends := (Machine.reaches_after steps _).onward (reaches_session setting tokens labels) rfl
    exact congrArg Machine.session (ends.eq_of_done (List.isEmpty_iff.mp done))
  · rfl

end Pass

namespace Derivation

/-- `deduplicate`, with the candidates sorted by insertion. -/
def inserted (a : Arena) (ds : List Derivation) : List Derivation :=
  widest none ((ds.map fun d => (d, a.spanOf d)).insertionSort (precedes · · = true))

theorem deduplicate_eq_inserted : deduplicate = inserted := by
  funext a ds
  rw [deduplicate, mergeSort_eq_insertionSort precedes precedes_trans precedes_total]
  rfl

end Derivation

namespace Pass

variable (setting : Setting) (tokens : List Token) (labels : List Label)

/-- `select` in the arena of a pass, with the trees listed level by level. -/
theorem select_session (ds : List Derivation) :
    Derivation.select (session setting tokens labels).arena ds =
      (Derivation.inserted (session setting tokens labels).arena ds).filter fun d =>
        !((session setting tokens labels).arena.nodes (session setting tokens labels).arena.size
          d.root).any (·.2.kind == .assertion true) := by
  rw [Derivation.select_eq (childrenFirst_session setting tokens labels),
    Derivation.deduplicate_eq_inserted]

theorem captures_session (d : Derivation) :
    (session setting tokens labels).arena.captures d =
      ((session setting tokens labels).arena.nodes (session setting tokens labels).arena.size
        d.root).filterMap (·.2.capture?) :=
  Arena.captures_eq (childrenFirst_session setting tokens labels) d

end Pass

end Phrasebook
