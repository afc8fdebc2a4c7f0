import Phrasebook.Proofs.Session.FeedOrder

namespace Phrasebook

namespace Feed

/-- The place in front of the piece at an index: where the piece before it ends. -/
def edge (pieces : List Token) : Nat → Nat
  | 0 => 0
  | k + 1 => ((pieces[k]?).map (·.span.stop)).getD 0

/-- The pieces from `i` to before `j`, each with the edge in front of it. -/
def stretch (pieces : List Token) (i j : Nat) : List (Nat × Token) := (place 0 pieces).extract i j

theorem getElem?_place_from (last : Nat) (pieces : List Token) (k : Nat) :
    (place last pieces)[k]? =
      (pieces[k]?).map fun piece => (if k = 0 then last else edge pieces k, piece) := by
  induction pieces generalizing last k with
  | nil => rfl
  | cons piece rest ih =>
    cases k with
    | zero => rfl
    | succ k =>
      have same : (if k = 0 then piece.span.stop else edge rest k) = edge (piece :: rest) (k + 1) := by
        cases k <;> rfl
      rw [place, List.getElem?_cons_succ, ih, same]
      rfl

theorem getElem?_place (pieces : List Token) (k : Nat) :
    (place 0 pieces)[k]? = (pieces[k]?).map fun piece => (edge pieces k, piece) := by
  rw [getElem?_place_from]
  cases k <;> rfl

theorem length_place (last : Nat) (pieces : List Token) :
    (place last pieces).length = pieces.length := by
  induction pieces generalizing last with
  | nil => rfl
  | cons piece rest ih => rw [place, List.length_cons, ih, List.length_cons]

/-- Pieces that follow one another and are not empty. -/
structure Solid (pieces : List Token) : Prop where
  ordered : pieces.Pairwise fun a b => a.span.stop ≤ b.span.start
  solid : ∀ piece ∈ pieces, piece.span.start < piece.span.stop

section
variable {pieces : List Token} {i j k : Nat}

theorem edge_le_start (solid : Solid pieces) {piece : Token} (found : pieces[k]? = some piece)
    (le : i ≤ k) : edge pieces i ≤ piece.span.start := by
  cases i with
  | zero => exact Nat.zero_le _
  | succ i =>
    obtain ⟨inRange, rfl⟩ := List.getElem?_eq_some_iff.mp found
    have before : pieces[i].span.stop ≤ pieces[k].span.start :=
      List.pairwise_iff_getElem.mp solid.ordered i k (by omega) inRange le
    rw [edge, List.getElem?_eq_getElem (by omega)]
    exact before

theorem edge_lt (solid : Solid pieces) (lt : i < j) (le : j ≤ pieces.length) :
    edge pieces i < edge pieces j := by
  cases j with
  | zero => omega
  | succ j =>
    have found : pieces[j]? = some pieces[j] := List.getElem?_eq_getElem le
    have before := edge_le_start solid found (Nat.le_of_lt_succ lt)
    have here := solid.solid pieces[j] (List.getElem_mem le)
    rw [edge, found]
    exact Nat.lt_of_le_of_lt before here

theorem edge_inj (solid : Solid pieces) (les : i ≤ pieces.length) (le : j ≤ pieces.length)
    (same : edge pieces i = edge pieces j) : i = j := by
  rcases Nat.lt_trichotomy i j with lt | eq | gt
  · have := edge_lt solid lt le
    omega
  · exact eq
  · have := edge_lt solid gt les
    omega

theorem stretch_append (first : i ≤ j) (second : j ≤ k) :
    stretch pieces i j ++ stretch pieces j k = stretch pieces i k := by
  have whole : k - i = (j - i) + (k - j) := by omega
  have start : j = i + (j - i) := by omega
  simp only [stretch, List.extract_eq_take_drop]
  rw [whole, List.take_add, List.drop_drop, ← start]

theorem length_stretch (le : j ≤ pieces.length) : (stretch pieces i j).length = j - i := by
  rw [stretch, List.extract_eq_take_drop, List.length_take, List.length_drop, length_place]
  omega

/-- A stretch begins with its first piece. -/
theorem stretch_head (lt : i < j) (le : j ≤ pieces.length) :
    ∃ x rest, stretch pieces i j = x :: rest ∧ (place 0 pieces)[i]? = some x := by
  have inRange : i < (place 0 pieces).length := by
    rw [length_place]
    omega
  have count : j - i = (j - (i + 1)) + 1 := by omega
  refine ⟨(place 0 pieces)[i], stretch pieces (i + 1) j, ?_, List.getElem?_eq_getElem inRange⟩
  rw [stretch, List.extract_eq_take_drop, List.drop_eq_getElem_cons inRange, count,
    List.take_succ_cons]
  rfl

theorem stretch_one {x : Nat × Token} (found : (place 0 pieces)[i]? = some x) :
    stretch pieces i (i + 1) = [x] := by
  obtain ⟨inRange, rfl⟩ := List.getElem?_eq_some_iff.mp found
  rw [stretch, List.extract_eq_take_drop, Nat.add_sub_cancel_left,
    List.drop_eq_getElem_cons inRange]
  rfl

theorem eq_of_stretch_eq_singleton {x : Nat × Token} (lt : i < j) (le : j ≤ pieces.length)
    (single : stretch pieces i j = [x]) : j = i + 1 ∧ (place 0 pieces)[i]? = some x := by
  have length := congrArg List.length single
  rw [length_stretch le, List.length_singleton] at length
  obtain ⟨y, rest, eq, found⟩ := stretch_head lt le
  rw [single] at eq
  obtain ⟨rfl, _⟩ := List.cons.inj eq
  exact ⟨by omega, found⟩

/-- Where a stretch is made of two parts, the parts are stretches. -/
theorem stretch_split {v u : List (Nat × Token)} (le : j ≤ pieces.length) (before : i ≤ j)
    (parts : stretch pieces i j = v ++ u) :
    i + v.length + u.length = j ∧ v = stretch pieces i (i + v.length) ∧
      u = stretch pieces (i + v.length) j := by
  have length := congrArg List.length parts
  rw [length_stretch le, List.length_append] at length
  have total : i + v.length + u.length = j := by omega
  have middle : i + v.length ≤ j := by omega
  rw [← stretch_append (Nat.le_add_right i v.length) middle] at parts
  have same : (stretch pieces i (i + v.length)).length = v.length := by
    rw [length_stretch (Nat.le_trans middle le), Nat.add_sub_cancel_left]
  obtain ⟨first, second⟩ := List.append_inj parts same
  exact ⟨total, first.symm, second.symm⟩

end

end Feed

/-- The match reaches over the pieces from `i` to before `j`. -/
structure Match.Covers (m : Match) (pieces : List Token) (i j : Nat) : Prop where
  lt : i < j
  le : j ≤ pieces.length
  offset : m.offset = Feed.edge pieces i
  start : (pieces[i]?).map (·.span.start) = some m.span.start
  stop : m.span.stop = Feed.edge pieces j

namespace Match.Covers

variable {pieces : List Token} {i j k : Nat} {l r m n : Match}

/-- A match in the place of another covers the same. -/
theorem congr (covers : m.Covers pieces i j) (span : n.span = m.span) (offset : n.offset = m.offset) :
    n.Covers pieces i j := by
  refine ⟨covers.lt, covers.le, offset.trans covers.offset, ?_, ?_⟩
  · rw [span]
    exact covers.start
  · rw [span]
    exact covers.stop

theorem of_piece {x : Nat × Token} (found : (Feed.place 0 pieces)[i]? = some x)
    (span : m.span = x.2.span) (offset : m.offset = x.1) : m.Covers pieces i (i + 1) := by
  rw [Feed.getElem?_place, Option.map_eq_some_iff] at found
  obtain ⟨piece, isPiece, rfl⟩ := found
  have inRange := (List.getElem?_eq_some_iff.mp isPiece).1
  refine ⟨Nat.lt_succ_self i, inRange, offset, ?_, ?_⟩
  · rw [isPiece, span]
    rfl
  · rw [span, Feed.edge, isPiece]
    rfl

/-- Two matches that meet cover a longer stretch together. -/
theorem join (left : l.Covers pieces i j) (right : r.Covers pieces j k)
    (span : m.span = ⟨l.span.start, r.span.stop⟩) (offset : m.offset = l.offset) :
    m.Covers pieces i k := by
  refine ⟨Nat.lt_trans left.lt right.lt, right.le, offset.trans left.offset, ?_, ?_⟩
  · rw [span]
    exact left.start
  · rw [span]
    exact right.stop

/-- Matches that meet do so between the same pieces. -/
theorem meet (solid : Feed.Solid pieces) {i' j' : Nat} (left : l.Covers pieces i j)
    (right : r.Covers pieces i' j') (adjacent : r.offset = l.span.stop) : i' = j := by
  refine Feed.edge_inj solid ?_ left.le ?_
  · have := right.lt
    have := right.le
    omega
  · rw [← right.offset, ← left.stop, adjacent]

theorem gap_eq (covers : m.Covers pieces i j) {x : Nat × Token}
    (found : (Feed.place 0 pieces)[i]? = some x) : m.gap = x.2.span.start - x.1 := by
  rw [Feed.getElem?_place, Option.map_eq_some_iff] at found
  obtain ⟨piece, isPiece, rfl⟩ := found
  have start := covers.start
  rw [isPiece] at start
  rw [Match.gap, covers.offset, ← Option.some.inj start]

end Match.Covers

theorem solidPieces_solid {tokens : List Token} (laid : Token.Laid tokens) :
    Feed.Solid (solidPieces tokens) :=
  ⟨(solidPieces_laid laid).ordered, fun _ => solidPieces_pos laid⟩

end Phrasebook
