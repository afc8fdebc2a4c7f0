import Phrasebook.Proofs.Session.Evaluation
import Phrasebook.Proofs.Session.Leaves

namespace Phrasebook

theorem Span.contains_trans {s t u : Span} (first : s.contains t = true)
    (second : t.contains u = true) : s.contains u = true := by
  simp only [contains, Bool.and_eq_true, decide_eq_true_eq] at *
  omega

/-- The match stands behind its offset and does not stop before it starts. -/
structure Match.Forward (m : Match) : Prop where
  behind : m.offset ≤ m.span.start
  ordered : m.span.start ≤ m.span.stop

/-- The children of the match lie inside it, one behind the other. -/
structure Match.Nests (a : Arena) (m : Match) : Prop where
  inside : ∀ child ∈ m.children.toList, ∀ c, a.get? child = some c →
    m.span.contains c.span = true
  apart : m.children.toList.Pairwise fun left right => ∀ l r, a.get? left = some l →
    a.get? right = some r → l.span.stop ≤ r.span.start

theorem Match.capture?_eq_some {m : Match} {c : Capture} :
    m.capture? = some c ↔ m.kind = .mapping c.id ∧ c.span = m.span := by
  obtain ⟨id, span⟩ := c
  unfold capture?
  split
  · next isMapping => simp [isMapping, eq_comm]
  · next other =>
    constructor
    · intro none
      cases none
    · rintro ⟨isMapping, _⟩
      exact absurd isMapping (other id)

namespace Arena

variable {a : Arena}

/-- The captures of a derivation are the mappings of its tree. -/
theorem mem_captures (first : a.ChildrenFirst) {d : Derivation} {c : Capture} :
    c ∈ a.captures d ↔
      ∃ x m, a.Below d.root x ∧ a.get? x = some m ∧ m.kind = .mapping c.id ∧ c.span = m.span := by
  rw [captures, List.mem_filterMap]
  constructor
  · rintro ⟨m, member, isCapture⟩
    obtain ⟨x, below, found⟩ := (mem_visited first).mp member
    exact ⟨x, m, below, found, Match.capture?_eq_some.mp isCapture⟩
  · rintro ⟨x, m, below, found, isCapture⟩
    exact ⟨m, (mem_visited first).mpr ⟨x, below, found⟩, Match.capture?_eq_some.mpr isCapture⟩

/-- Where something is below a match, the match is in the arena. -/
theorem Below.exists_top {id x : Nat} (below : a.Below id x) {n : Match}
    (found : a.get? x = some n) : ∃ m, a.get? id = some m := by
  cases below with
  | refl => exact ⟨n, found⟩
  | child isParent => exact ⟨_, isParent⟩

/-- What is below a match of the arena is in the arena. -/
theorem Below.lt_size (first : a.ChildrenFirst) {id x : Nat} (below : a.Below id x)
    (known : id < a.size) : x < a.size := by
  induction below with
  | refl => exact known
  | child isParent member _ ih =>
    exact ih (Nat.lt_trans (first _ _ isParent _ member) known)

/-- The matches below a match lie inside it. -/
theorem contains_below (nested : ∀ (id : Nat) m, a.get? id = some m → m.Nests a) {id x : Nat}
    (below : a.Below id x) {m n : Match} (found : a.get? id = some m)
    (isBelow : a.get? x = some n) : m.span.contains n.span = true := by
  induction below generalizing m with
  | refl =>
    obtain rfl := Option.some.inj (found.symm.trans isBelow)
    simp [Span.contains]
  | child isParent member below ih =>
    obtain rfl := Option.some.inj (found.symm.trans isParent)
    obtain ⟨c, isChild⟩ := below.exists_top isBelow
    have outer := (nested _ _ found).inside _ member c isChild
    exact Span.contains_trans outer (ih isChild isBelow)

section
variable {d : Derivation}

end

end Arena

section
variable {setting : Setting} {tokens : List Token} {labels : List Label}

theorem forward_of_placed (laid : Token.Laid tokens) {m : Match} {offset : Nat} {piece : Token}
    (placed : (offset, piece) ∈ Feed.place 0 (solidPieces tokens)) (span : m.span = piece.span)
    (isOffset : m.offset = offset) : m.Forward := by
  have behind := (Feed.place_cut laid placed).2
  have covers := solidPieces_pos laid (Feed.mem_of_mem_place placed)
  exact ⟨isOffset ▸ span ▸ behind, span ▸ Nat.le_of_lt covers⟩

theorem Supplied.forward (laid : Token.Laid tokens)
    (ordered : ∀ label ∈ labels, label.span.start ≤ label.span.stop) {m : Match}
    (supplied : Supplied setting.rules tokens labels m) : m.Forward := by
  cases supplied with
  | start => exact ⟨Nat.le_refl _, Nat.le_refl _⟩
  | stop => exact ⟨Nat.le_refl _, Nat.le_refl _⟩
  | piece offset piece symbol used placed fits => exact forward_of_placed laid placed rfl rfl
  | label label index symbol used member =>
    have behind := (Feed.labelOffset_cut tokens label).2
    exact ⟨behind, ordered label (List.mem_of_getElem? member)⟩

/-- A match that a head yields goes forward if its children do, and it nests them. -/
theorem Yields.nests (laid : Token.Laid tokens) {a : Arena} {h : Head} {m : Match}
    (yields : Yields setting tokens a h m)
    (below : ∀ child ∈ m.children.toList, ∀ c, a.get? child = some c → c.Forward) :
    m.Forward ∧ m.Nests a := by
  obtain ⟨_, reason⟩ := yields
  cases children : m.children with
  | none =>
    simp only [children] at reason
    obtain ⟨offset, piece, placed, span, isOffset, _⟩ := reason
    exact ⟨forward_of_placed laid placed span isOffset, by simp [children, Children.toList],
      by simp [children, Children.toList]⟩
  | one child =>
    simp only [children] at reason
    obtain ⟨c, found, span, offset, _⟩ := reason
    have forward := below child (by simp [children, Children.toList]) c found
    refine ⟨⟨?_, span ▸ forward.ordered⟩, ?_, by simp [children, Children.toList]⟩
    · rw [offset, span]
      exact forward.behind
    · simp [children, Children.toList, found, span, Span.contains]
  | two left right =>
    simp only [children] at reason
    obtain ⟨_, l, r, foundLeft, foundRight, meet, span, offset, _⟩ := reason
    have first := below left (by simp [children, Children.toList]) l foundLeft
    have second := below right (by simp [children, Children.toList]) r foundRight
    have before : l.span.stop ≤ r.span.start := meet ▸ second.behind
    have := first.ordered
    have := second.ordered
    refine ⟨⟨?_, ?_⟩, ?_, ?_⟩
    · rw [offset, span]
      exact first.behind
    · rw [span]
      dsimp only
      omega
    · simp only [children, Children.toList, List.mem_cons, List.not_mem_nil, or_false,
        forall_eq_or_imp, forall_eq, foundLeft, foundRight, Option.some.injEq, forall_eq', span,
        Span.contains, Bool.and_eq_true, decide_eq_true_eq]
      omega
    · simpa [children, Children.toList, foundLeft, foundRight] using before

variable {s : Session}

/-- Every match of a session that a pass goes through goes forward and nests its children. -/
theorem Session.Sound.nests (sound : s.Sound setting tokens labels) (laid : Token.Laid tokens)
    (ordered : ∀ label ∈ labels, label.span.start ≤ label.span.stop) {id : Nat} {m : Match}
    (found : s.arena.get? id = some m) : m.Forward ∧ m.Nests s.arena := by
  induction id using Nat.strong_induction_on generalizing m with
  | h id ih =>
    have justified := sound.arena id m found
    rcases justified.reason with ⟨isLeaf, supplied⟩ | ⟨h, yields⟩
    · exact ⟨supplied.forward laid ordered, by simp [isLeaf, Children.toList],
        by simp [isLeaf, Children.toList]⟩
    · apply yields.nests laid
      intro child member c isChild
      exact (ih child (justified.smaller child member) isChild).1

end

/-- The start of the text with a piece is a 4, and a label is a 3 and also a 6, which is captured; a
4 with a 6 behind it is a 5, which is reported. -/
def RuleSet.anchored : RuleSet where
  buffer := (words
    [24, 1, 28, 1, 32, 1, 4, 0xffffffff, 0xfffffffe, 5, 5, 7, 0, 0xffffffff, 6, 3, 9, 0, 0xffffffff,
      3, 3, 2, 0, 2, 1, 2, 0, 4, 6, 1, 0x78, 0, 3]).toArray
  layout :=
    { hasNames := false
      symbolCount := 6
      terminals := {}
      strings := ⟨120, 2⟩
      records := ⟨36, 2⟩
      sets := ⟨0, 3⟩
      filters := ⟨76, 1⟩
      labels := ⟨124, 1⟩
      names := {}
      structural := { start := 1, token := 2 }
      shards := [{ unary := ⟨80, 1⟩, buckets := ⟨88, 1⟩, binary := ⟨96, 2⟩ }] }

end Phrasebook
