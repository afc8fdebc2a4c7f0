import Phrasebook.Proofs.Derivation.Widest
import Phrasebook.Proofs.Session.Coverage

namespace Phrasebook

/-- The matches without children that a match is made of, from left to right. -/
inductive Arena.Leaves (a : Arena) : Nat → List Match → Prop
  | here {id : Nat} {m : Match} (found : a.get? id = some m) (isLeaf : m.children = .none) :
      Leaves a id [m]
  | one {id child : Nat} {m : Match} {leaves : List Match} (found : a.get? id = some m)
      (isOne : m.children = .one child) (below : Leaves a child leaves) : Leaves a id leaves
  | two {id left right : Nat} {m : Match} {before after : List Match}
      (found : a.get? id = some m) (isTwo : m.children = .two left right)
      (first : Leaves a left before) (second : Leaves a right after) :
      Leaves a id (before ++ after)

/-- A match has leaves where children come before their parents. -/
theorem Arena.exists_leaves {a : Arena} (childrenFirst : a.ChildrenFirst) {id : Nat}
    (known : id < a.size) : ∃ leaves, a.Leaves id leaves := by
  induction id using Nat.strong_induction_on with
  | h id ih =>
    obtain ⟨m, found⟩ := get?_of_lt_size known
    have below (child : Nat) (member : child ∈ m.children.toList) :
        ∃ leaves, a.Leaves child leaves := by
      have lt : child < id := childrenFirst id m found child member
      exact ih child lt (Nat.lt_trans lt known)
    cases children : m.children with
    | none => exact ⟨[m], .here found children⟩
    | one child =>
      obtain ⟨leaves, isBelow⟩ := below child (by simp [children, Children.toList])
      exact ⟨leaves, .one found children isBelow⟩
    | two left right =>
      obtain ⟨before, first⟩ := below left (by simp [children, Children.toList])
      obtain ⟨after, second⟩ := below right (by simp [children, Children.toList])
      exact ⟨before ++ after, .two found children first second⟩

/-- What a leaf stands for: an end of the text, or the piece at an index. -/
inductive Place
  | start
  | piece (index : Nat)
  | stop
  deriving DecidableEq, Repr

namespace Place

def index? : Place → Option Nat
  | .piece k => some k
  | .start | .stop => none

/-- How many pieces of a text are in front of a place. -/
def before (count : Nat) : Place → Nat
  | .start => 0
  | .piece k => k
  | .stop => count

/-- How many pieces of a text have been read with a place. -/
def through (count : Nat) : Place → Nat
  | .start => 0
  | .piece k => k + 1
  | .stop => count

/-- Each place begins where the one before it stops. The first does so after `i` pieces, and with the
last `j` pieces have been read. -/
def Path (count : Nat) : Nat → List Place → Nat → Prop
  | i, [], j => i = j
  | i, place :: rest, j => place.before count = i ∧ Path count (place.through count) rest j

section
variable {count i j k : Nat} {places others : List Place}

theorem path_append :
    Path count i (places ++ others) k ↔ ∃ j, Path count i places j ∧ Path count j others k := by
  induction places generalizing i with
  | nil => simp [Path]
  | cons place rest ih => simp [Path, ih, and_assoc]

/-- A path goes through the pieces one after the other. -/
theorem Path.indices (path : Path count i places j) :
    i ≤ j ∧ places.filterMap index? = List.range' i (j - i) := by
  induction places generalizing i with
  | nil =>
    obtain rfl : i = j := path
    simp
  | cons place rest ih =>
    obtain ⟨rfl, path⟩ := path
    obtain ⟨le, indices⟩ := ih path
    cases place with
    | start | stop => exact ⟨le, indices⟩
    | piece k =>
      have lt : k < j := le
      have count : j - k = (j - (k + 1)) + 1 := by omega
      refine ⟨Nat.le_of_lt lt, ?_⟩
      calc (Place.piece k :: rest).filterMap index?
        _ = k :: rest.filterMap index? := rfl
        _ = k :: List.range' (k + 1) (j - (k + 1)) := by rw [indices, through]
        _ = List.range' k (j - k) := by rw [count, List.range'_succ]

/-- The start of the text is followed by its first piece. -/
theorem Path.start (path : Path count i (places ++ .start :: others) j) :
    i = 0 ∧ places.filterMap index? = [] := by
  obtain ⟨middle, first, rfl, _⟩ := path_append.mp path
  obtain ⟨le, indices⟩ := first.indices
  have isZero : i = 0 := Nat.le_zero.mp le
  refine ⟨isZero, ?_⟩
  rw [indices, isZero]
  rfl

/-- The stop of the text comes after its last piece. -/
theorem Path.stop (path : Path count i (places ++ .stop :: others) j) (le : j ≤ count) :
    j = count ∧ others.filterMap index? = [] := by
  obtain ⟨middle, _, _, second⟩ := path_append.mp path
  obtain ⟨ge, indices⟩ := second.indices
  have isCount : j = count := Nat.le_antisymm le ge
  refine ⟨isCount, ?_⟩
  rw [indices, isCount, through, Nat.sub_self]
  rfl

end

/-- The match is made for the place: for an end of the text, or from the text of the piece. -/
def Holds (setting : Setting) (tokens : List Token) : Place → Match → Prop
  | .start, m => m.symbol = setting.rules.layout.structural.start ∧ m.span = ⟨0, 0⟩ ∧ m.offset = 0
  | .piece k, m => ∃ piece, (solidPieces tokens)[k]? = some piece ∧ m.span = piece.span ∧
      m.offset = Feed.edge (solidPieces tokens) k ∧
      (setting.rules.layout.structural.Fits piece m.symbol ∨
        ∃ h, h.symbol = m.symbol ∧ setting.HeadOfText piece.value h)
  | .stop, m => m.symbol = setting.rules.layout.structural.stop ∧
      m.span.start = Feed.edge (solidPieces tokens) (solidPieces tokens).length ∧
      m.span.stop = Feed.edge (solidPieces tokens) (solidPieces tokens).length ∧
      m.offset = Feed.edge (solidPieces tokens) (solidPieces tokens).length

end Place

/-- The leaves stand for the places, which the match reads from the edge `i` to the edge `j`. -/
structure Match.Reads (setting : Setting) (tokens : List Token) (m : Match) (leaves : List Match)
    (places : List Place) (i j : Nat) : Prop where
  placed : List.Forall₂ (Place.Holds setting tokens) places leaves
  path : Place.Path (solidPieces tokens).length i places j
  le : j ≤ (solidPieces tokens).length
  offset : m.offset = Feed.edge (solidPieces tokens) i
  edge : m.span.stop = Feed.edge (solidPieces tokens) j
  first : leaves.head?.map (·.span.start) = some m.span.start
  last : leaves.getLast?.map (·.span.stop) = some m.span.stop

namespace Match.Reads

variable {setting : Setting} {tokens : List Token} {l r m n : Match} {i j k : Nat}
  {leaves before after : List Match} {places others : List Place}

/-- A match in the place of another reads the same. -/
theorem congr (reads : m.Reads setting tokens leaves places i j) (span : n.span = m.span)
    (offset : n.offset = m.offset) : n.Reads setting tokens leaves places i j where
  placed := reads.placed
  path := reads.path
  le := reads.le
  offset := offset.trans reads.offset
  edge := span ▸ reads.edge
  first := span ▸ reads.first
  last := span ▸ reads.last

theorem leaves_ne_nil (reads : m.Reads setting tokens leaves places i j) : leaves ≠ [] := by
  rintro rfl
  cases reads.first

/-- Two matches that meet read on one from the other. -/
theorem join (solid : Feed.Solid (solidPieces tokens)) {i' : Nat}
    (left : l.Reads setting tokens before places i j)
    (right : r.Reads setting tokens after others i' k) (adjacent : r.offset = l.span.stop)
    (span : m.span = ⟨l.span.start, r.span.stop⟩) (offset : m.offset = l.offset) :
    m.Reads setting tokens (before ++ after) (places ++ others) i k := by
  have meets : i' = j := by
    have le := right.path.indices.1
    apply Feed.edge_inj solid (Nat.le_trans le right.le) left.le
    rw [← right.offset, ← left.edge, adjacent]
  subst meets
  constructor
  · exact List.rel_append left.placed right.placed
  · exact Place.path_append.mpr ⟨i', left.path, right.path⟩
  · exact right.le
  · exact offset.trans left.offset
  · rw [span]
    exact right.edge
  · rw [List.head?_append_of_ne_nil _ left.leaves_ne_nil, span]
    exact left.first
  · rw [List.getLast?_append_of_ne_nil _ right.leaves_ne_nil, span]
    exact right.last

/-- A leaf reads its own place. -/
theorem leaf {place : Place} (holds : place.Holds setting tokens m) :
    m.Reads setting tokens [m] [place] (place.before (solidPieces tokens).length)
      (place.through (solidPieces tokens).length) where
  placed := .cons holds .nil
  path := ⟨rfl, rfl⟩
  le := by
    cases place with
    | start => exact Nat.zero_le _
    | piece k =>
      obtain ⟨piece, found, _⟩ := holds
      exact (List.getElem?_eq_some_iff.mp found).1
    | stop => exact Nat.le_refl _
  offset := by
    cases place with
    | start => exact holds.2.2
    | piece k =>
      obtain ⟨piece, _, _, offset, _⟩ := holds
      exact offset
    | stop => exact holds.2.2.2
  edge := by
    cases place with
    | start => exact congrArg Span.stop holds.2.1
    | piece k =>
      obtain ⟨piece, found, span, _⟩ := holds
      rw [span, Place.through, Feed.edge, found]
      rfl
    | stop => exact holds.2.2.1
  first := rfl
  last := rfl

end Match.Reads

theorem Feed.edge_length (pieces : List Token) :
    edge pieces pieces.length = ((pieces.getLast?).map (·.span.stop)).getD 0 := by
  cases pieces with
  | nil => rfl
  | cons piece rest => simp [edge, List.getLast?_eq_getElem?]

section
variable {setting : Setting} {tokens : List Token}

/-- A piece that is placed in the text has an index. -/
theorem Place.holds_piece {offset : Nat} {piece : Token} {m : Match}
    (member : (offset, piece) ∈ Feed.place 0 (solidPieces tokens)) (span : m.span = piece.span)
    (isOffset : m.offset = offset)
    (reason : setting.rules.layout.structural.Fits piece m.symbol ∨
      ∃ h, h.symbol = m.symbol ∧ setting.HeadOfText piece.value h) :
    ∃ k, (Place.piece k).Holds setting tokens m := by
  obtain ⟨k, found⟩ := List.mem_iff_getElem?.mp member
  rw [Feed.getElem?_place, Option.map_eq_some_iff] at found
  obtain ⟨piece', isPiece, same⟩ := found
  obtain ⟨rfl, rfl⟩ := Prod.mk.inj same
  exact ⟨k, piece', isPiece, span, isOffset, reason⟩

/-- Without labels, a leaf stands for a place. -/
theorem Justified.holds {a : Arena} {id : Nat} {m : Match}
    (justified : Justified setting tokens [] a id m) (isLeaf : m.children = .none) :
    ∃ place : Place, place.Holds setting tokens m := by
  rcases justified.reason with ⟨_, supplied⟩ | ⟨h, symbol, reason⟩
  · cases supplied with
    | start => exact ⟨.start, rfl, rfl, rfl⟩
    | stop used last isLast =>
      rw [← Feed.edge_length] at isLast
      exact ⟨.stop, rfl, isLast, isLast, isLast⟩
    | piece offset piece symbol used member fits =>
      have holds : ∃ k, (Place.piece k).Holds setting tokens
          { symbol, span := piece.span, offset } := Place.holds_piece member rfl rfl (.inl fits)
      obtain ⟨k, holds⟩ := holds
      exact ⟨.piece k, holds⟩
    | label _ _ _ _ member => cases member
  · rw [isLeaf] at reason
    obtain ⟨offset, piece, member, span, isOffset, reads⟩ := reason
    obtain ⟨k, holds⟩ := Place.holds_piece member span isOffset (.inr ⟨h, symbol, reads⟩)
    exact ⟨.piece k, holds⟩

/-- Every match reads its leaves. -/
theorem Arena.Leaves.reads {a : Arena} (laid : Token.Laid tokens)
    (justified : ∀ (id : Nat) m, a.get? id = some m → Justified setting tokens [] a id m)
    {id : Nat} {leaves : List Match} (isLeaves : a.Leaves id leaves) {m : Match}
    (found : a.get? id = some m) : ∃ places i j, m.Reads setting tokens leaves places i j := by
  induction isLeaves generalizing m with
  | here found' isLeaf =>
    obtain rfl := Option.some.inj (found.symm.trans found')
    obtain ⟨place, holds⟩ := (justified _ _ found).holds isLeaf
    exact ⟨_, _, _, .leaf holds⟩
  | one found' isOne _ ih =>
    obtain rfl := Option.some.inj (found.symm.trans found')
    rcases (justified _ _ found).reason with ⟨isLeaf, _⟩ | ⟨h, _, reason⟩
    · cases isOne.symm.trans isLeaf
    · rw [isOne] at reason
      obtain ⟨c, isChild, span, offset, _⟩ := reason
      obtain ⟨places, i, j, reads⟩ := ih isChild
      exact ⟨places, i, j, reads.congr span offset⟩
  | two found' isTwo _ _ ihl ihr =>
    obtain rfl := Option.some.inj (found.symm.trans found')
    rcases (justified _ _ found).reason with ⟨isLeaf, _⟩ | ⟨h, _, reason⟩
    · cases isTwo.symm.trans isLeaf
    · rw [isTwo] at reason
      obtain ⟨_, l, r, isLeft, isRight, adjacent, span, offset, _⟩ := reason
      obtain ⟨places, i, j, left⟩ := ihl isLeft
      obtain ⟨others, i', k, right⟩ := ihr isRight
      exact ⟨_, _, _, left.join (solidPieces_solid laid) right adjacent span offset⟩

end

/-- The leaves stand for the pieces from `i` to before `j`, each once and in order, and for the ends
of the text where these are reached. The match begins and stops with them. -/
structure Match.ReadsOnce (setting : Setting) (tokens : List Token) (m : Match)
    (leaves : List Match) (places : List Place) (i j : Nat) : Prop where
  placed : List.Forall₂ (Place.Holds setting tokens) places leaves
  bounds : i ≤ j ∧ j ≤ (solidPieces tokens).length
  pieces : places.filterMap Place.index? = List.range' i (j - i)
  starts : ∀ before after, places = before ++ .start :: after →
    i = 0 ∧ before.filterMap Place.index? = []
  stops : ∀ before after, places = before ++ .stop :: after →
    j = (solidPieces tokens).length ∧ after.filterMap Place.index? = []
  first : leaves.head?.map (·.span.start) = some m.span.start
  last : leaves.getLast?.map (·.span.stop) = some m.span.stop
  offset : m.offset = Feed.edge (solidPieces tokens) i

theorem Match.Reads.once {setting : Setting} {tokens : List Token} {m : Match}
    {leaves : List Match} {places : List Place} {i j : Nat}
    (reads : m.Reads setting tokens leaves places i j) :
    m.ReadsOnce setting tokens leaves places i j where
  placed := reads.placed
  bounds := ⟨reads.path.indices.1, reads.le⟩
  pieces := reads.path.indices.2
  starts := by
    rintro before after rfl
    exact reads.path.start
  stops := by
    rintro before after rfl
    exact reads.path.stop reads.le
  first := reads.first
  last := reads.last
  offset := reads.offset

/-- In every session that a pass without labels goes through, every match has leaves, and they are
pieces of the text one after the other, none left out and none read twice. -/
theorem Pass.leaves_read_once (rules : RuleSet) (locales : List Locale) (limit : Nat)
    {tokens : List Token} (laid : Token.Laid tokens) (s : Session)
    (visits : Visits (.ofRules rules locales limit) tokens [] s) (id : Nat) (m : Match)
    (found : s.arena.get? id = some m) :
    (∃ leaves, s.arena.Leaves id leaves) ∧ ∀ leaves, s.arena.Leaves id leaves →
      ∃ places i j, m.ReadsOnce (.ofRules rules locales limit) tokens leaves places i j := by
  have sound := visits_sound visits
  constructor
  · exact Arena.exists_leaves sound.childrenFirst (Arena.lt_size_of_get? found)
  · intro leaves isLeaves
    obtain ⟨places, i, j, reads⟩ := isLeaves.reads laid sound.arena found
    exact ⟨places, i, j, reads.once⟩

/-- Every piece is a 1 and the start of the text a 2; two 1 are a 3, and a 2 with a 3 is a 4. -/
def RuleSet.opening : RuleSet where
  buffer := (words [16, 1, 20, 1, 3, 4, 0, 2, 1, 1, 0, 2, 3, 1]).toArray
  layout :=
    { hasNames := false
      symbolCount := 4
      terminals := {}
      strings := {}
      records := {}
      sets := ⟨0, 2⟩
      filters := {}
      labels := {}
      names := {}
      structural := { start := 2, token := 1 }
      shards := [{ buckets := ⟨24, 1⟩, binary := ⟨32, 2⟩ }] }

set_option maxRecDepth 10000 in
theorem Pass.leaves_read_once_opening :
    ∃ leaves places i j,
      (session (.ofRules .opening [] 1000) [⟨"1", ⟨0, 1⟩⟩, ⟨"2", ⟨2, 3⟩⟩] []).arena.Leaves 4 leaves ∧
      Match.ReadsOnce (.ofRules .opening [] 1000) [⟨"1", ⟨0, 1⟩⟩, ⟨"2", ⟨2, 3⟩⟩]
        { symbol := 4, span := ⟨0, 3⟩, offset := 0, children := .two 0 3 } leaves places i j := by
  have laid : Token.Laid [⟨"1", ⟨0, 1⟩⟩, ⟨"2", ⟨2, 3⟩⟩] := ⟨by decide, by decide⟩
  obtain ⟨⟨leaves, isLeaves⟩, reads⟩ := leaves_read_once .opening [] 1000 laid _
    (visits_session _ _ _) 4 { symbol := 4, span := ⟨0, 3⟩, offset := 0, children := .two 0 3 }
    (by cbv)
  obtain ⟨places, i, j, once⟩ := reads leaves isLeaves
  exact ⟨leaves, places, i, j, isLeaves, once⟩

end Phrasebook
