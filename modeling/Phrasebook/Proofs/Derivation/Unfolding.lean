import Mathlib
import Phrasebook.Derivation
import Phrasebook.Proofs.Session.Growth

/-!
Walks with a stack. A match that others share is visited under each of them, so the rounds of a walk
are counted by the tree that its root is when it is written out: the walk meets this tree in
preorder, in as many rounds as the tree has places.
-/

namespace Phrasebook

namespace Arena

/-- The match `x` is `id` or lies in the tree below it. -/
inductive Below (a : Arena) : MatchId → MatchId → Prop
  | refl (id : MatchId) : Below a id id
  | child {id child x : MatchId} {m : Match} (found : a.get? id = some m)
      (member : child ∈ m.children.toList) (below : Below a child x) : Below a id x

/-- Children were made before their parents. -/
def ChildrenFirst (a : Arena) : Prop :=
  ∀ (id : Nat) m, a.get? id = some m → ∀ child ∈ m.children.toList, child < id

instance (a : Arena) : Decidable a.ChildrenFirst :=
  decidable_of_iff (∀ id < a.size, ∀ m ∈ a.get? id, ∀ child ∈ m.children.toList, child < id)
    ⟨fun all id m found => all id (lt_size_of_get? found) m found, fun all id _ => all id⟩

/-- The matches of a tree in preorder, down to `depth` levels. -/
def nodes (a : Arena) : (depth : Nat) → MatchId → List (MatchId × Match)
  | 0, _ => []
  | depth + 1, id =>
    match a.get? id with
    | none => []
    | some m => (id, m) :: m.children.toList.flatMap (a.nodes depth)

/-- Below a match are the match itself and what is below its children. -/
theorem below_iff {a : Arena} {id x : MatchId} {m : Match} (found : a.get? id = some m) :
    a.Below id x ↔ x = id ∨ ∃ child ∈ m.children.toList, a.Below child x := by
  constructor
  · intro below
    cases below with
    | refl => exact .inl rfl
    | child isParent member below =>
      obtain rfl := Option.some.inj (isParent.symm.trans found)
      exact .inr ⟨_, member, below⟩
  · rintro (rfl | ⟨child, member, below⟩)
    · exact .refl _
    · exact .child found member below

theorem not_below_of_missing {a : Arena} {id x : MatchId} {m : Match} (unknown : a.get? id = none)
    (found : a.get? x = some m) : ¬ a.Below id x := by
  intro below
  cases below with
  | refl =>
    rw [unknown] at found
    cases found
  | child isParent =>
    rw [unknown] at isParent
    cases isParent

/-- A match with all that is below it, written out. A match that occurs below several others stands
under each of them. -/
inductive Tree
  | missing
  | leaf (id : MatchId) (m : Match)
  | one (id : MatchId) (m : Match) (child : Tree)
  | two (id : MatchId) (m : Match) (left right : Tree)

namespace Tree

/-- The matches of a tree, parents first and left before right. -/
def preorder : Tree → List (MatchId × Match)
  | missing => []
  | leaf id m => [(id, m)]
  | one id m child => (id, m) :: child.preorder
  | two id m left right => (id, m) :: (left.preorder ++ right.preorder)

def ids (t : Tree) : List MatchId := t.preorder.map (·.1)

/-- The places of a tree, those without a match included. -/
def size : Tree → Nat
  | missing => 1
  | leaf _ _ => 1
  | one _ _ child => child.size + 1
  | two _ _ left right => left.size + right.size + 1

end Tree

/-- The match `id`, written out as a tree. -/
inductive Unfolds (a : Arena) : MatchId → Tree → Prop
  | missing {id : MatchId} (unknown : a.get? id = none) : Unfolds a id .missing
  | leaf {id : MatchId} {m : Match} (found : a.get? id = some m) (children : m.children = .none) :
      Unfolds a id (.leaf id m)
  | one {id child : MatchId} {m : Match} {t : Tree} (found : a.get? id = some m)
      (children : m.children = .one child) (below : Unfolds a child t) : Unfolds a id (.one id m t)
  | two {id left right : MatchId} {m : Match} {l r : Tree} (found : a.get? id = some m)
      (children : m.children = .two left right) (first : Unfolds a left l)
      (second : Unfolds a right r) : Unfolds a id (.two id m l r)

namespace Walk

/-- So many rounds lead from one state of a walk to the other. -/
inductive Rounds (a : Arena) : Nat → Walk → Walk → Prop
  | none (w : Walk) : Rounds a 0 w w
  | next {n : Nat} {u v w : Walk} (round : u.next? a = some v) (later : Rounds a n v w) :
      Rounds a (n + 1) u w

variable {a : Arena}

theorem next?_missing {id : MatchId} (unknown : a.get? id = none) (stack : List MatchId)
    (met : Array MatchId) : next? a ⟨id :: stack, met⟩ = some ⟨stack, met⟩ := by
  simp only [next?, unknown]

theorem next?_found {id : MatchId} {m : Match} (found : a.get? id = some m) (stack : List MatchId)
    (met : Array MatchId) :
    next? a ⟨id :: stack, met⟩ = some ⟨m.children.toList ++ stack, met.push id⟩ := by
  simp only [next?, found]

theorem Rounds.append {n k : Nat} {u v w : Walk} (first : Rounds a n u v) (second : Rounds a k v w) :
    Rounds a (n + k) u w := by
  induction first with
  | none => rwa [Nat.zero_add]
  | next round _ ih =>
    rw [Nat.add_right_comm]
    exact .next round (ih second)

/-- A walk has at most one end, and gets there in one way. -/
theorem Rounds.unique {n k : Nat} {u : Walk} {xs ys : Array MatchId}
    (first : Rounds a n u ⟨[], xs⟩) (second : Rounds a k u ⟨[], ys⟩) : n = k ∧ xs = ys := by
  generalize ended : Walk.mk [] xs = v at first
  induction first generalizing k with
  | none =>
    subst ended
    cases second with
    | none => exact ⟨rfl, rfl⟩
    | next round => cases round
  | next round _ ih =>
    cases second with
    | none => cases round
    | next round' later =>
      obtain rfl := Option.some.inj (round.symm.trans round')
      obtain ⟨rfl, rfl⟩ := ih later ended
      exact ⟨rfl, rfl⟩

theorem run_eq (w : Walk) : w.run a = match w.next? a with
    | none => w.met
    | some next => next.run a := by
  rw [run, repeatM_eq_of_monadTail, repeatM.body]
  cases w.next? a <;> rfl

/-- Rounds that are taken first do not change where a walk ends. -/
theorem Rounds.run_eq {n : Nat} {u v : Walk} (rounds : Rounds a n u v) : u.run a = v.run a := by
  induction rounds with
  | none => rfl
  | next round _ ih =>
    rw [Walk.run_eq, round]
    exact ih

end Walk

namespace Unfolds

variable {a : Arena} {id : MatchId} {t : Tree}

theorem unique {u : Tree} (one : a.Unfolds id t) (other : a.Unfolds id u) : t = u := by
  induction one generalizing u with
  | missing unknown => cases other <;> simp_all
  | leaf found children => cases other <;> simp_all
  | one found children _ ih =>
    cases other with
    | one found' children' below =>
      obtain rfl := Option.some.inj (found.symm.trans found')
      obtain rfl := Children.one.inj (children.symm.trans children')
      rw [ih below]
    | missing | leaf | two => simp_all
  | two found children _ _ first second =>
    cases other with
    | two found' children' left right =>
      obtain rfl := Option.some.inj (found.symm.trans found')
      obtain ⟨rfl, rfl⟩ := Children.two.inj (children.symm.trans children')
      rw [first left, second right]
    | missing | leaf | one => simp_all

/-- A walk visits all of the tree on top of its stack before it comes to what lies under it. -/
theorem rounds (unfolds : a.Unfolds id t) (stack : List MatchId) (met : Array MatchId) :
    Walk.Rounds a t.size ⟨id :: stack, met⟩ ⟨stack, met ++ t.ids.toArray⟩ := by
  induction unfolds generalizing stack met with
  | missing unknown =>
    apply Walk.Rounds.next (Walk.next?_missing unknown stack met)
    rw [Tree.ids, Tree.preorder, List.map_nil, Array.append_empty]
    exact .none _
  | leaf found children =>
    apply Walk.Rounds.next (Walk.next?_found found stack met)
    rw [children, Tree.ids, Tree.preorder, List.map_singleton, ← Array.push_eq_append]
    exact .none _
  | @one id child m t found children _ ih =>
    apply Walk.Rounds.next (Walk.next?_found found stack met)
    simpa [children, Children.toList, Tree.ids, Tree.preorder] using ih stack (met.push id)
  | @two id left right m l r found children _ _ first second =>
    apply Walk.Rounds.next (Walk.next?_found found stack met)
    have down := (first (right :: stack) (met.push id)).append (second stack _)
    simpa [children, Children.toList, Tree.ids, Tree.preorder] using down

/-- A walk lists the ids of the tree. -/
theorem walk_eq (unfolds : a.Unfolds id t) : a.walk id = t.ids := by
  have ends : Walk.run a ⟨[], #[] ++ t.ids.toArray⟩ = #[] ++ t.ids.toArray := by
    rw [Walk.run_eq]
    rfl
  rw [walk, (unfolds.rounds [] #[]).run_eq, ends, Array.empty_append]

/-- The tree holds what is below its root. -/
theorem mem_preorder (unfolds : a.Unfolds id t) {x : MatchId} {n : Match} :
    (x, n) ∈ t.preorder ↔ a.Below id x ∧ a.get? x = some n := by
  have here {id : MatchId} {m : Match} (found : a.get? id = some m) :
      (x, n) = (id, m) ↔ x = id ∧ a.get? x = some n := by
    rw [Prod.mk.injEq]
    constructor
    · rintro ⟨rfl, rfl⟩
      exact ⟨rfl, found⟩
    · rintro ⟨rfl, isMatch⟩
      exact ⟨rfl, Option.some.inj (isMatch.symm.trans found)⟩
  induction unfolds with
  | missing unknown =>
    constructor
    · intro member
      cases member
    · rintro ⟨below, found⟩
      exact absurd below (not_below_of_missing unknown found)
  | leaf found children =>
    simp [Tree.preorder, here found, below_iff found, children, Children.toList]
  | one found children _ ih =>
    simp [Tree.preorder, here found, below_iff found, children, Children.toList, ih, or_and_right]
  | @two id left right m l r found children _ _ first second =>
    have down : (∃ child ∈ m.children.toList, a.Below child x) ↔ a.Below left x ∨ a.Below right x := by
      simp [children, Children.toList]
    simp [Tree.preorder, here found, below_iff found, down, first, second, or_and_right]

/-- The matches that a walk meets are those of the tree. -/
theorem visited_eq {d : Derivation} (unfolds : a.Unfolds d.root t) :
    a.visited d = t.preorder.map (·.2) := by
  rw [visited, unfolds.walk_eq, Tree.ids, List.filterMap_map, ← List.filterMap_eq_map']
  apply List.filterMap_congr
  rintro ⟨x, m⟩ member
  exact (unfolds.mem_preorder.mp member).2

/-- With more levels than there are smaller ids, the listed nodes are the tree in preorder. -/
theorem nodes_eq (first : a.ChildrenFirst) (unfolds : a.Unfolds id t) {depth : Nat}
    (deep : ∀ m, a.get? id = some m → id < depth) : a.nodes depth id = t.preorder := by
  induction depth generalizing id t with
  | zero =>
    cases unfolds with
    | missing => rfl
    | leaf found | one found | two found => exact absurd (deep _ found) (Nat.not_lt_zero _)
  | succ depth ih =>
    have smaller {m : Match} (found : a.get? id = some m) {child : MatchId}
        (member : child ∈ m.children.toList) (c : Match) (_ : a.get? child = some c) :
        child < depth :=
      Nat.lt_of_lt_of_le (first id m found child member) (Nat.le_of_lt_succ (deep m found))
    cases unfolds with
    | missing unknown =>
      rw [nodes, unknown]
      rfl
    | leaf found children => simp [nodes, found, children, Children.toList, Tree.preorder]
    | one found children below =>
      have down := ih below (smaller found (by simp [children, Children.toList]))
      simp [nodes, found, children, Children.toList, Tree.preorder, down]
    | two found children left right =>
      have downLeft := ih left (smaller found (by simp [children, Children.toList]))
      have downRight := ih right (smaller found (by simp [children, Children.toList]))
      simp [nodes, found, children, Children.toList, Tree.preorder, downLeft, downRight]

end Unfolds

section
variable {a : Arena}

/-- A match whose children can be written out can be written out itself. -/
theorem exists_unfolds_of_children {id : MatchId} {m : Match} (found : a.get? id = some m)
    (below : ∀ child ∈ m.children.toList, ∃ t, a.Unfolds child t) : ∃ t, a.Unfolds id t := by
  cases children : m.children with
  | none => exact ⟨_, .leaf found children⟩
  | one child =>
    obtain ⟨t, unfolds⟩ := below child (by simp [children, Children.toList])
    exact ⟨_, .one found children unfolds⟩
  | two left right =>
    obtain ⟨l, first⟩ := below left (by simp [children, Children.toList])
    obtain ⟨r, second⟩ := below right (by simp [children, Children.toList])
    exact ⟨_, .two found children first second⟩

theorem exists_unfolds (first : a.ChildrenFirst) (id : MatchId) : ∃ t, a.Unfolds id t := by
  induction id using Nat.strong_induction_on with
  | h id ih =>
    cases found : a.get? id with
    | none => exact ⟨_, .missing found⟩
    | some m =>
      apply exists_unfolds_of_children found
      intro child member
      exact ih child (first id m found child member)

end

section
variable {a : Arena} (first : a.ChildrenFirst)
include first

theorem nodes_size_eq {root : MatchId} {t : Tree} (unfolds : a.Unfolds root t) :
    a.nodes a.size root = t.preorder :=
  unfolds.nodes_eq first fun _ => lt_size_of_get?

theorem walk_eq (root : MatchId) : a.walk root = (a.nodes a.size root).map (·.1) := by
  obtain ⟨t, unfolds⟩ := exists_unfolds first root
  rw [nodes_size_eq first unfolds, unfolds.walk_eq, Tree.ids]

theorem visited_eq (d : Derivation) : a.visited d = (a.nodes a.size d.root).map (·.2) := by
  obtain ⟨t, unfolds⟩ := exists_unfolds first d.root
  rw [nodes_size_eq first unfolds, unfolds.visited_eq]

theorem isValid_eq (d : Derivation) :
    a.isValid d = !(a.nodes a.size d.root).any (·.2.kind == .assertion true) := by
  rw [isValid, visited_eq first, List.any_map]
  rfl

theorem captures_eq (d : Derivation) :
    a.captures d = (a.nodes a.size d.root).filterMap (·.2.capture?) := by
  rw [captures, visited_eq first, List.filterMap_map]
  rfl

theorem mem_visited {d : Derivation} {m : Match} :
    m ∈ a.visited d ↔ ∃ x, a.Below d.root x ∧ a.get? x = some m := by
  obtain ⟨t, unfolds⟩ := exists_unfolds first d.root
  rw [unfolds.visited_eq, List.mem_map]
  constructor
  · rintro ⟨⟨x, m⟩, member, rfl⟩
    exact ⟨x, unfolds.mem_preorder.mp member⟩
  · rintro ⟨x, isNode⟩
    exact ⟨(x, m), unfolds.mem_preorder.mpr isNode, rfl⟩

/-- A derivation is valid exactly when no match of its tree is a negative assertion. -/
theorem isValid_iff (d : Derivation) :
    a.isValid d = true ↔
      ∀ x m, a.Below d.root x → a.get? x = some m → m.kind ≠ .assertion true := by
  simp only [isValid, Bool.not_eq_true', List.any_eq_false, mem_visited first, beq_iff_eq]
  constructor
  · intro none x m below found
    exact none m ⟨x, below, found⟩
  · rintro none m ⟨x, below, found⟩
    exact none x m below found

end

/-- What becomes of a match that is the tree `t` when it is written out. The walk with a stack ends
in one way only, with the matches of the tree in preorder, which is what `walk` lists. A derivation
from this root is not valid if a negative assertion can be reached from it, and its captures are the
mappings of the tree in preorder. -/
structure Walked (a : Arena) (root : MatchId) (t : Tree) : Prop where
  ends : ∀ n out, Walk.Rounds a n ⟨[root], #[]⟩ ⟨[], out⟩ ↔ n = t.size ∧ out.toList = t.ids
  walk : a.walk root = t.ids
  invalid : ∀ rule, a.isValid ⟨rule, root⟩ = false ↔
    ∃ x m, a.Below root x ∧ a.get? x = some m ∧ m.kind = .assertion true
  captures : ∀ rule, a.captures ⟨rule, root⟩ = t.preorder.filterMap (·.2.capture?)

/-- Where children were made before their parents, each id is one tree when it is written out, and
walks meet this tree in preorder. -/
theorem walk_unfolds {a : Arena} (first : a.ChildrenFirst) (root : MatchId) :
    ∃ t, (∀ u, a.Unfolds root u ↔ u = t) ∧ a.Walked root t := by
  obtain ⟨t, unfolds⟩ := exists_unfolds first root
  exists t
  constructor
  · intro u
    constructor
    · intro other
      exact other.unique unfolds
    · rintro rfl
      exact unfolds
  · constructor
    · intro n out
      have rounds := unfolds.rounds [] #[]
      rw [Array.empty_append] at rounds
      constructor
      · intro ends
        obtain ⟨rfl, rfl⟩ := ends.unique rounds
        exact ⟨rfl, rfl⟩
      · rintro ⟨rfl, same⟩
        rw [← same] at rounds
        exact rounds
    · exact unfolds.walk_eq
    · intro rule
      rw [← Bool.not_eq_true, isValid_iff first]
      simp only [not_forall, not_not, exists_prop]
    · intro rule
      have visited : a.visited ⟨rule, root⟩ = t.preorder.map (·.2) := unfolds.visited_eq
      rw [captures, visited, List.filterMap_map]
      rfl

/-- A mapping that four places share, below a negative assertion. -/
def sharing : Arena where
  entries := #[
    { symbol := 1, span := ⟨0, 1⟩, offset := 0, kind := .mapping 9 },
    { symbol := 2, span := ⟨0, 1⟩, offset := 0, children := .two 0 0 },
    { symbol := 3, span := ⟨0, 1⟩, offset := 0, children := .two 1 1 },
    { symbol := 4, span := ⟨0, 1⟩, offset := 0, kind := .assertion true, children := .one 2 }]

theorem walk_unfolds_sharing :
    sharing.ChildrenFirst ∧ sharing.walk 3 = [3, 2, 1, 0, 0, 1, 0, 0] ∧
      Walk.Rounds sharing 8 ⟨[3], #[]⟩ ⟨[], #[3, 2, 1, 0, 0, 1, 0, 0]⟩ ∧
      sharing.isValid ⟨7, 3⟩ = false ∧ sharing.captures ⟨7, 3⟩ = List.replicate 4 ⟨9, ⟨0, 1⟩⟩ ∧
      sharing.walk 4 = [] := by
  have first : sharing.ChildrenFirst := by decide
  obtain ⟨t, unfolds, walked⟩ := walk_unfolds first 3
  obtain ⟨u, unfolds', walked'⟩ := walk_unfolds first 4
  have mapping : sharing.Unfolds 0 _ := .leaf rfl rfl
  have pair : sharing.Unfolds 1 _ := .two rfl rfl mapping mapping
  obtain rfl := (unfolds _).mp (.one rfl rfl (.two rfl rfl pair pair))
  obtain rfl := (unfolds' _).mp (.missing rfl)
  refine ⟨first, walked.walk, (walked.ends 8 _).mpr ⟨rfl, rfl⟩, ?_, walked.captures 7, walked'.walk⟩
  rw [walked.invalid]
  exact ⟨3, _, .refl 3, rfl, rfl⟩

end Arena

end Phrasebook
