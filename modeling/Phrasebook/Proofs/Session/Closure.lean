import Phrasebook.Proofs.Session.Completion
import Phrasebook.Proofs.Session.FeedOrder
import Phrasebook.Proofs.Session.Queueing

/-!
The chart of a finished pass is closed under the rules: what a propagated match completes, alone or
with another one to its left, is in the arena. A binary rule is tried only when its right operand is
propagated, so everything rests on the order in which matches come: those of one item all stop where
the item does, and the items are handed over in the order of `Feed.Ordered`.
-/

namespace Phrasebook

open Session

/-- `below` occurs in the tree of `root`. -/
inductive Arena.Under (a : Arena) : Nat → Nat → Prop
  | refl (id : Nat) : Under a id id
  | child {root child below : Nat} {m : Match} (found : a.get? root = some m)
      (isChild : child ∈ m.children.toList) (rest : Under a child below) : Under a root below

theorem Arena.Under.keeps {a b : Arena} {root below : Nat} (keeps : a.Keeps b)
    (under : a.Under root below) : b.Under root below := by
  induction under with
  | refl id => exact .refl id
  | child found isChild _ ih =>
    obtain ⟨kind, found'⟩ := keeps _ _ found
    exact .child found' isChild ih

/-- The leaf at the end of the text. -/
def Feed.IsClosing (rules : RuleSet) (tokens : List Token) (m : Match) : Prop :=
  ∃ kind, m = { Feed.closing rules tokens with kind }

/-- The left operand is there before the right one: it stops earlier, or the right one is the end of
the text and the left one was made without it. -/
def Precedes (rules : RuleSet) (tokens : List Token) (a : Arena) (left : Nat) (l r : Match) :
    Prop :=
  l.span.stop < r.span.stop ∨
    (Feed.IsClosing rules tokens r ∧
      ∀ below m, a.Under left below → a.get? below = some m → ¬ Feed.IsClosing rules tokens m)

section
variable {rules : RuleSet} {tokens : List Token}

theorem Feed.IsClosing.setKind {m : Match} (closing : IsClosing rules tokens m)
    (kind : MatchKind) : IsClosing rules tokens { m with kind } := by
  obtain ⟨_, rfl⟩ := closing
  exact ⟨kind, rfl⟩

/-- What precedes in a larger arena has done so before. -/
theorem Precedes.of_keeps {a b : Arena} (keeps : a.Keeps b) {left : Nat} {l r : Match}
    {kl kr : MatchKind}
    (precedes : Precedes rules tokens b left { l with kind := kl } { r with kind := kr }) :
    Precedes rules tokens a left l r := by
  rcases precedes with before | ⟨closing, without⟩
  · exact .inl before
  · refine .inr ⟨closing.setKind r.kind, fun below m under found isClosing => ?_⟩
    obtain ⟨kind, found'⟩ := keeps _ _ found
    exact without below _ (under.keeps keeps) found' (isClosing.setKind kind)

end

/-- A match made while `item` is taken, the first id of which was `base`. -/
structure FeedItem.Gives (tokens : List Token) (item : FeedItem) (base : Nat) (m : Match) :
    Prop where
  stop : m.span.stop = item.stop
  cut : Feed.Cut tokens m.offset
  leaf : m.children = .none → m.offset = item.offset ∧
    ∀ n, item = .symbol n → { m with kind := n.kind } = n
  one : ∀ child, m.children = .one child → base ≤ child
  two : ∀ left right, m.children = .two left right → base ≤ right

namespace FeedItem.Gives

variable {tokens : List Token} {item : FeedItem} {base : Nat} {m : Match}

theorem of_setKind {kind : MatchKind} (h : item.Gives tokens base { m with kind }) :
    item.Gives tokens base m :=
  ⟨h.stop, h.cut, h.leaf, h.one, h.two⟩

theorem ofOne (h : item.Gives tokens base m) {id : Nat} (new : base ≤ id) (symbol : Symbol) :
    item.Gives tokens base { Task.siteOfOne id m with symbol } :=
  ⟨h.stop, h.cut, nofun, by rintro _ ⟨⟩; exact new, nofun⟩

theorem ofPair (h : item.Gives tokens base m) {id left : Nat} {l : Match} (new : base ≤ id)
    (cut : Feed.Cut tokens l.offset) (symbol : Symbol) :
    item.Gives tokens base { Task.siteOfPair left l id m with symbol } :=
  ⟨h.stop, cut, nofun, nofun, by rintro _ _ ⟨⟩; exact new⟩

end FeedItem.Gives

/-- What holds of arena and chart at any time: the chart finds matches under their stops, every
match stands at a cut above smaller ones, and the chart is closed. -/
structure Session.Charted (setting : Setting) (tokens : List Token) (s : Session) : Prop where
  sorted : s.chart.Sorted
  chart : ∀ stop, ∀ id ∈ s.chart.endingAt stop, ∃ m, s.arena.get? id = some m ∧ m.span.stop = stop
  cut : ∀ (id : Nat) m, s.arena.get? id = some m → Feed.Cut tokens m.offset
  smaller : ∀ (id : Nat) m, s.arena.get? id = some m → ∀ child ∈ m.children.toList, child < id
  one : ∀ id m, s.Propagated id → s.arena.get? id = some m →
    ∀ h, setting.HeadOfOne m.symbol h → Made setting s (Task.siteOfOne id m) h
  two : ∀ left l right r, s.Propagated left → s.Propagated right → left ≠ right →
    s.arena.get? left = some l → s.arena.get? right = some r → r.offset = l.span.stop →
    Precedes setting.rules tokens s.arena left l r →
    ∀ h, setting.HeadOfTwo l.symbol r.symbol h → allows h (some r.gap) = true →
      Made setting s (Task.siteOfPair left l right r) h

/-- The state while `item` is taken after the items `done`. Ids from `base` on are new. -/
structure Session.Draining (setting : Setting) (tokens : List Token) (done : List FeedItem)
    (item : FeedItem) (base : Nat) (s : Session) : Prop extends Charted setting tokens s where
  base_le : base ≤ s.arena.size
  old : ∀ id m, id < base → s.arena.get? id = some m → ∃ x ∈ done, x.Gives tokens 0 m
  new : ∀ id m, base ≤ id → s.arena.get? id = some m → item.Gives tokens base m
  queued : ∀ id ∈ s.pending, base ≤ id ∧ id < s.arena.size
  full : setting.Accepting → ∀ id, id < s.arena.size → s.Live id

/-- The state between two items. -/
structure Session.Settled (setting : Setting) (tokens : List Token) (done : List FeedItem)
    (s : Session) : Prop extends Charted setting tokens s where
  idle : s.phase = .idle
  pending : s.pending = []
  origin : ∀ (id : Nat) m, s.arena.get? id = some m → ∃ x ∈ done, x.Gives tokens 0 m
  full : setting.Accepting → ∀ id, id < s.arena.size → s.Propagated id

section
variable {setting : Setting} {tokens : List Token} {done : List FeedItem} {item : FeedItem}
  {base : Nat} {s t : Session}

namespace Session.Draining

/-- Below every new match there is a new leaf. -/
theorem under_leaf (draining : Draining setting tokens done item base s) (id : Nat)
    (new : base ≤ id) {m : Match} (found : s.arena.get? id = some m) :
    ∃ below leaf, s.arena.Under id below ∧ s.arena.get? below = some leaf ∧ base ≤ below ∧
      leaf.children = .none := by
  induction id using Nat.strong_induction_on generalizing m with
  | h id ih =>
    have gives := draining.new id m new found
    have smaller := draining.smaller id m found
    have descend {child : Nat} (isChild : child ∈ m.children.toList) (new : base ≤ child) :
        ∃ below leaf, s.arena.Under id below ∧ s.arena.get? below = some leaf ∧ base ≤ below ∧
          leaf.children = .none := by
      have lt := smaller child isChild
      obtain ⟨c, found'⟩ := Arena.get?_of_lt_size (Nat.lt_trans lt (Arena.lt_size_of_get? found))
      obtain ⟨below, leaf, under, rest⟩ := ih child lt new found'
      exact ⟨below, leaf, .child found isChild under, rest⟩
    cases children : m.children with
    | none => exact ⟨id, m, .refl id, found, new, children⟩
    | one child => exact descend (by simp [children, Children.toList]) (gives.one child children)
    | two left right =>
      exact descend (by simp [children, Children.toList]) (gives.two left right children)

/-- While the end of the text is taken, every new match is made from it. -/
theorem under_closing (draining : Draining setting tokens done item base s) {id : Nat}
    (new : base ≤ id) {m n : Match} (found : s.arena.get? id = some m) (isItem : item = .symbol n)
    (closing : Feed.IsClosing setting.rules tokens n) :
    ∃ below leaf, s.arena.Under id below ∧ s.arena.get? below = some leaf ∧
      Feed.IsClosing setting.rules tokens leaf := by
  obtain ⟨below, leaf, under, found', new', none⟩ := draining.under_leaf id new found
  have eq := ((draining.new below leaf new' found').leaf none).2 n isItem
  refine ⟨below, leaf, under, found', ?_⟩
  have := (eq.symm ▸ closing).setKind leaf.kind
  exact this

/-- A new match is no left operand of a match that is there already. -/
theorem not_precedes (draining : Draining setting tokens done item base s)
    (order : ∀ x ∈ done, Feed.Before setting.rules tokens x item)
    (terminal : ∀ span offset text, item = .terminal span offset text → offset < span.stop)
    {left right : Nat} {l r : Match} (new : base ≤ left) (foundl : s.arena.get? left = some l)
    (foundr : s.arena.get? right = some r) (adjacent : r.offset = l.span.stop) :
    ¬ Precedes setting.rules tokens s.arena left l r := by
  have stop := (draining.new left l new foundl).stop
  have built {n : Match} (isItem : item = .symbol n)
      (closing : Feed.IsClosing setting.rules tokens n)
      (without : ∀ below m, s.arena.Under left below → s.arena.get? below = some m →
        ¬ Feed.IsClosing setting.rules tokens m) : False := by
    obtain ⟨below, leaf, under, found, isClosing⟩ :=
      draining.under_closing new foundl isItem closing
    exact without below leaf under found isClosing
  by_cases fresh : base ≤ right
  · have gives := draining.new right r fresh foundr
    rintro (before | ⟨closing, without⟩)
    · have := gives.stop
      omega
    · obtain ⟨kind, isR⟩ := closing
      obtain ⟨offset, same⟩ := gives.leaf (by rw [isR]; rfl)
      cases isItem : item with
      | terminal span offset' text =>
        have := terminal span offset' text isItem
        simp only [isItem, FeedItem.offset, FeedItem.stop] at offset stop
        omega
      | symbol n =>
        refine built isItem ?_ without
        rw [← same n isItem, isR]
        exact ⟨n.kind, rfl⟩
  · obtain ⟨x, isDone, gives⟩ := draining.old right r (by omega) foundr
    obtain ⟨earlier, empty⟩ := order x isDone
    have cut : Feed.Cut tokens item.stop := by
      rw [← stop, ← adjacent]
      exact gives.cut
    have le := earlier cut
    have stops := gives.stop
    rintro (before | ⟨closing, without⟩)
    · omega
    · obtain ⟨kind, isR⟩ := closing
      have offset := (gives.leaf (by rw [isR]; rfl)).1
      have zero : r.span.stop = r.offset := by rw [isR]; rfl
      exact built (empty (by omega) (by omega)) ⟨_, rfl⟩ without

/-- What is made while `item` is taken, from matches below `bound`. -/
def Makes (tokens : List Token) (item : FeedItem) (base bound : Nat) (m : Match) : Prop :=
  item.Gives tokens base m ∧ ∀ child ∈ m.children.toList, child < bound

/-- A match of `t` is one of `s`, perhaps of another kind, or a new one. -/
theorem get?_cases {P : Match → Prop} (works : Works setting base P s t) {id : Nat} {m : Match}
    (found : t.arena.get? id = some m) :
    (∃ kind, s.arena.get? id = some { m with kind }) ∨
      (s.arena.size ≤ id ∧ ∃ kind, P { m with kind }) := by
  by_cases later : s.arena.size ≤ id
  · exact .inr ⟨later, works.new id m later found⟩
  · obtain ⟨n, found'⟩ := Arena.get?_of_lt_size (Nat.lt_of_not_le later)
    obtain ⟨kind, kept⟩ := works.keeps id n found'
    obtain rfl := Option.some.inj (found.symm.trans kept)
    exact .inl ⟨n.kind, found'⟩

/-- Work that leaves the chart alone and makes matches of `item` only. -/
theorem of_works (draining : Draining setting tokens done item base s)
    (works : Works setting base (Makes tokens item base s.arena.size) s t) :
    Draining setting tokens done item base t := by
  have propagated (id : MatchId) (h : t.Propagated id) : s.Propagated id := by
    obtain ⟨stop, member⟩ := h
    exact ⟨stop, works.chart ▸ member⟩
  have before {id : MatchId} {m : Match} (h : t.Propagated id) (found : t.arena.get? id = some m) :
      ∃ kind, s.arena.get? id = some { m with kind } := by
    obtain ⟨stop, member⟩ := propagated id h
    obtain ⟨n, found', _⟩ := draining.chart stop id member
    obtain ⟨kind, kept⟩ := works.keeps id n found'
    obtain rfl := Option.some.inj (found.symm.trans kept)
    exact ⟨n.kind, found'⟩
  refine
    { sorted := ?sorted
      chart := fun stop id member => ?chart
      cut := fun id m found => ?cut
      smaller := fun id m found child member => ?smaller
      one := fun id m inChart found h isHead => ?one
      two := fun left l right r inLeft inRight ne foundl foundr adjacent precedes h isHead allowed =>
        ?two
      base_le := Nat.le_trans draining.base_le works.size_le
      old := fun id m lt found => ?old
      new := fun id m le found => ?new
      queued := fun id member => ?queued
      full := fun accepting id lt => ?full }
  case sorted =>
    rw [works.chart]
    exact draining.sorted
  case chart =>
    obtain ⟨m, found, eq⟩ := draining.chart stop id (works.chart ▸ member)
    obtain ⟨kind, found'⟩ := works.keeps id m found
    exact ⟨_, found', eq⟩
  case cut =>
    rcases get?_cases works found with ⟨kind, found'⟩ | ⟨_, kind, makes⟩
    · have cut := draining.cut id _ found'
      exact cut
    · exact makes.1.cut
  case smaller =>
    rcases get?_cases works found with ⟨kind, found'⟩ | ⟨later, kind, makes⟩
    · exact draining.smaller id _ found' child member
    · exact Nat.lt_of_lt_of_le (makes.2 child member) later
  case one =>
    obtain ⟨kind, found'⟩ := before inChart found
    exact (draining.one id _ (propagated id inChart) found' h isHead).grows works.toGrows
  case two =>
    obtain ⟨kl, foundl'⟩ := before inLeft foundl
    obtain ⟨kr, foundr'⟩ := before inRight foundr
    have earlier : Precedes setting.rules tokens s.arena left { l with kind := kl }
        { r with kind := kr } :=
      Precedes.of_keeps works.keeps precedes
    exact (draining.two left _ right _ (propagated left inLeft) (propagated right inRight) ne
      foundl' foundr' adjacent earlier h isHead allowed).grows works.toGrows
  case old =>
    rcases get?_cases works found with ⟨kind, found'⟩ | ⟨later, _⟩
    · obtain ⟨x, isDone, gives⟩ := draining.old id _ lt found'
      exact ⟨x, isDone, gives.of_setKind⟩
    · have := draining.base_le
      omega
  case new =>
    rcases get?_cases works found with ⟨kind, found'⟩ | ⟨_, kind, makes⟩
    · exact (draining.new id _ le found').of_setKind
    · exact makes.1.of_setKind
  case queued =>
    rcases works.queued id member with old | new
    · have ⟨from_, inside⟩ := draining.queued id old
      exact ⟨from_, Nat.lt_of_lt_of_le inside works.size_le⟩
    · exact new
  case full =>
    by_cases later : s.arena.size ≤ id
    · exact .inl (works.full accepting id later lt)
    · exact works.live id (draining.full accepting id (Nat.lt_of_not_le later))

end Session.Draining

/-- The first match of the queue moves into the chart. -/
def Session.entered (s : Session) (id : MatchId) (m : Match) (rest : List MatchId) : Session :=
  { s with pending := rest, chart := s.chart.insert m.span.stop id }

/-- A match stays live when it moves from the queue into the chart. -/
theorem Session.grows_entered {id : Nat} {rest : List MatchId} (sorted : s.chart.Sorted)
    (queue : s.pending = id :: rest) (m : Match) : Grows s (s.entered id m rest) := by
  have propagated {other : MatchId} : (s.entered id m rest).Propagated other ↔ _ :=
    propagated_insert sorted rfl
  refine ⟨.refl _, Nat.le_refl _, fun _ member => member, fun other live => ?_⟩
  rcases live with queued | before
  · rw [queue] at queued
    rcases List.mem_cons.mp queued with rfl | later
    · exact .inr (propagated.mpr (.inl rfl))
    · exact .inl later
  · exact .inr (propagated.mpr (.inr before))

namespace Session.Draining

/-- The first match of the queue enters the chart once everything it completes is made. -/
theorem insert {id : Nat} {m : Match} {rest : List MatchId}
    (draining : Draining setting tokens done item base s)
    (order : ∀ x ∈ done, Feed.Before setting.rules tokens x item)
    (terminal : ∀ span offset text, item = .terminal span offset text → offset < span.stop)
    (queue : s.pending = id :: rest) (found : s.arena.get? id = some m)
    (one : ∀ h, setting.HeadOfOne m.symbol h →
      Made setting (s.entered id m rest) (Task.siteOfOne id m) h)
    (two : ∀ left l, s.Propagated left → left ≠ id → s.arena.get? left = some l →
      m.offset = l.span.stop → ∀ h, setting.HeadOfTwo l.symbol m.symbol h →
      allows h (some m.gap) = true →
      Made setting (s.entered id m rest) (Task.siteOfPair left l id m) h) :
    Draining setting tokens done item base (s.entered id m rest) := by
  have grows := grows_entered draining.sorted queue m
  have fresh : base ≤ id := (draining.queued id (queue ▸ List.mem_cons_self)).1
  have inserted (stop : Nat) : (s.entered id m rest).chart.endingAt stop = _ :=
    Chart.endingAt_insert draining.sorted m.span.stop stop id
  have propagated {other : MatchId} (h : (s.entered id m rest).Propagated other) :
      other = id ∨ s.Propagated other := (propagated_insert draining.sorted rfl).mp h
  refine
    { draining with
      sorted := draining.sorted.insert _ _
      chart := fun stop other member => ?chart
      one := fun other n inChart found' h isHead => ?one
      two := fun left l right r inLeft inRight ne foundl foundr adjacent precedes h isHead allowed =>
        ?two
      queued := fun other member => draining.queued other (queue ▸ List.mem_cons_of_mem _ member)
      full := fun accepting other lt => grows.live other (draining.full accepting other lt) }
  case chart =>
    rw [inserted] at member
    split at member
    · next here =>
      rcases List.mem_cons.mp member with rfl | member
      · exact ⟨m, found, here.symm⟩
      · exact draining.chart stop other member
    · exact draining.chart stop other member
  case one =>
    rcases propagated inChart with rfl | inChart
    · obtain rfl := Option.some.inj (found.symm.trans found')
      exact one h isHead
    · exact (draining.one other n inChart found' h isHead).grows grows
  case two =>
    rcases propagated inRight with rfl | inRight
    · obtain rfl := Option.some.inj (found.symm.trans foundr)
      rcases propagated inLeft with same | inLeft
      · exact absurd same ne
      · exact two left l inLeft ne foundl adjacent h isHead allowed
    · rcases propagated inLeft with rfl | inLeft
      · exact absurd precedes
          (draining.not_precedes order terminal fresh foundl foundr adjacent)
      · exact (draining.two left l right r inLeft inRight ne foundl foundr adjacent precedes h isHead
          allowed).grows grows

/-- The match `left` stands in the chart where `m`, the match `id`, goes on. -/
def IsLeft (s : Session) (id : Nat) (m : Match) (left : MatchId) (l : Match) : Prop :=
  s.Propagated left ∧ left ≠ id ∧ (∃ kind, s.arena.get? left = some { l with kind }) ∧
    m.offset = l.span.stop

/-- All that the first match of the queue completes is made, and nothing but that. -/
theorem propagate_makes {id : Nat} {m : Match} {rest : List MatchId}
    (draining : Draining setting tokens done item base s) (queue : s.pending = id :: rest)
    (found : s.arena.get? id = some m) :
    Works setting base (Makes tokens item base s.arena.size) (s.entered id m rest)
        (Session.propagate setting .collector { s with pending := rest } id) ∧
      ∀ shard ∈ setting.shards, MadeIn setting id m (IsLeft s id m) shard
        (Session.propagate setting .collector { s with pending := rest } id) := by
  have fresh : base ≤ id := (draining.queued id (queue ▸ List.mem_cons_self)).1
  have gives := draining.new id m fresh found
  have inserted (stop : Nat) : (s.chart.insert m.span.stop id).endingAt stop = _ :=
    Chart.endingAt_insert draining.sorted m.span.stop stop id
  refine propagate_works (s := { s with pending := rest }) found ?_ ?_ ?_ draining.base_le ?_
  · intro left member
    rw [inserted] at member
    split at member
    · rcases List.mem_cons.mp member with rfl | member
      · exact ⟨m, found⟩
      · exact (draining.chart _ left member).imp fun _ h => h.1
    · exact (draining.chart _ left member).imp fun _ h => h.1
  · intro symbol
    refine ⟨gives.ofOne fresh symbol, fun child member => ?_⟩
    obtain rfl : child = id := by simpa [Task.siteOfOne, Children.toList] using member
    exact Arena.lt_size_of_get? found
  · intro left _ l foundl symbol
    refine ⟨gives.ofPair fresh (draining.cut left l foundl) symbol, fun child member => ?_⟩
    have either : child = left ∨ child = id := by
      simpa [Task.siteOfPair, Children.toList] using member
    rcases either with rfl | rfl
    · exact Arena.lt_size_of_get? foundl
    · exact Arena.lt_size_of_get? found
  · rintro left l ⟨⟨stop, member⟩, ne, ⟨kind, foundl⟩, adjacent⟩
    refine ⟨?_, ne, kind, foundl⟩
    obtain ⟨n, found', eq⟩ := draining.chart stop left member
    obtain rfl := Option.some.inj (foundl.symm.trans found')
    rw [inserted, adjacent, show l.span.stop = stop from eq]
    split
    · exact List.mem_cons_of_mem _ member
    · exact member

/-- Propagating the first match of the queue. -/
theorem propagate {id : Nat} {rest : List MatchId}
    (draining : Draining setting tokens done item base s)
    (order : ∀ x ∈ done, Feed.Before setting.rules tokens x item)
    (terminal : ∀ span offset text, item = .terminal span offset text → offset < span.stop)
    (queue : s.pending = id :: rest) :
    Draining setting tokens done item base
        (Session.propagate setting .collector { s with pending := rest } id) ∧
      Grows s (Session.propagate setting .collector { s with pending := rest } id) := by
  obtain ⟨fresh, inside⟩ := draining.queued id (queue ▸ List.mem_cons_self)
  obtain ⟨m, found⟩ := Arena.get?_of_lt_size inside
  obtain ⟨works, made⟩ := draining.propagate_makes queue found
  generalize Session.propagate setting .collector { s with pending := rest } id = t at works made ⊢
  have grows : Grows s t := (grows_entered draining.sorted queue m).trans works.toGrows
  refine ⟨?_, grows⟩
  -- With the old chart, all is made but the match itself is still queued.
  have works' : Works setting base (Makes tokens item base s.arena.size) s
      { t with chart := s.chart, pending := id :: t.pending } := by
    have stays (other : MatchId) (member : other ∈ s.pending) : other ∈ id :: t.pending := by
      rw [queue] at member
      rcases List.mem_cons.mp member with rfl | later
      · exact List.mem_cons_self
      · exact List.mem_cons_of_mem _ (works.pending other later)
    refine ⟨⟨grows.keeps, grows.dropped, grows.derivations, fun _ live => live.mono rfl stays⟩, rfl,
      works.phase, works.new, stays, fun other member => ?_, fun accepting other old new =>
        List.mem_cons_of_mem _ (works.full accepting other old new)⟩
    rw [queue]
    rcases List.mem_cons.mp member with rfl | later
    · exact .inl List.mem_cons_self
    · exact (works.queued other later).imp_left (List.mem_cons_of_mem _)
  obtain ⟨kind, found'⟩ := grows.keeps id m found
  have entered : Session.entered { t with chart := s.chart, pending := id :: t.pending } id
      { m with kind } t.pending = t := by
    rw [Session.entered, ← show t.chart = s.chart.insert m.span.stop id from works.chart]
  have charted := (draining.of_works works').insert order terminal rfl found' ?_ ?_
  · rwa [entered] at charted
  · rw [entered]
    rintro h ⟨shard, active, set, member, isSet⟩
    exact (made shard active).1 set isSet h member
  · rw [entered]
    rintro left l ⟨stop, inStop⟩ ne foundl adjacent h ⟨shard, active, set, member, isSet⟩ allowed
    obtain ⟨n, foundn, _⟩ := draining.chart stop left inStop
    obtain ⟨kn, kept⟩ := grows.keeps left n foundn
    obtain rfl : l = { n with kind := kn } := Option.some.inj (foundl.symm.trans kept)
    have isLeft : IsLeft s id m left { n with kind := kn } :=
      ⟨⟨stop, inStop⟩, ne, ⟨n.kind, foundn⟩, adjacent⟩
    exact (made shard active).2 left _ isLeft set isSet h member allowed

/-- Draining the queue leaves it empty and the chart closed. -/
theorem drain (draining : Draining setting tokens done item base s)
    (order : ∀ x ∈ done, Feed.Before setting.rules tokens x item)
    (terminal : ∀ span offset text, item = .terminal span offset text → offset < span.stop) :
    Draining setting tokens done item base (Session.drain setting .collector s) ∧
      Grows s (Session.drain setting .collector s) ∧
      (Session.drain setting .collector s).pending = [] := by
  fun_induction Session.drain setting .collector s with
  | case1 s queue => exact ⟨draining, .refl s, queue⟩
  | case2 s id rest queue ih =>
    obtain ⟨after, grows⟩ := draining.propagate order terminal queue
    obtain ⟨last, grows', empty⟩ := ih after
    exact ⟨last, grows.trans grows', empty⟩

end Session.Draining

/-- What an item asks for is in the arena: the literals that read a piece, or the symbol itself. -/
def FeedItem.Served (setting : Setting) (s : Session) : FeedItem → Prop
  | .terminal span offset text =>
    ∀ h, setting.HeadOfText text h → Made setting s (Task.siteOfText span offset) h
  | .symbol m =>
    0 < s.stats.dropped ∨
      ∃ (id : Nat) (kind : MatchKind), s.arena.get? id = some { m with kind } ∧ s.Live id

theorem FeedItem.Served.grows (grows : Grows s t) (served : item.Served setting s) :
    item.Served setting t := by
  cases item with
  | terminal span offset text => exact fun h isHead => (served h isHead).grows grows
  | symbol m =>
    rcases served with dropped | ⟨id, kind, found, live⟩
    · exact .inl (Nat.lt_of_lt_of_le dropped grows.dropped)
    · obtain ⟨kind', found'⟩ := grows.keeps id _ found
      exact .inr ⟨id, kind', found', grows.live id live⟩

namespace Session.Settled

theorem empty (setting : Setting) (tokens : List Token) : Settled setting tokens [] {} := by
  have nothing (id : Nat) (m : Match) : ({} : Session).arena.get? id ≠ some m := by
    simp [Arena.get?]
  have outside (id : MatchId) : ¬ ({} : Session).Propagated id := by
    rintro ⟨stop, member⟩
    simp at member
  exact
    { sorted := Chart.sorted_empty
      chart := by simp
      cut := fun id m found => absurd found (nothing id m)
      smaller := fun id m found => absurd found (nothing id m)
      one := fun id m inChart => absurd inChart (outside id)
      two := fun left l right r inChart => absurd inChart (outside left)
      idle := rfl
      pending := rfl
      origin := fun id m found => absurd found (nothing id m)
      full := fun _ id lt => absurd lt (by simp [Arena.size]) }

/-- At the start of an item nothing is new. -/
theorem draining (settled : Settled setting tokens done s) :
    Draining setting tokens done item s.arena.size s :=
  { settled with
    base_le := Nat.le_refl _
    old := fun id m _ found => settled.origin id m found
    new := fun id m le found => absurd (Arena.lt_size_of_get? found) (by omega)
    queued := by simp [settled.pending]
    full := fun accepting id lt => .inr (settled.full accepting id lt) }

/-- An item is done when its queue is empty. -/
theorem of_drained (drained : Draining setting tokens done item base s)
    (idle : s.phase = .idle) (empty : s.pending = []) :
    Settled setting tokens (done ++ [item]) s := by
  refine ⟨drained.toCharted, idle, empty, fun id m found => ?_, fun accepting id lt => ?_⟩
  · by_cases new : base ≤ id
    · have gives := drained.new id m new found
      exact ⟨item, by simp, gives.stop, gives.cut, gives.leaf, fun _ _ => Nat.zero_le _,
        fun _ _ _ => Nat.zero_le _⟩
    · obtain ⟨x, isDone, gives⟩ := drained.old id m (by omega) found
      exact ⟨x, by simp [isDone], gives⟩
  · rcases drained.full accepting id lt with queued | inChart
    · rw [empty] at queued
      cases queued
    · exact inChart

/-- Processing what an item has queued. -/
theorem of_process (draining : Draining setting tokens done item base s)
    (order : ∀ x ∈ done, Feed.Before setting.rules tokens x item)
    (terminal : ∀ span offset text, item = .terminal span offset text → offset < span.stop)
    (idle : s.phase = .idle) :
    Settled setting tokens (done ++ [item]) (process setting .collector s) ∧
      Grows s (process setting .collector s) := by
  have started : Draining setting tokens done item base { s with phase := .processing } :=
    { draining with }
  obtain ⟨drained, grows, empty⟩ := started.drain order terminal
  simp only [process, idle]
  exact ⟨of_drained { drained with } rfl empty, grows.keeps, grows.dropped, grows.derivations,
    grows.live⟩

theorem addTerminal_eq (span : Span) (offset : Nat) (text : String) :
    addTerminal setting .collector s span offset text =
      process setting .collector (setting.shards.foldl
        (matchLiteral setting .collector (Task.siteOfText span offset) text (Lowercase.text text))
        { s with stats := { s.stats with terminals := s.stats.terminals + 1 } }) :=
  rfl

/-- The literals of a piece are made before anything is propagated. -/
theorem take_terminal {span : Span} {offset : Nat} {text : String}
    (settled : Settled setting tokens done s)
    (order : ∀ x ∈ done, Feed.Before setting.rules tokens x (.terminal span offset text))
    (covers : offset < span.stop) (cut : Feed.Cut tokens offset) :
    Settled setting tokens (done ++ [.terminal span offset text])
        (addTerminal setting .collector s span offset text) ∧
      Grows s (addTerminal setting .collector s span offset text) ∧
      ∀ h, setting.HeadOfText text h →
        Made setting (addTerminal setting .collector s span offset text) (Task.siteOfText span offset) h := by
  obtain ⟨works, made⟩ : Works setting s.arena.size
      (Draining.Makes tokens (.terminal span offset text) s.arena.size s.arena.size)
      { s with stats := { s.stats with terminals := s.stats.terminals + 1 } }
      (setting.shards.foldl (matchLiteral setting .collector (Task.siteOfText span offset) text
        (Lowercase.text text))
        { s with stats := { s.stats with terminals := s.stats.terminals + 1 } }) ∧ _ :=
    literals_works (fun symbol => ⟨⟨rfl, cut, fun _ => ⟨rfl, nofun⟩, nofun, nofun⟩, nofun⟩)
      (Nat.le_refl _)
  rw [addTerminal_eq]
  generalize List.foldl _ _ setting.shards = t at works made ⊢
  have first : Grows s t := ⟨works.keeps, works.dropped, works.derivations, works.live⟩
  have queued : Draining setting tokens done (.terminal span offset text) s.arena.size t :=
    settled.draining.of_works ⟨first, works.chart, works.phase, works.new, works.pending,
      works.queued, works.full⟩
  obtain ⟨after, grows⟩ := of_process queued order (by rintro _ _ _ ⟨⟩; exact covers)
    (works.phase.trans settled.idle)
  exact ⟨after, first.trans grows, fun h isHead => (made h isHead).grows grows⟩

/-- A symbol is added and propagated at once. -/
theorem take_symbol {m : Match} (settled : Settled setting tokens done s)
    (order : ∀ x ∈ done, Feed.Before setting.rules tokens x (.symbol m))
    (leaf : m.children = .none) (cut : Feed.Cut tokens m.offset) :
    Settled setting tokens (done ++ [.symbol m]) (addNew setting .collector s m) ∧
      Grows s (addNew setting .collector s m) ∧
      (FeedItem.symbol m).Served setting (addNew setting .collector s m) := by
  have makes : Draining.Makes tokens (.symbol m) s.arena.size s.arena.size m := by
    refine ⟨⟨rfl, cut, fun _ => ⟨rfl, ?_⟩, by simp [leaf], by simp [leaf]⟩,
      by simp [leaf, Children.toList]⟩
    rintro n ⟨⟩
    rfl
  rw [addNew]
  rcases allocate_cases s setting.capacity m with ⟨room, made⟩ | ⟨full, dropped⟩
  · rw [made]
    have works : Works setting s.arena.size
        (Draining.Makes tokens (.symbol m) s.arena.size s.arena.size) s
        ((s.withFired m {}).enqueue s.arena.size) := by
      refine works_withFired s (Nat.le_refl _) makes rfl rfl rfl rfl rfl ?_ ?_ ?_
      · exact fun id member => List.mem_cons_of_mem _ member
      · exact fun id member => (List.mem_cons.mp member).symm
      · exact fun _ => List.mem_cons_self
    obtain ⟨after, grows⟩ := of_process (settled.draining.of_works works) order
      (by rintro _ _ _ ⟨⟩) (works.phase.trans settled.idle)
    obtain ⟨kind, found⟩ := get?_withFired s m {}
    have served : (FeedItem.symbol m).Served setting ((s.withFired m {}).enqueue s.arena.size) :=
      .inr ⟨s.arena.size, kind, found, .inl List.mem_cons_self⟩
    exact ⟨after, works.toGrows.trans grows, served.grows grows⟩
  · rw [dropped]
    have works : Works setting s.arena.size
        (Draining.Makes tokens (.symbol m) s.arena.size s.arena.size) s _ := works_dropped s
    exact ⟨of_drained (settled.draining.of_works works) settled.idle settled.pending, works.toGrows,
      .inl (by simp)⟩

/-- All items, one after another. -/
theorem takeAll {rest : List FeedItem} (settled : Settled setting tokens done s)
    (ordered : Feed.Ordered setting.rules tokens (done ++ rest)) :
    Settled setting tokens (done ++ rest) (rest.foldl (Session.take setting .collector) s) ∧
      Grows s (rest.foldl (Session.take setting .collector) s) ∧
      ∀ item ∈ rest, item.Served setting (rest.foldl (Session.take setting .collector) s) := by
  induction rest generalizing done s with
  | nil => exact ⟨by simpa using settled, .refl s, by simp⟩
  | cons item rest ih =>
    have here : item ∈ done ++ item :: rest := by simp
    have order : ∀ x ∈ done, Feed.Before setting.rules tokens x item := fun x member =>
      (List.pairwise_append.mp ordered.order).2.2 x member item List.mem_cons_self
    have cut := ordered.offsets item here
    obtain ⟨after, grows, served⟩ : Settled setting tokens (done ++ [item])
          (Session.take setting .collector s item) ∧
        Grows s (Session.take setting .collector s item) ∧
        item.Served setting (Session.take setting .collector s item) := by
      cases item with
      | terminal span offset text =>
        exact settled.take_terminal order (ordered.terminals span offset text here) cut
      | symbol m => exact settled.take_symbol order (ordered.leaves m here) cut
    have split : done ++ item :: rest = (done ++ [item]) ++ rest := by simp
    rw [split] at ordered ⊢
    obtain ⟨last, grows', others⟩ := ih after ordered
    refine ⟨last, grows.trans grows', fun other member => ?_⟩
    rcases List.mem_cons.mp member with rfl | member
    · exact served.grows grows'
    · exact others other member

end Session.Settled

end

/-- The session of a pass is settled, and every item of the text has what it asked for. -/
theorem Pass.session_settled (setting : Setting) {tokens : List Token} {labels : List Label}
    (laid : Token.Laid tokens) (fit : Feed.LabelsFit tokens labels) :
    (Pass.session setting tokens labels).Settled setting tokens
        (Pass.feed setting.rules tokens labels) ∧
      ∀ item ∈ Pass.feed setting.rules tokens labels,
        item.Served setting (Pass.session setting tokens labels) := by
  have ordered := Pass.feed_ordered setting.rules laid fit
  obtain ⟨settled, _, served⟩ := (Settled.empty setting tokens).takeAll ordered
  rw [Pass.session_eq_foldl]
  exact ⟨settled, served⟩

/-- Every rule that propagated matches complete has its match in the arena. -/
structure Session.ClosedUnder (setting : Setting) (tokens : List Token) (s : Session) : Prop where
  one : ∀ id m, s.Propagated id → s.arena.get? id = some m →
    ∀ h, setting.HeadOfOne m.symbol h →
      ∃ (other : Nat) (n : Match), s.arena.get? other = some n ∧ n.symbol = h.symbol ∧
        n.children = .one id
  two : ∀ left l right r, s.Propagated left → s.Propagated right → left ≠ right →
    s.arena.get? left = some l → s.arena.get? right = some r → r.offset = l.span.stop →
    Precedes setting.rules tokens s.arena left l r →
    ∀ h, setting.HeadOfTwo l.symbol r.symbol h → (h.gap < 0 ∨ (r.gap : Int) ≤ h.gap.toInt) →
      ∃ (other : Nat) (n : Match), s.arena.get? other = some n ∧ n.symbol = h.symbol ∧
        n.children = .two left right

/-- A pass that drops no match ends with a closed chart. What has been in the queue on the way is in
that chart, and nothing else is. -/
theorem Pass.session_closed (rules : RuleSet) (locales : List Locale) (limit : Nat)
    (tokens : List Token) (labels : List Label) (laid : Token.Laid tokens)
    (fit : Feed.LabelsFit tokens labels)
    (whole : (Pass.session (.ofRules rules locales limit) tokens labels).stats.dropped = 0) :
    (Pass.session (.ofRules rules locales limit) tokens labels).ClosedUnder
        (.ofRules rules locales limit) tokens ∧
      ∀ id, (Pass.session (.ofRules rules locales limit) tokens labels).Propagated id ↔
        ∃ a, Machine.Reaches (.ofRules rules locales limit) .collector
          (Pass.start (.ofRules rules locales limit) tokens labels) a ∧ id ∈ a.session.pending := by
  obtain ⟨settled, _⟩ := Pass.session_settled (.ofRules rules locales limit) laid fit
  refine ⟨?_, fun id => Pass.propagated_iff_waited settled.pending⟩
  generalize Pass.session (.ofRules rules locales limit) tokens labels = s at *
  have there {site : Match} {h : Head}
      (made : Made (.ofRules rules locales limit) s site h) :
      ∃ (other : Nat) (n : Match), s.arena.get? other = some n ∧ n.symbol = h.symbol ∧
        n.children = site.children := by
    rcases made with dropped | ⟨id, kind, found, _, _⟩
    · omega
    · exact ⟨id, _, found, rfl, rfl⟩
  constructor
  · intro id m inChart found h isHead
    exact there (settled.one id m inChart found h isHead)
  · intro left l right r inLeft inRight ne foundl foundr adjacent precedes h isHead within
    have allowed : allows h (some r.gap) = true := by
      simpa only [allows, Bool.or_eq_true, decide_eq_true_eq] using within
    exact there (settled.two left l right r inLeft inRight ne foundl foundr adjacent precedes h isHead
      allowed)

set_option maxRecDepth 10000 in
theorem Pass.session_closed_ends :
    (Pass.session (.ofRules .ends [] 1000) [⟨"1", ⟨0, 1⟩⟩] [⟨"n", ⟨0, 1⟩⟩]).ClosedUnder
      (.ofRules .ends [] 1000) [⟨"1", ⟨0, 1⟩⟩] := by
  refine (Pass.session_closed .ends [] 1000 _ _ ⟨by simp, by simpa using by decide⟩ ?_ (by cbv)).1
  intro label member
  obtain rfl := List.mem_singleton.mp member
  exact ⟨Nat.zero_lt_one, by cbv⟩

end Phrasebook
