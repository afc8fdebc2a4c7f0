import Phrasebook.Proofs.Grammar.Placement
import Phrasebook.Proofs.Text.NulFree

/-!
What the symbols of a normal form mean while it is built. A model says which leaf sequences each
symbol stands for: the productions never lead out of it, and a symbol that may be shared stands for
no more than its one right-hand side reads. Every operation extends the model, and its symbol stands
for exactly what it was given to add.
-/

namespace Phrasebook

/-- What each symbol derives. -/
abbrev Meaning (α : Type) := Symbol → List α → Prop

namespace Meaning

/-- No symbol derives the empty sequence. -/
def Solid (M : Meaning α) : Prop := ∀ s w, M s w → w ≠ []

/-- The two say the same about the symbols up to `last`. -/
def Agrees (last : Symbol) (M N : Meaning α) : Prop := ∀ s, s ≤ last → ∀ w, M s w ↔ N s w

theorem Agrees.refl (last : Symbol) (M : Meaning α) : Agrees last M M := fun _ _ _ => .rfl

theorem Agrees.trans {last later : Symbol} {M N K : Meaning α} (first : Agrees last M N)
    (second : Agrees later N K) (le : last ≤ later) : Agrees last M K :=
  fun s bound w => (first s bound w).trans (second s (Nat.le_trans bound le) w)

/-- The language hangs on the meanings of the symbols up to `last` only. -/
def Local (last : Symbol) (L : Meaning α → List α → Prop) : Prop :=
  ∀ M N, Agrees last M N → ∀ w, L M w ↔ L N w

theorem Local.mono {last later : Symbol} {L : Meaning α → List α → Prop} (le : last ≤ later)
    (isLocal : Local last L) : Local later L :=
  fun M N agrees => isLocal M N fun s bound => agrees s (Nat.le_trans bound le)

end Meaning

open Meaning

theorem Body.reads_local {R : Reading κ α} {b : Body} {last : Symbol} {gap : Int8}
    (bound : ∀ s ∈ b.symbols, s ≤ last) : Local last fun M => b.Reads R M gap := by
  intro M N agrees w
  constructor
  · exact Reads.mono fun s member v => (agrees s (bound s member) v).mp
  · exact Reads.mono fun s member v => (agrees s (bound s member) v).mpr

namespace NormalForm

/-- No symbol in use is larger than the last one handed out, and literals have no NUL. -/
structure Bounded (n : NormalForm) : Prop where
  heads : ∀ b h, n.Has b h → h.symbol ≤ n.numbering.last
  bodies : ∀ b, n.Keyed b → ∀ s ∈ b.symbols, s ≤ n.numbering.last
  own : ∀ s, n.isUnshareable s = true → s ≤ n.numbering.last
  literals : ∀ text caseSensitive, n.Keyed (.literal text caseSensitive) → NulFree text

/-- A meaning that the productions do not lead out of and that shareable symbols fill. Callbacks
that are not exclusions fire only where `Allowed` says so. -/
structure Model (n : NormalForm) (R : Reading κ α) (Allowed : Callback → List α → Prop)
    (M : Meaning α) : Prop where
  solid : M.Solid
  sound : n.Closed R M
  sharp : ∀ b h, n.Has b h → n.isUnshareable h.symbol = false →
    ∀ w, M h.symbol w → b.Reads R M h.gap w
  loud : ∀ b h, n.Has b h → h.callback.isSilent = false → h.callback.id ≠ Builtin.exclusion.id →
    ∀ w, b.Reads R M h.gap w → Allowed h.callback w

/-- Productions stay, but for callbacks that silent ones take over. -/
def Extends (n after : NormalForm) : Prop :=
  ∀ b h, n.Has b h → after.Has b h ∨
    (h.callback.isSilent = true ∧ ∃ k, after.Has b k ∧ k.symbol = h.symbol ∧ k.gap = h.gap)

theorem Extends.refl (n : NormalForm) : n.Extends n := fun _ _ => .inl

theorem Extends.trans {n m k : NormalForm} (first : n.Extends m) (second : m.Extends k) :
    n.Extends k := by
  intro b h has
  rcases first b h has with stays | ⟨silent, h', has', symbol, gap⟩
  · exact second b h stays
  · refine .inr ⟨silent, ?_⟩
    rcases second b h' has' with stays | ⟨_, h'', has'', symbol', gap'⟩
    · exact ⟨h', stays, symbol, gap⟩
    · exact ⟨h'', has'', symbol'.trans symbol, gap'.trans gap⟩

/-- A production with the callback reads the leaves. -/
def FiresUnder (n : NormalForm) (R : Reading κ α) (M : Meaning α) (callback : Callback)
    (w : List α) : Prop :=
  ∃ b h, n.Has b h ∧ h.callback = callback ∧ b.Reads R M h.gap w

section
variable {R : Reading κ α} {n after : NormalForm} {D : Meaning α}

theorem Closed.of_extends (extends_ : n.Extends after) (closed : after.Closed R D) :
    n.Closed R D := by
  intro b h has w reads
  rcases extends_ b h has with stays | ⟨_, k, has', symbol, gap⟩
  · exact closed b h stays w reads
  · rw [← symbol]
    exact closed b k has' w (gap ▸ reads)

theorem FiresUnder.extends {callback : Callback} {w : List α} (extends_ : n.Extends after)
    (loud : callback.isSilent = false) (fires : n.FiresUnder R D callback w) :
    after.FiresUnder R D callback w := by
  obtain ⟨b, h, has, eq, reads⟩ := fires
  rcases extends_ b h has with stays | ⟨silent, _⟩
  · exact ⟨b, h, stays, eq, reads⟩
  · rw [eq, loud] at silent
    cases silent

end

/-- What stays fixed while productions are added. -/
structure Keeps (n after : NormalForm) : Prop where
  productions : n.Extends after
  last : n.numbering.last ≤ after.numbering.last
  unshareable : after.numbering.unshareable = n.numbering.unshareable
  byName : after.numbering.byName = n.numbering.byName
  names : after.numbering.names = n.numbering.names
  frame : after.frame = n.frame

theorem Keeps.refl (n : NormalForm) : n.Keeps n := ⟨.refl n, Nat.le_refl _, rfl, rfl, rfl, rfl⟩

theorem Keeps.shards {n after : NormalForm} (keeps : n.Keeps after) :
    after.shards.size = n.shards.size := by
  simpa [NormalForm.frame] using congrArg (·.locales.length) keeps.frame

theorem Keeps.trans {n m k : NormalForm} (first : n.Keeps m) (second : m.Keeps k) : n.Keeps k :=
  ⟨first.productions.trans second.productions, Nat.le_trans first.last second.last,
    second.unshareable.trans first.unshareable, second.byName.trans first.byName,
    second.names.trans first.names, second.frame.trans first.frame⟩

theorem Keeps.isUnshareable {n after : NormalForm} (keeps : n.Keeps after) (s : Symbol) :
    after.isUnshareable s = n.isUnshareable s := by
  rw [NormalForm.isUnshareable, keeps.unshareable]
  rfl

/-- The symbol heads some production. -/
def Heads (n : NormalForm) (s : Symbol) : Prop := ∃ b h, n.Has b h ∧ h.symbol = s

theorem Heads.extends {n after : NormalForm} {s : Symbol} (extends_ : n.Extends after)
    (heads : n.Heads s) : after.Heads s := by
  obtain ⟨b, h, has, rfl⟩ := heads
  rcases extends_ b h has with stays | ⟨_, k, has', same, _⟩
  · exact ⟨b, h, stays, rfl⟩
  · exact ⟨b, k, has', same⟩

/-- New productions are silent or carry the request's callback, and new symbols head some. -/
structure Traces (n : NormalForm) (request : Head.Request) (after : NormalForm) : Prop where
  callbacks : ∀ b h, after.Has b h →
    n.Has b h ∨ h.callback.isSilent = true ∨ h.callback = request.callback
  fresh : ∀ s, n.numbering.last < s → s ≤ after.numbering.last → after.Heads s
  aimed : ∀ s, request.target = some s → after.Heads s

theorem Traces.refl {n : NormalForm} {request : Head.Request} (free : request.target = none) :
    n.Traces request n := by
  refine ⟨fun _ _ => .inl, fun s above below => absurd below (Nat.not_le_of_lt above), ?_⟩
  intro s target
  rw [free] at target
  cases target

theorem Traces.trans {n m k : NormalForm} {r request : Head.Request} (first : n.Traces r m)
    (silent : r.callback.isSilent = true) (second : m.Traces request k)
    (productions : m.Extends k) : n.Traces request k := by
  refine ⟨fun b h has => ?_, fun s above below => ?_, second.aimed⟩
  · rcases second.callbacks b h has with old | new
    · rcases first.callbacks b h old with old | quiet | same
      · exact .inl old
      · exact .inr (.inl quiet)
      · exact .inr (.inl (same ▸ silent))
    · exact .inr new
  · by_cases older : s ≤ m.numbering.last
    · exact (first.fresh s above older).extends productions
    · exact second.fresh s (Nat.lt_of_not_le older) below

/-- The request is met: `symbol` now derives what the language `L` says, and nothing else does
because of it. -/
structure Realizes (R : Reading κ α) (Allowed : Callback → List α → Prop) (n : NormalForm)
    (request : Head.Request) (L : Meaning α → List α → Prop) (after : NormalForm)
    (symbol : Symbol) : Prop where
  keeps : n.Keeps after
  traces : n.Traces request after
  bounded : after.Bounded
  symbol_le : symbol ≤ after.numbering.last
  target : ∀ s, request.target = some s → symbol = s
  isLocal : Local n.numbering.last L
  represents : ∀ D : Meaning α, after.Closed R D → D.Solid → ∀ w, L D w → D symbol w ∧
    (request.callback.isSilent = false → after.FiresUnder R D request.callback w)
  model : ∀ M, n.Model R Allowed M → (∀ s, request.target = some s → ∀ w, L M w → M s w) →
    (request.callback.isSilent = false → request.callback.id ≠ Builtin.exclusion.id →
      ∀ w, L M w → Allowed request.callback w) →
    ∃ N, after.Model R Allowed N ∧ Agrees n.numbering.last M N ∧
      (request.target = none → ∀ w, N symbol w ↔ L N w)

section
variable {R : Reading κ α} {Allowed : Callback → List α → Prop} {n after : NormalForm}
  {request : Head.Request} {b : Body} {symbol : Symbol}

theorem Adds.keeps (adds : n.Adds request b after symbol) : n.Keeps after := by
  rcases adds.chooses with ⟨same, _⟩ | ⟨_, next, _⟩
  · exact ⟨adds.kept, Nat.le_of_eq (by rw [same]), by rw [same], by rw [same], by rw [same],
      adds.frame⟩
  · exact ⟨adds.kept, by simp [next], by rw [next], by rw [next], by rw [next], adds.frame⟩

theorem Adds.traces (adds : n.Adds request b after symbol) : n.Traces request after := by
  obtain ⟨met, has, isSymbol, _⟩ := adds.met
  refine
    { callbacks := fun c h isHead => ?callbacks
      fresh := fun s above below => ?fresh
      aimed := fun s target => ?aimed }
  case callbacks =>
    rcases adds.new c h isHead with old | ⟨_, rfl⟩
    · exact .inl old
    · exact .inr (.inr rfl)
  case fresh =>
    rcases adds.chooses with ⟨same, _⟩ | ⟨_, next, new⟩
    · rw [same] at below
      exact absurd below (Nat.not_le_of_lt above)
    · rw [next] at below
      have last : s = n.numbering.last + 1 := Nat.le_antisymm below above
      exact ⟨b, met, has, isSymbol.trans (new.trans last.symm)⟩
  case aimed =>
    rcases adds.chooses with ⟨_, same | ⟨none, _⟩⟩ | ⟨none, _⟩
    · exact ⟨b, met, has, isSymbol.trans (Option.some.inj (same.symm.trans target))⟩
    · rw [none] at target
      cases target
    · rw [none] at target
      cases target

theorem Adds.symbol_le (adds : n.Adds request b after symbol) (bounded : n.Bounded)
    (own : ∀ s, request.target = some s → n.isUnshareable s = true) :
    symbol ≤ after.numbering.last := by
  rcases adds.chooses with ⟨same, target | ⟨_, _, h, has, eq, _⟩⟩ | ⟨_, next, eq⟩
  · rw [same]
    exact bounded.own symbol (own symbol target)
  · rw [same, ← eq]
    exact bounded.heads b h has
  · rw [next]
    exact Nat.le_of_eq eq

theorem Adds.bounded (adds : n.Adds request b after symbol) (bounded : n.Bounded)
    (own : ∀ s, request.target = some s → n.isUnshareable s = true)
    (operands : ∀ s ∈ b.symbols, s ≤ n.numbering.last)
    (clean : ∀ text caseSensitive, b = .literal text caseSensitive → NulFree text) :
    after.Bounded := by
  have keeps := adds.keeps
  refine
    { heads := fun c h has => ?heads
      bodies := fun c isKeyed s member => ?bodies
      own := fun s isOwn => ?own
      literals := fun text caseSensitive isKeyed => ?literals }
  case heads =>
    rcases adds.new c h has with old | ⟨_, rfl⟩
    · exact Nat.le_trans (bounded.heads c h old) keeps.last
    · exact adds.symbol_le bounded own
  case bodies =>
    rcases adds.keys c isKeyed with old | rfl
    · exact Nat.le_trans (bounded.bodies c old s member) keeps.last
    · exact Nat.le_trans (operands s member) keeps.last
  case own =>
    rw [keeps.isUnshareable] at isOwn
    exact Nat.le_trans (bounded.own s isOwn) keeps.last
  case literals =>
    rcases adds.keys _ isKeyed with old | isBody
    · exact bounded.literals text caseSensitive old
    · exact clean text caseSensitive isBody.symm

/-- A model stays one if the new production fits it. -/
theorem Model.adds (adds : n.Adds request b after symbol) (bounded : n.Bounded)
    (operands : ∀ s ∈ b.symbols, s ≤ n.numbering.last) {M N : Meaning α}
    (model : n.Model R Allowed M) (agrees : Agrees n.numbering.last M N) (solid : N.Solid)
    (sound : ∀ w, b.Reads R M request.gap w → N symbol w)
    (sharp : n.isUnshareable symbol = false → ∀ w, N symbol w → b.Reads R M request.gap w)
    (loud : request.callback.isSilent = false → request.callback.id ≠ Builtin.exclusion.id →
      ∀ w, b.Reads R M request.gap w → Allowed request.callback w) :
    after.Model R Allowed N := by
  have keeps := adds.keeps
  have old {c : Body} {h : Head} (has : n.Has c h) (w : List α) :
      c.Reads R M h.gap w ↔ c.Reads R N h.gap w :=
    Body.reads_local (bounded.bodies c has.keyed) M N agrees w
  have new (w : List α) : b.Reads R M request.gap w ↔ b.Reads R N request.gap w :=
    Body.reads_local operands M N agrees w
  refine ⟨solid, fun c h has w reads => ?_, fun c h has free w means => ?_,
    fun c h has isLoud other w reads => ?_⟩
  · rcases adds.new c h has with has | ⟨rfl, rfl⟩
    · exact (agrees _ (bounded.heads c h has) w).mp (model.sound c h has w ((old has w).mpr reads))
    · exact sound w ((new w).mpr reads)
  · rw [keeps.isUnshareable] at free
    rcases adds.new c h has with has | ⟨rfl, rfl⟩
    · exact (old has w).mp
        (model.sharp c h has free w ((agrees _ (bounded.heads c h has) w).mpr means))
    · exact (new w).mp (sharp free w means)
  · rcases adds.new c h has with has | ⟨rfl, rfl⟩
    · exact model.loud c h has isLoud other w ((old has w).mpr reads)
    · exact loud isLoud other w ((new w).mpr reads)

theorem Body.Reads.ne_nil {b : Body} {gap : Int8} {M : Meaning α} (solid : M.Solid) {w : List α}
    (h : b.Reads R M gap w) : w ≠ [] := by
  cases b with
  | literal text caseSensitive =>
    cases caseSensitive with
    | true =>
      obtain ⟨a, rfl, _⟩ := h
      simp
    | false =>
      obtain ⟨a, t, rfl, _⟩ := h
      simp
  | unary operand => exact solid operand w h
  | binary left right => exact Reading.Joins.ne_nil h

/-- Adding one production realizes its right-hand side. -/
theorem Adds.realizes (adds : n.Adds request b after symbol) (bounded : n.Bounded)
    (own : ∀ s, request.target = some s → n.isUnshareable s = true)
    (operands : ∀ s ∈ b.symbols, s ≤ n.numbering.last)
    (clean : ∀ text caseSensitive, b = .literal text caseSensitive → NulFree text) :
    Realizes R Allowed n request (fun M => b.Reads R M request.gap) after symbol := by
  refine ⟨adds.keeps, adds.traces, adds.bounded bounded own operands clean,
    adds.symbol_le bounded own, ?_, Body.reads_local operands, ?_, ?_⟩
  · intro s target
    rcases adds.chooses with ⟨_, same | ⟨none, _⟩⟩ | ⟨none, _⟩
    · exact Option.some.inj (same.symm.trans target)
    · rw [none] at target
      cases target
    · rw [none] at target
      cases target
  · intro D closed _ w reads
    obtain ⟨h, has, eq, gap, callback⟩ := adds.met
    rw [← gap] at reads
    exact ⟨eq ▸ closed b h has w reads, fun loud => ⟨b, h, has, callback loud, reads⟩⟩
  · intro M model aims loud
    rcases adds.chooses with ⟨_, target | ⟨target, free, h, has, eq, gap⟩⟩ | ⟨target, _, next⟩
    · refine ⟨M, model.adds adds bounded operands (.refl _ _) model.solid (aims symbol target) ?_ loud,
        .refl _ _, fun none => ?_⟩
      · intro free
        rw [own symbol target] at free
        cases free
      · rw [none] at target
        cases target
    · have sound : ∀ w, b.Reads R M request.gap w → M symbol w := by
        intro w reads
        rw [← eq]
        exact model.sound b h has w (gap ▸ reads)
      have sharp : ∀ w, M symbol w → b.Reads R M request.gap w := by
        intro w means
        rw [← gap]
        exact model.sharp b h has (eq ▸ free) w (eq ▸ means)
      exact ⟨M, model.adds adds bounded operands (.refl _ _) model.solid sound (fun _ => sharp) loud,
        .refl _ _, fun _ w => ⟨sharp w, sound w⟩⟩
    · let N : Meaning α := fun s w => if s = symbol then b.Reads R M request.gap w else M s w
      have agrees : Agrees n.numbering.last M N := by
        intro s bound w
        have older : s ≠ symbol := by
          rintro rfl
          rw [next] at bound
          exact Nat.not_succ_le_self _ bound
        simp [N, older]
      have here (w : List α) : N symbol w ↔ b.Reads R M request.gap w := by simp [N]
      refine ⟨N, model.adds adds bounded operands agrees ?_ (fun w => (here w).mpr)
        (fun _ w => (here w).mp) loud, agrees, fun _ w => ?_⟩
      · intro s w means
        by_cases same : s = symbol
        · exact Body.Reads.ne_nil model.solid (by simpa [N, same] using means)
        · exact model.solid s w (by simpa [N, same] using means)
      · exact (here w).trans (Body.reads_local operands M N agrees w)

/-- A symbol that stands for a language already needs no production. -/
theorem Realizes.already (bounded : n.Bounded) {L : Meaning α → List α → Prop}
    (bound : symbol ≤ n.numbering.last) (free : request.target = none)
    (silent : request.callback.isSilent = true) (means : ∀ M w, L M w ↔ M symbol w) :
    Realizes R Allowed n request L n symbol := by
  refine
    { keeps := .refl n
      traces := .refl free
      bounded
      symbol_le := bound
      target := fun s target => ?target
      isLocal := fun M N agrees w => ?isLocal
      represents := fun D _ _ w reads => ?represents
      model := fun M model _ _ => ⟨M, model, .refl _ _, fun _ w => (means M w).symm⟩ }
  case target =>
    rw [free] at target
    cases target
  case isLocal =>
    rw [means, means]
    exact agrees symbol bound w
  case represents =>
    refine ⟨(means D w).mp reads, fun loud => ?_⟩
    rw [silent] at loud
    cases loud

theorem Realizes.congr {L K : Meaning α → List α → Prop}
    (realizes : Realizes R Allowed n request L after symbol) (same : ∀ M w, L M w ↔ K M w) :
    Realizes R Allowed n request K after symbol := by
  obtain rfl : L = K := funext fun M => funext fun w => propext (same M w)
  exact realizes

/-- A symbol is made first, silently, and the request then made with it. -/
theorem Realizes.andThen {r : Head.Request} {L K J : Meaning α → List α → Prop} {n₁ : NormalForm}
    {s₁ : Symbol} (first : Realizes R Allowed n r K n₁ s₁) (free : r.target = none)
    (silent : r.callback.isSilent = true) (second : Realizes R Allowed n₁ request J after symbol)
    (targets : ∀ s, request.target = some s → s ≤ n.numbering.last)
    (isLocal : Local n.numbering.last L)
    (up : ∀ D : Meaning α, D.Solid → (∀ w, K D w → D s₁ w) → ∀ w, L D w → J D w)
    (down : ∀ D : Meaning α, D.Solid → (∀ w, D s₁ w ↔ K D w) → ∀ w, J D w → L D w) :
    Realizes R Allowed n request L after symbol := by
  refine
    { keeps := first.keeps.trans second.keeps
      traces := first.traces.trans silent second.traces second.keeps.productions
      bounded := second.bounded
      symbol_le := second.symbol_le
      target := second.target
      isLocal
      represents := fun D closed solid w reads => ?represents
      model := fun M model aims loud => ?model }
  case represents =>
    have before : n₁.Closed R D := closed.of_extends second.keeps.productions
    exact second.represents D closed solid w
      (up D solid (fun v h => (first.represents D before solid v h).1) w reads)
  case model =>
    obtain ⟨M₁, model₁, agrees₁, means₁⟩ := first.model M model
      (fun s target => by rw [free] at target; cases target)
      (fun isLoud => by rw [silent] at isLoud; cases isLoud)
    have back (w : List α) (h : J M₁ w) : L M w :=
      (isLocal M M₁ agrees₁ w).mpr (down M₁ model₁.solid (means₁ free) w h)
    obtain ⟨N, model', agrees, means⟩ := second.model M₁ model₁
      (fun s target w h => (agrees₁ s (targets s target) w).mp (aims s target w (back w h)))
      (fun isLoud other w h => loud isLoud other w (back w h))
    have still (w : List α) : N s₁ w ↔ K N w :=
      ((agrees s₁ first.symbol_le w).symm.trans (means₁ free w)).trans
        (first.isLocal.mono first.keeps.last M₁ N agrees w)
    refine ⟨N, model', agrees₁.trans agrees first.keeps.last, fun none w => ?_⟩
    rw [means none w]
    exact ⟨down N model'.solid still w, up N model'.solid (fun v => (still v).mpr) w⟩

end

/-- What a part derives. -/
def Part.Means (R : Reading κ α) (M : Meaning α) : Part → List α → Prop
  | .literal text caseSensitive => R.Shows text caseSensitive
  | .symbol s => M s

/-- Symbols of parts are in use already. -/
def Part.Bounded (last : Symbol) : Part → Prop
  | .literal text _ => NulFree text
  | .symbol s => s ≤ last

section
variable {R : Reading κ α} {Allowed : Callback → List α → Prop} {n : NormalForm}
  {request : Head.Request} {shard : Nat}

theorem literalBody_reads {text : String} {caseSensitive : Bool} {M : Meaning α} {gap : Int8}
    {w : List α} : (literalBody text caseSensitive).Reads R M gap w ↔ R.Shows text caseSensitive w := by
  cases caseSensitive with
  | true =>
    constructor
    · rintro ⟨a, rfl, shows⟩
      exact ⟨a, text, rfl, shows, rfl⟩
    · rintro ⟨a, t, rfl, shows, eq⟩
      exact ⟨a, rfl, eq ▸ shows⟩
  | false => exact .rfl

theorem nulFree_literalBody {text : String} {caseSensitive : Bool} (clean : NulFree text)
    (other : String) (otherSensitive : Bool)
    (eq : literalBody text caseSensitive = .literal other otherSensitive) : NulFree other := by
  cases caseSensitive with
  | true =>
    obtain ⟨rfl, _⟩ := Body.literal.inj eq
    exact clean
  | false =>
    obtain ⟨rfl, _⟩ := Body.literal.inj eq
    exact Lowercase.nulFree_text clean

theorem addLiteral_realizes {text : String} {caseSensitive : Bool} (clean : NulFree text)
    (bounded : n.Bounded) (inRange : shard < n.shards.size)
    (own : ∀ s, request.target = some s → n.isUnshareable s = true) :
    Realizes R Allowed n request (fun _ => R.Shows text caseSensitive)
      (n.addLiteral request text caseSensitive shard).1
      (n.addLiteral request text caseSensitive shard).2 := by
  rw [addLiteral_eq]
  refine ((addTo_adds inRange own).realizes bounded own ?_ (nulFree_literalBody clean)).congr
    fun M w => literalBody_reads
  simp [literalBody, Body.symbols]

theorem addBinary_realizes {left right : Symbol} (bounded : n.Bounded)
    (inRange : shard < n.shards.size)
    (own : ∀ s, request.target = some s → n.isUnshareable s = true)
    (lefts : left ≤ n.numbering.last) (rights : right ≤ n.numbering.last) :
    Realizes R Allowed n request (fun M => R.Joins request.gap (M left) (M right))
      (n.addBinary request left right shard).1 (n.addBinary request left right shard).2 := by
  rw [addBinary_eq]
  refine ((addTo_adds inRange own).realizes bounded own ?_ (fun _ _ eq => by cases eq)).congr
    fun _ _ => .rfl
  simp only [Body.symbols, List.mem_cons, List.not_mem_nil, or_false, forall_eq_or_imp, forall_eq]
  exact ⟨lefts, rights⟩

theorem addUnary_realizes {operand : Symbol} (bounded : n.Bounded) (inRange : shard < n.shards.size)
    (own : ∀ s, request.target = some s → n.isUnshareable s = true)
    (bound : operand ≤ n.numbering.last) :
    Realizes R Allowed n request (fun M => M operand) (n.addUnary request operand shard).1
      (n.addUnary request operand shard).2 := by
  rw [addUnary_eq]
  split
  · next plain =>
    simp only [Bool.and_eq_true, Option.isNone_iff_eq_none] at plain
    exact .already bounded bound plain.1 plain.2 fun _ _ => .rfl
  · refine ((addTo_adds inRange own).realizes bounded own ?_ (fun _ _ eq => by cases eq)).congr
      fun _ _ => .rfl
    simpa [Body.symbols] using bound

theorem addPart_realizes {part : Part} (bounded : n.Bounded) (inRange : shard < n.shards.size)
    (bound : part.Bounded n.numbering.last) :
    Realizes R Allowed n {} (fun M => part.Means R M) (n.addPart part shard).1
      (n.addPart part shard).2 := by
  cases part with
  | literal text caseSensitive =>
    have none (s : Symbol) (target : ({} : Head.Request).target = some s) :
        n.isUnshareable s = true := by
      cases target
    exact (addLiteral_realizes bound bounded inRange none).congr fun _ _ => .rfl
  | symbol s =>
    exact Realizes.congr (.already bounded bound rfl rfl fun _ _ => .rfl) fun _ _ => .rfl

theorem joinsAll_local {gap : Int8} {symbols : List Symbol} {last : Symbol}
    (bound : ∀ s ∈ symbols, s ≤ last) :
    Local last fun M : Meaning α => R.JoinsAll gap (symbols.map M) := by
  intro M N agrees w
  constructor
  · exact Reading.JoinsAll.mono fun s member v => (agrees s (bound s member) v).mp
  · exact Reading.JoinsAll.mono fun s member v => (agrees s (bound s member) v).mpr

/-- Joining from the left derives what the symbols derive in turn. -/
theorem addChain_realizes {prev next : Symbol} {rest : List Symbol} (bounded : n.Bounded)
    (inRange : shard < n.shards.size)
    (own : ∀ s, request.target = some s → n.isUnshareable s = true)
    (bound : ∀ s ∈ prev :: next :: rest, s ≤ n.numbering.last) :
    Realizes R Allowed n request
      (fun M => R.JoinsAll request.gap ((prev :: next :: rest).map M))
      (n.addChain request shard prev (next :: rest)).1
      (n.addChain request shard prev (next :: rest)).2 := by
  have prevs := bound prev List.mem_cons_self
  have nexts := bound next (List.mem_cons_of_mem _ List.mem_cons_self)
  induction rest generalizing n prev next with
  | nil => exact (addBinary_realizes bounded inRange own prevs nexts).congr fun _ _ => .rfl
  | cons last rest ih =>
    have none (s : Symbol) (target : ({ gap := request.gap } : Head.Request).target = some s) :
        n.isUnshareable s = true := by
      cases target
    have first : Realizes R Allowed n { gap := request.gap }
        (fun M => R.Joins request.gap (M prev) (M next))
        (n.addBinary { gap := request.gap } prev next shard).1
        (n.addBinary { gap := request.gap } prev next shard).2 :=
      addBinary_realizes bounded inRange none prevs nexts
    have result : n.addChain request shard prev (next :: last :: rest) =
        (n.addBinary { gap := request.gap } prev next shard).1.addChain request shard
          (n.addBinary { gap := request.gap } prev next shard).2 (last :: rest) := rfl
    rw [result]
    generalize n.addBinary { gap := request.gap } prev next shard = joined at first
    obtain ⟨n₁, s₁⟩ := joined
    have later : ∀ s ∈ last :: rest, s ≤ n₁.numbering.last := fun s member =>
      Nat.le_trans (bound s (List.mem_cons_of_mem _ (List.mem_cons_of_mem _ member)))
        first.keeps.last
    have bound₁ : ∀ s ∈ s₁ :: last :: rest, s ≤ n₁.numbering.last := by
      intro s member
      rcases List.mem_cons.mp member with rfl | member
      · exact first.symbol_le
      · exact later s member
    have second := ih first.bounded (first.keeps.shards ▸ inRange)
      (fun s target => first.keeps.isUnshareable s ▸ own s target) bound₁ first.symbol_le
      (later last List.mem_cons_self)
    refine first.andThen rfl rfl second (fun s target => bounded.own s (own s target))
      (joinsAll_local bound) ?_ ?_
    · intro D solid sub w h
      rw [List.map_cons, List.map_cons, Reading.joinsAll_cons_cons (solid next)] at h
      exact h.head_mono sub
    · intro D solid same w h
      rw [List.map_cons, List.map_cons, Reading.joinsAll_cons_cons (solid next)]
      exact h.head_mono fun v => (same v).mp

/-- Every part has a symbol that derives what the part does. -/
structure Prepares (R : Reading κ α) (Allowed : Callback → List α → Prop) (n : NormalForm)
    (parts : List Part) (after : NormalForm) (symbols : List Symbol) : Prop where
  keeps : n.Keeps after
  traces : n.Traces {} after
  bounded : after.Bounded
  symbols_le : ∀ s ∈ symbols, s ≤ after.numbering.last
  represents : ∀ D : Meaning α, after.Closed R D → D.Solid →
    List.Forall₂ (fun part s => ∀ w, part.Means R D w → D s w) parts symbols
  model : ∀ M, n.Model R Allowed M → ∃ N, after.Model R Allowed N ∧ Agrees n.numbering.last M N ∧
    List.Forall₂ (fun part s => ∀ w, N s w ↔ part.Means R N w) parts symbols

theorem Part.means_local {part : Part} {last : Symbol} (bound : part.Bounded last) :
    Local last fun M : Meaning α => part.Means R M := by
  cases part with
  | literal text caseSensitive => exact fun _ _ _ _ => .rfl
  | symbol s => exact fun M N agrees w => agrees s bound w

theorem Part.Bounded.mono {part : Part} {last later : Symbol} (le : last ≤ later)
    (bound : part.Bounded last) : part.Bounded later := by
  cases part with
  | literal text caseSensitive => trivial
  | symbol s => exact Nat.le_trans bound le

theorem addParts_prepares {parts : List Part} (bounded : n.Bounded)
    (inRange : shard < n.shards.size) (bound : ∀ part ∈ parts, part.Bounded n.numbering.last) :
    Prepares R Allowed n parts (n.addParts shard parts).1 (n.addParts shard parts).2 := by
  induction parts generalizing n with
  | nil =>
    exact ⟨.refl n, .refl rfl, bounded, by simp [addParts], fun _ _ _ => .nil,
      fun M model => ⟨M, model, .refl _ _, .nil⟩⟩
  | cons part rest ih =>
    have here := bound part List.mem_cons_self
    have first : Realizes R Allowed n {} (fun M => part.Means R M) (n.addPart part shard).1
      (n.addPart part shard).2 := addPart_realizes bounded inRange here
    have le := first.keeps.last
    have later := ih first.bounded (first.keeps.shards ▸ inRange)
      fun other member => (bound other (List.mem_cons_of_mem _ member)).mono le
    have result : n.addParts shard (part :: rest) =
        (((n.addPart part shard).1.addParts shard rest).1,
          (n.addPart part shard).2 :: ((n.addPart part shard).1.addParts shard rest).2) := rfl
    rw [result]
    refine ⟨first.keeps.trans later.keeps,
      first.traces.trans rfl later.traces later.keeps.productions, later.bounded, ?_, ?_, ?_⟩
    · intro s member
      rcases List.mem_cons.mp member with rfl | member
      · exact Nat.le_trans first.symbol_le later.keeps.last
      · exact later.symbols_le s member
    · intro D closed solid
      have before := closed.of_extends later.keeps.productions
      exact .cons (fun w h => (first.represents D before solid w h).1)
        (later.represents D closed solid)
    · intro M model
      obtain ⟨M₁, model₁, agrees₁, means₁⟩ := first.model M model nofun nofun
      obtain ⟨N, model', agrees, others⟩ := later.model M₁ model₁
      refine ⟨N, model', agrees₁.trans agrees le, .cons (fun w => ?_) others⟩
      have still := first.isLocal.mono le M₁ N agrees w
      exact ((agrees _ first.symbol_le w).symm.trans (means₁ rfl w)).trans still

theorem joinsAll_forall₂ {A : β → List α → Prop} {B : γ → List α → Prop} {gap : Int8}
    {xs : List β} {ys : List γ} (each : List.Forall₂ (fun x y => ∀ w, A x w → B y w) xs ys)
    {w : List α} (h : R.JoinsAll gap (xs.map A) w) : R.JoinsAll gap (ys.map B) w := by
  induction each generalizing w with
  | nil => exact h
  | cons first rest ih =>
    cases rest with
    | nil => exact first w h
    | cons second rest => exact Reading.Joins.mono first (fun _ => ih) h

/-- The parts are given symbols first, and these are joined. -/
theorem Prepares.andThen {parts : List Part} {n₁ after : NormalForm} {symbols : List Symbol}
    {symbol : Symbol} (bound : ∀ part ∈ parts, part.Bounded n.numbering.last)
    (targets : ∀ s, request.target = some s → s ≤ n.numbering.last)
    (prepares : Prepares R Allowed n parts n₁ symbols)
    (second : Realizes R Allowed n₁ request (fun M => R.JoinsAll request.gap (symbols.map M)) after
      symbol) :
    Realizes R Allowed n request
      (fun M => R.JoinsAll request.gap (parts.map fun p => p.Means R M)) after symbol := by
  have isLocal : Local n.numbering.last fun M : Meaning α =>
      R.JoinsAll request.gap (parts.map fun p => p.Means R M) := by
    intro M N agrees w
    constructor
    · exact Reading.JoinsAll.mono fun p member v =>
        (Part.means_local (bound p member) M N agrees v).mp
    · exact Reading.JoinsAll.mono fun p member v =>
        (Part.means_local (bound p member) M N agrees v).mpr
  refine ⟨prepares.keeps.trans second.keeps,
    prepares.traces.trans rfl second.traces second.keeps.productions, second.bounded,
    second.symbol_le, second.target, isLocal, ?_, ?_⟩
  · intro D closed solid w h
    have before := closed.of_extends second.keeps.productions
    exact second.represents D closed solid w
      (joinsAll_forall₂ (prepares.represents D before solid) h)
  · intro M model aims loud
    obtain ⟨M₁, model₁, agrees₁, means₁⟩ := prepares.model M model
    have back (w : List α) (h : R.JoinsAll request.gap (symbols.map M₁) w) :
        R.JoinsAll request.gap (parts.map fun p => p.Means R M) w :=
      (isLocal M M₁ agrees₁ w).mpr
        (joinsAll_forall₂ (means₁.flip.imp fun _ _ same v => (same v).mp) h)
    obtain ⟨N, model', agrees, means⟩ := second.model M₁ model₁
      (fun s target w h => (agrees₁ s (targets s target) w).mp (aims s target w (back w h)))
      (fun isLoud other w h => loud isLoud other w (back w h))
    have whole := agrees₁.trans agrees prepares.keeps.last
    refine ⟨N, model', whole, fun none w => ?_⟩
    calc N symbol w
      _ ↔ R.JoinsAll request.gap (symbols.map N) w := means none w
      _ ↔ R.JoinsAll request.gap (symbols.map M₁) w := (second.isLocal M₁ N agrees w).symm
      _ ↔ R.JoinsAll request.gap (parts.map fun p => p.Means R M₁) w :=
        ⟨joinsAll_forall₂ (means₁.flip.imp fun _ _ same v => (same v).mp),
          joinsAll_forall₂ (means₁.imp fun _ _ same v => (same v).mpr)⟩
      _ ↔ R.JoinsAll request.gap (parts.map fun p => p.Means R M) w :=
        (isLocal M M₁ agrees₁ w).symm
      _ ↔ R.JoinsAll request.gap (parts.map fun p => p.Means R N) w := isLocal M N whole w

/-- A production of any length realizes what its parts derive in turn. -/
theorem addRule_realizes {parts : List Part} (bounded : n.Bounded)
    (inRange : shard < n.shards.size)
    (own : ∀ s, request.target = some s → n.isUnshareable s = true)
    (bound : ∀ part ∈ parts, part.Bounded n.numbering.last) (nonempty : parts ≠ []) :
    ∃ symbol, (n.addRule request parts shard).2 = some symbol ∧
      Realizes R Allowed n request (fun M => R.JoinsAll request.gap (parts.map fun p => p.Means R M))
        (n.addRule request parts shard).1 symbol := by
  rcases parts with _ | ⟨first, _ | ⟨second, rest⟩⟩
  · exact absurd rfl nonempty
  · cases first with
    | literal text caseSensitive =>
      have clean : NulFree text := bound (.literal text caseSensitive) List.mem_cons_self
      exact ⟨_, rfl, (addLiteral_realizes clean bounded inRange own).congr fun _ _ => .rfl⟩
    | symbol operand =>
      have bound : operand ≤ n.numbering.last := bound (.symbol operand) List.mem_cons_self
      exact ⟨_, rfl, (addUnary_realizes bounded inRange own bound).congr fun _ _ => .rfl⟩
  · have prepares : Prepares R Allowed n (first :: second :: rest)
      (n.addParts shard (first :: second :: rest)).1
      (n.addParts shard (first :: second :: rest)).2 := addParts_prepares bounded inRange bound
    obtain ⟨s, next, symbols, eq⟩ : ∃ s next symbols,
        (n.addParts shard (first :: second :: rest)).2 = s :: next :: symbols := ⟨_, _, _, rfl⟩
    rw [addRule_eq_addChain eq]
    rw [eq] at prepares
    refine ⟨_, rfl, prepares.andThen bound (fun s target => bounded.own s (own s target)) ?_⟩
    exact addChain_realizes prepares.bounded (prepares.keeps.shards ▸ inRange)
      (fun s target => prepares.keeps.isUnshareable s ▸ own s target) prepares.symbols_le

end

theorem bind_numbering (n : NormalForm) (name : String) (symbol : Symbol) :
    (n.bind name symbol).numbering.last = n.numbering.last ∧
      (n.bind name symbol).numbering.unshareable = n.numbering.unshareable := by
  simp only [bind, Numbering.bind]
  split
  · exact ⟨rfl, rfl⟩
  · exact ⟨rfl, rfl⟩

/-- A key keeps the value it was given first. -/
theorem getElem?_insertIfNew {κ β : Type} {cmp : κ → κ → Ordering} [Std.TransCmp cmp]
    [Std.LawfulEqCmp cmp] [DecidableEq κ] (m : Std.TreeMap κ β cmp) (key : κ) (value : β)
    (other : κ) :
    (m.insertIfNew key value)[other]? =
      if other = key then some (m[key]?.getD value) else m[other]? := by
  rw [Std.TreeMap.getElem?_insertIfNew]
  by_cases same : other = key
  · subst same
    rw [if_pos rfl]
    cases found : m[other]? with
    | none =>
      have absent : other ∉ m := by
        rw [Std.TreeMap.mem_iff_isSome_getElem?, found]
        simp
      simp [absent]
    | some v =>
      have present : other ∈ m := by
        rw [Std.TreeMap.mem_iff_isSome_getElem?, found]
        rfl
      simp [present]
  · have differs : cmp key other ≠ .eq := fun h => same (Std.LawfulEqCmp.eq_of_compare h).symm
    simp [same, differs]

theorem bind_symbol? {n : NormalForm} {name : String} (nonempty : name ≠ "") (symbol : Symbol)
    (other : String) :
    (n.bind name symbol).symbol? other =
      if other = name then some ((n.symbol? name).getD symbol) else n.symbol? other := by
  have solid : name.isEmpty = false := by
    simpa using nonempty
  simp only [bind, Numbering.bind, solid, Bool.false_eq_true, ↓reduceIte, symbol?,
    getElem?_insertIfNew]

theorem bind_nameOf? {n : NormalForm} {name : String} (nonempty : name ≠ "") (symbol s : Symbol) :
    (n.bind name symbol).nameOf? s =
      if s = symbol then some ((n.nameOf? symbol).getD name) else n.nameOf? s := by
  have solid : name.isEmpty = false := by
    simpa using nonempty
  simp only [bind, Numbering.bind, solid, Bool.false_eq_true, ↓reduceIte, nameOf?,
    getElem?_insertIfNew]

/-- A symbol has the name it had, or the one it is bound to. -/
theorem nameOf?_bind {n : NormalForm} {name other : String} {symbol s : Symbol}
    (isName : (n.bind name symbol).nameOf? s = some other) :
    n.nameOf? s = some other ∨ s = symbol ∧ other = name := by
  simp only [bind, Numbering.bind, nameOf?] at isName
  split at isName
  · exact .inl isName
  · rw [Std.TreeMap.getElem?_insertIfNew] at isName
    split at isName
    · next new => exact .inr ⟨(Std.LawfulEqCmp.eq_of_compare new.1).symm, (Option.some.inj isName).symm⟩
    · exact .inl isName

/-- A name changes nothing but what it is a name of. -/
theorem Bounded.bind {n : NormalForm} (bounded : n.Bounded) (name : String) (symbol : Symbol) :
    (n.bind name symbol).Bounded := by
  obtain ⟨last, unshareable⟩ := n.bind_numbering name symbol
  refine
    { bounded with
      heads := fun b h has => ?heads
      bodies := fun b isKeyed s member => ?bodies
      own := fun s own => ?own }
  case heads =>
    rw [last]
    exact bounded.heads b h has
  case bodies =>
    rw [last]
    exact bounded.bodies b isKeyed s member
  case own =>
    rw [last]
    refine bounded.own s ?_
    rwa [isUnshareable, unshareable] at own

theorem Model.bind {R : Reading κ α} {Allowed : Callback → List α → Prop} {n : NormalForm}
    {M : Meaning α} (model : n.Model R Allowed M) (name : String) (symbol : Symbol) :
    (n.bind name symbol).Model R Allowed M := by
  refine ⟨model.solid, model.sound, fun b h has free => ?_, model.loud⟩
  refine model.sharp b h has ?_
  rwa [isUnshareable, (n.bind_numbering name symbol).2] at free

end NormalForm

end Phrasebook
