import Mathlib
import Phrasebook.Grammar.Basic
import Phrasebook.NormalForm

namespace Phrasebook

/-- How leaves are read. `κ` are the names of what a leaf can stand for by itself. -/
structure Reading (κ α : Type) where
  text? : α → Option String
  stands : κ → α → Prop
  gap : α → Nat

/-- The white space that a gap leaves room for. A negative gap leaves it free. -/
def GapAllows (gap : Int8) (n : Nat) : Prop := gap < 0 ∨ (n : Int) ≤ gap.toInt

namespace Reading

variable (R : Reading κ α)

/-- One leaf that shows the literal, exactly or but for case. -/
def Shows (literal : String) (caseSensitive : Bool) (w : List α) : Prop :=
  ∃ a text, w = [a] ∧ R.text? a = some text ∧
    if caseSensitive then text = literal else Lowercase.text text = Lowercase.text literal

/-- A sequence of `L` followed by one of `K` within the gap. -/
def Joins (gap : Int8) (L K : List α → Prop) (w : List α) : Prop :=
  ∃ v a u, w = v ++ a :: u ∧ L v ∧ K (a :: u) ∧ GapAllows gap (R.gap a)

/-- Sequences of all languages in turn, with the gap between any two neighbours. -/
def JoinsAll (gap : Int8) : List (List α → Prop) → List α → Prop
  | [] => fun _ => False
  | [L] => L
  | L :: K :: rest => R.Joins gap L (JoinsAll gap (K :: rest))

variable {R}

theorem Joins.mono {gap : Int8} {L L' K K' : List α → Prop} (left : ∀ v, L v → L' v)
    (right : ∀ v, K v → K' v) {w : List α} (h : R.Joins gap L K w) : R.Joins gap L' K' w := by
  obtain ⟨v, a, u, eq, first, second, within⟩ := h
  exact ⟨v, a, u, eq, left v first, right _ second, within⟩

theorem Joins.ne_nil {gap : Int8} {L K : List α → Prop} {w : List α} (h : R.Joins gap L K w) :
    w ≠ [] := by
  obtain ⟨v, a, u, rfl, _⟩ := h
  simp

theorem JoinsAll.mono {gap : Int8} {xs : List β} {L K : β → List α → Prop}
    (each : ∀ x ∈ xs, ∀ v, L x v → K x v) {w : List α} (h : R.JoinsAll gap (xs.map L) w) :
    R.JoinsAll gap (xs.map K) w := by
  induction xs generalizing w with
  | nil => exact h
  | cons x rest ih =>
    cases rest with
    | nil => exact each x List.mem_cons_self w h
    | cons y rest =>
      refine Joins.mono (each x List.mem_cons_self) (fun v later => ?_) h
      exact ih (fun z member => each z (List.mem_cons_of_mem _ member)) later

theorem JoinsAll.head_mono {gap : Int8} {L K : List α → Prop} {rest : List (List α → Prop)}
    (sub : ∀ v, L v → K v) {w : List α} (h : R.JoinsAll gap (L :: rest) w) :
    R.JoinsAll gap (K :: rest) w := by
  cases rest with
  | nil => exact sub w h
  | cons J rest => exact Joins.mono sub (fun _ => id) h

/-- Joining is associative where the middle is never empty. -/
theorem joins_assoc {gap : Int8} {L K J : List α → Prop} (solid : ∀ v, K v → v ≠ []) (w : List α) :
    R.Joins gap L (R.Joins gap K J) w ↔ R.Joins gap (R.Joins gap L K) J w := by
  constructor
  · rintro ⟨v, a, u, rfl, left, ⟨x, b, y, eq, middle, right, inner⟩, outer⟩
    cases x with
    | nil => exact absurd rfl (solid [] middle)
    | cons c x =>
      obtain ⟨rfl, rfl⟩ : a = c ∧ u = x ++ b :: y := by simpa using eq
      exact ⟨v ++ a :: x, b, y, by simp, ⟨v, a, x, rfl, left, middle, outer⟩, right, inner⟩
  · rintro ⟨x, b, y, rfl, ⟨v, a, u, rfl, left, middle, outer⟩, right, inner⟩
    exact ⟨v, a, u ++ b :: y, by simp, left, ⟨a :: u, b, y, by simp, middle, right, inner⟩, outer⟩

/-- The first two languages can be joined first. -/
theorem joinsAll_cons_cons {gap : Int8} {L K : List α → Prop} {rest : List (List α → Prop)}
    (solid : ∀ v, K v → v ≠ []) (w : List α) :
    R.JoinsAll gap (L :: K :: rest) w ↔ R.JoinsAll gap (R.Joins gap L K :: rest) w := by
  cases rest with
  | nil => rfl
  | cons J rest => exact joins_assoc solid w

end Reading

namespace Grammar

/-- A nonterminal that needs no rules, being structural or bound to a label. -/
def IsGiven (g : Grammar) (index : Nat) : Prop :=
  ∃ n, g.nonterminals[index]? = some n ∧
    ((Structural.ofName? n.name).isSome = true ∨ n.label.isSome = true)

/-- The leaves `w` spell out a right-hand side under the options of its rule: each element has its
part of them, and from the second on no more white space in front of it than the gap allows. -/
inductive Spells (g : Grammar) (R : Reading Nat α) : RuleOptions → List Element → List α → Prop
  | literal {o : RuleOptions} {text : String} {w : List α} (shows : R.Shows text o.caseSensitive w) :
      Spells g R o [.literal text] w
  | given {o : RuleOptions} {index : Nat} {a : α} (isGiven : g.IsGiven index)
      (stands : R.stands index a) : Spells g R o [.reference index] [a]
  | rule {o : RuleOptions} {rule : Rule} {w : List α} (member : rule ∈ g.rules)
      (spells : Spells g R rule.options rule.rhs w) : Spells g R o [.reference rule.lhs] w
  | cons {o : RuleOptions} {e next : Element} {rest : List Element} {v u : List α} {a : α}
      (first : Spells g R o [e] v) (others : Spells g R o (next :: rest) (a :: u))
      (within : GapAllows o.gap (R.gap a)) : Spells g R o (e :: next :: rest) (v ++ a :: u)

/-- The nonterminal at `index` derives the leaves through one of its rules. -/
def Derives (g : Grammar) (R : Reading Nat α) (index : Nat) (w : List α) : Prop :=
  ∃ rule ∈ g.rules, rule.lhs = index ∧ g.Spells R rule.options rule.rhs w

/-- The nonterminal at `index` stands for a leaf by itself, or derives the leaves. -/
def Generates (g : Grammar) (R : Reading Nat α) (index : Nat) (w : List α) : Prop :=
  (g.IsGiven index ∧ ∃ a, w = [a] ∧ R.stands index a) ∨ g.Derives R index w

/-- What a single element spells under the options of its rule. -/
def Means (g : Grammar) (R : Reading Nat α) (o : RuleOptions) : Element → List α → Prop
  | .literal text => R.Shows text o.caseSensitive
  | .reference index => g.Generates R index

variable {g : Grammar} {R : Reading Nat α}

theorem spells_singleton {o : RuleOptions} {e : Element} {w : List α} :
    g.Spells R o [e] w ↔ g.Means R o e w := by
  constructor
  · intro h
    cases h with
    | literal shows => exact shows
    | given isGiven stands => exact .inl ⟨isGiven, _, rfl, stands⟩
    | rule member spells => exact .inr ⟨_, member, rfl, spells⟩
  · cases e with
    | literal text => exact .literal
    | reference index =>
      rintro (⟨isGiven, a, rfl, stands⟩ | ⟨rule, member, rfl, spells⟩)
      · exact .given isGiven stands
      · exact .rule member spells

/-- A right-hand side spells what its elements spell in turn. -/
theorem spells_iff_joinsAll {o : RuleOptions} {rhs : List Element} {w : List α} :
    g.Spells R o rhs w ↔ R.JoinsAll o.gap (rhs.map (g.Means R o)) w := by
  induction rhs generalizing w with
  | nil => exact ⟨nofun, False.elim⟩
  | cons e rest ih =>
    cases rest with
    | nil => exact spells_singleton
    | cons next rest =>
      constructor
      · intro h
        cases h with
        | cons first others within =>
          exact ⟨_, _, _, rfl, spells_singleton.mp first, ih.mp others, within⟩
      · rintro ⟨v, a, u, rfl, first, others, within⟩
        exact .cons (spells_singleton.mpr first) (ih.mpr others) within

theorem Spells.ne_nil {o : RuleOptions} {rhs : List Element} {w : List α}
    (h : g.Spells R o rhs w) : w ≠ [] := by
  induction h with
  | literal shows =>
    obtain ⟨a, _, rfl, _⟩ := shows
    simp
  | given => simp
  | rule _ _ ih => exact ih
  | cons => simp

theorem Generates.ne_nil {index : Nat} {w : List α} (h : g.Generates R index w) : w ≠ [] := by
  rcases h with ⟨_, a, rfl, _⟩ | ⟨rule, _, _, spells⟩
  · simp
  · exact spells.ne_nil

end Grammar

/-- The right-hand side of a production in normal form. A literal that ignores case is in lower
case. -/
inductive Body
  | literal (text : String) (caseSensitive : Bool)
  | unary (operand : Symbol)
  | binary (left right : Symbol)
  deriving DecidableEq

namespace Body

/-- The leaves that a right-hand side reads when `M` says what its symbols derive. -/
def Reads (R : Reading κ α) (M : Symbol → List α → Prop) (gap : Int8) : Body → List α → Prop
  | .literal text true, w => ∃ a, w = [a] ∧ R.text? a = some text
  | .literal text false, w => ∃ a t, w = [a] ∧ R.text? a = some t ∧ Lowercase.text t = text
  | .unary operand, w => M operand w
  | .binary left right, w => R.Joins gap (M left) (M right) w

def symbols : Body → List Symbol
  | .literal _ _ => []
  | .unary operand => [operand]
  | .binary left right => [left, right]

theorem Reads.mono {R : Reading κ α} {M N : Symbol → List α → Prop} {gap : Int8} {b : Body}
    (sub : ∀ s ∈ b.symbols, ∀ w, M s w → N s w) {w : List α} (h : b.Reads R M gap w) :
    b.Reads R N gap w := by
  cases b with
  | literal text caseSensitive =>
    cases caseSensitive with
    | true => exact h
    | false => exact h
  | unary operand => exact sub operand (by simp [symbols]) w h
  | binary left right =>
    exact Reading.Joins.mono (sub left (by simp [symbols])) (sub right (by simp [symbols])) h

end Body

/-- The heads of one right-hand side. -/
def Tables.headsOf (t : Tables) : Body → List Head
  | .literal text true => t.exact.getD text []
  | .literal text false => t.folded.getD text []
  | .unary operand => t.unary.getD operand []
  | .binary left right => t.binary.getD (left, right) []

namespace NormalForm

/-- Some shard has the production of `h` on the right-hand side `b`. -/
def Has (n : NormalForm) (b : Body) (h : Head) : Prop :=
  ∃ (i : Nat) (shard : Shard), n.shards[i]? = some shard ∧ h ∈ shard.tables.headsOf b

/-- What the symbols of a normal form derive through the productions of all shards. -/
inductive Derives (n : NormalForm) (R : Reading Symbol α) : Symbol → List α → Prop
  | given {symbol : Symbol} {a : α} (stands : R.stands symbol a) : Derives n R symbol [a]
  | exact {h : Head} {text : String} {a : α} (has : n.Has (.literal text true) h)
      (shows : R.text? a = some text) : Derives n R h.symbol [a]
  | folded {h : Head} {text : String} {a : α} (has : n.Has (.literal (Lowercase.text text) false) h)
      (shows : R.text? a = some text) : Derives n R h.symbol [a]
  | unary {h : Head} {operand : Symbol} {w : List α} (has : n.Has (.unary operand) h)
      (only : Derives n R operand w) : Derives n R h.symbol w
  | binary {h : Head} {left right : Symbol} {v u : List α} {a : α}
      (has : n.Has (.binary left right) h) (first : Derives n R left v)
      (second : Derives n R right (a :: u)) (within : GapAllows h.gap (R.gap a)) :
      Derives n R h.symbol (v ++ a :: u)

/-- A production entry that carries `callback` fires on the leaves `w`. -/
def Fires (n : NormalForm) (R : Reading Symbol α) (callback : Callback) (w : List α) : Prop :=
  ∃ b h, n.Has b h ∧ h.callback = callback ∧ b.Reads R (n.Derives R) h.gap w

/-- `M` holds of whatever the productions make from it. -/
def Closed (n : NormalForm) (R : Reading κ α) (M : Symbol → List α → Prop) : Prop :=
  ∀ b h, n.Has b h → ∀ w, b.Reads R M h.gap w → M h.symbol w

variable {n : NormalForm} {R : Reading Symbol α}

theorem derives_closed : n.Closed R (n.Derives R) := by
  rintro b h has w reads
  cases b with
  | literal text caseSensitive =>
    cases caseSensitive with
    | true =>
      obtain ⟨a, rfl, shows⟩ := reads
      exact .exact has shows
    | false =>
      obtain ⟨a, t, rfl, shows, rfl⟩ := reads
      exact .folded has shows
  | unary operand => exact .unary has reads
  | binary left right =>
    obtain ⟨v, a, u, rfl, first, second, within⟩ := reads
    exact .binary has first second within

/-- Derivability is the least closed meaning. -/
theorem Derives.le {M : Symbol → List α → Prop} (closed : n.Closed R M)
    (given : ∀ symbol a, R.stands symbol a → M symbol [a]) {symbol : Symbol} {w : List α}
    (h : n.Derives R symbol w) : M symbol w := by
  induction h with
  | given stands => exact given _ _ stands
  | exact has shows => exact closed _ _ has _ ⟨_, rfl, shows⟩
  | folded has shows => exact closed _ _ has _ ⟨_, _, rfl, shows, rfl⟩
  | unary has _ ih => exact closed _ _ has _ ih
  | binary has _ _ within ih₁ ih₂ => exact closed _ _ has _ ⟨_, _, _, rfl, ih₁, ih₂, within⟩

theorem Derives.ne_nil {symbol : Symbol} {w : List α} (h : n.Derives R symbol w) : w ≠ [] := by
  induction h with
  | given => simp
  | exact => simp
  | folded => simp
  | unary _ _ ih => exact ih
  | binary => simp

end NormalForm

end Phrasebook
