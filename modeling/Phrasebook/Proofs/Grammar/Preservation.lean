import Phrasebook.Proofs.Grammar.Assignment
import Phrasebook.Proofs.Grammar.Rounds

namespace Phrasebook

/-- The leaves as the normal form of a grammar reads them. -/
def Reading.through (g : Grammar) (n : NormalForm) (R : Reading Nat α) : Reading Symbol α where
  text? := R.text?
  stands s a := ∃ i m, g.IsGiven i ∧ g.nonterminals[i]? = some m ∧ n.symbol? m.name = some s ∧
    R.stands i a
  gap := R.gap

/-- Productions read the same texts and gaps. -/
theorem NormalForm.closed_through {g : Grammar} {n m : NormalForm} {R : Reading Nat α}
    {M : Meaning α} : m.Closed (R.through g n) M ↔ m.Closed R M := by
  have same (b : Body) (gap : Int8) (w : List α) :
      b.Reads (R.through g n) M gap w ↔ b.Reads R M gap w := by
    cases b with
    | literal text caseSensitive => cases caseSensitive <;> exact .rfl
    | unary operand => exact .rfl
    | binary left right => exact .rfl
  simp only [Closed, same]

namespace Grammar

namespace Progress

section
variable {g : Grammar} {R : Reading Nat α} {p : Progress}

/-- Without productions, symbols may mean what any grammar generates from their nonterminals. -/
theorem Starts.explains (starts : p.Starts g) (h : Grammar) (R : Reading Nat α) :
    ∃ M, p.Explains h R M := by
  refine ⟨fun s w => ∃ i, p.symbol? i = some s ∧ h.Generates R i w, ⟨?_,
    fun b h has => absurd has (starts.not_has b h), fun b h has => absurd has (starts.not_has b h),
    fun b h has => absurd has (starts.not_has b h)⟩, fun i s found w => ⟨?_, ?_⟩⟩
  · rintro s w ⟨i, _, generates⟩
    exact generates.ne_nil
  · rintro ⟨j, alsoFound, generates⟩
    exact starts.injective j i s alsoFound found ▸ generates
  · exact fun generates => ⟨i, found, generates⟩

/-- Before any rule is lowered, symbols mean what their nonterminals generate. -/
theorem Owned.holds (formed : g.WellFormed) (owned : p.Owned g g.nonterminals.size) :
    p.Holds g R g.rules.toList := by
  have tidy : p.Tidy g := by
    refine { owned with
      bounded := owned.toStarts.bounded
      locales := ?_
      symbols_le := fun i s found => (owned.bounds i s found).2
      callbacks := fun b h has => absurd has (owned.not_has b h)
      given := fun i isGiven => ?_
      single := fun i isNone => ?_
      names := fun s name isName => ?_ }
    · rw [NormalForm.frame, owned.shards]
      simp [NormalForm.ofShards, Function.comp_def]
    · obtain ⟨s, found⟩ := Option.isSome_iff_exists.mp (owned.given i isGiven)
      exact ⟨s, found, (owned.bounds i s found).1⟩
    · by_cases inRange : i < g.nonterminals.size
      · exact owned.single i inRange isNone
      · have none : g.rules.toList.filter (·.lhs == i) = [] := by
          refine List.filter_eq_nil_iff.mpr fun rule member here => inRange ?_
          rw [← beq_iff_eq.mp here]
          exact (formed.rules rule (Array.mem_toList_iff.mp member)).lhs
        simp [none]
    · obtain ⟨i, n, isNonterminal, isName, found⟩ := owned.borne s name isName
      exact ⟨(owned.bounds i s found).2, n, Array.mem_of_getElem? isNonterminal, isName⟩
  refine { tidy with
    sublist := .refl _
    own := fun rule _ s found => owned.unshareable _ s found
    explained := owned.explains g R
    lowered := fun rule member => .inl (Array.mem_toList_iff.mpr member)
    used := fun s positive bound => ?_ }
  · obtain ⟨i, found⟩ := owned.taken s positive bound
    rcases owned.owner i s found with isGiven | ⟨rule, member, rfl⟩
    · exact .inr (.inl ⟨i, isGiven, found⟩)
    · exact .inr (.inr ⟨rule, Array.mem_toList_iff.mpr member, found⟩)

end

end Progress

section
variable {g : Grammar} {n : NormalForm} {R : Reading Nat α}

/-- What a normal form goes through: two rounds over the nonterminals, and then all rules. -/
theorem normalize_rounds (normal : g.normalize = .ok n) :
    ∃ p₁ p₂ : Progress, g.eachNonterminal (Progress.initial g) (Progress.assignGiven g) = .ok p₁ ∧
      g.eachNonterminal p₁ (Progress.assignOwn g) = .ok p₂ ∧
      (p₂.settle g g.rules.toList).1.normal = n ∧ (p₂.settle g g.rules.toList).2 = [] := by
  unfold normalize at normal
  cases first : g.eachNonterminal (Progress.initial g) (Progress.assignGiven g) with
  | error e =>
    rw [Progress.initial] at first
    simp only [first] at normal
    cases normal
  | ok p₁ =>
    rw [Progress.initial] at first
    simp only [first] at normal
    cases second : g.eachNonterminal p₁ (Progress.assignOwn g) with
    | error e =>
      simp only [bind, Except.bind, second] at normal
      cases normal
    | ok p₂ =>
      simp only [bind, Except.bind, second] at normal
      split at normal
      · next p result =>
        cases normal
        exact ⟨p₁, p₂, rfl, second, by rw [result], by rw [result]⟩
      · cases normal

/-- A normal form is what lowering all rules leads to, and nonterminals that need no rules have
none. -/
theorem normalize_eq_ok (built : g.Built) (normal : g.normalize = .ok n) :
    ∃ p : Progress, p.Owned g g.nonterminals.size ∧ (p.settle g g.rules.toList).1.normal = n ∧
      (p.settle g g.rules.toList).2 = [] ∧ ∀ rule ∈ g.rules, ¬ g.IsGiven rule.lhs := by
  obtain ⟨p₁, p₂, first, second, isNormal, none⟩ := normalize_rounds normal
  have given : p₁.Given g g.nonterminals.size :=
    Progress.eachNonterminal_induction (fun k p => p.Given g k) first (Progress.Given.initial g)
      fun k m p q found holds step => holds.step built.consistent found step
  have owned : p₂.Owned g g.nonterminals.size :=
    Progress.eachNonterminal_induction (fun k p => p.Owned g k) second given.owned
      fun k m p q found holds step => holds.step built.consistent found step
  exact ⟨p₂, owned, isNormal, none,
    fun rule member => given.bare rule member (built.wellFormed.rules rule member).lhs⟩

/-- When a grammar has a normal form, all its rules have been lowered. -/
theorem normalize_holds (built : g.Built) (normal : g.normalize = .ok n) (R : Reading Nat α) :
    ∃ p : Progress, p.normal = n ∧ p.Holds g R [] ∧ ∀ rule ∈ g.rules, ¬ g.IsGiven rule.lhs := by
  have formed := built.wellFormed
  obtain ⟨p, owned, isNormal, none, bare⟩ := normalize_eq_ok built normal
  have settled := (owned.holds (R := R) formed).settle formed
  rw [none] at settled
  exact ⟨_, isNormal, settled, bare⟩

/-- What an element spells in the normal form. -/
def Progress.Spelled (p : Progress) (R : Reading Nat α) (D : Meaning α) (o : RuleOptions) :
    Element → List α → Prop
  | .literal text => R.Shows text o.caseSensitive
  | .reference i => fun w => ∃ s, p.symbol? i = some s ∧ D s w

theorem Progress.joinsAll_spelled {p : Progress} {D : Meaning α} {rule : Rule} {w : List α}
    (h : R.JoinsAll rule.options.gap (rule.rhs.map (p.Spelled R D rule.options)) w) :
    R.JoinsAll rule.options.gap (rule.rhs.map fun e => (p.part rule e).Means R D) w := by
  refine Reading.JoinsAll.mono (fun e _ v spelled => ?_) h
  cases e with
  | literal text => exact spelled
  | reference i =>
    obtain ⟨s, found, derives⟩ := spelled
    simp only [Progress.part, found, Option.getD_some]
    exact derives

/-- What a right-hand side spells, its elements spell in turn in the normal form. -/
theorem Spells.spelled {p : Progress} (holds : p.Holds g R []) {o : RuleOptions}
    {rhs : List Element} {w : List α} (h : g.Spells R o rhs w) :
    R.JoinsAll o.gap
      (rhs.map (p.Spelled R (p.normal.Derives (R.through g p.normal)) o)) w := by
  induction h with
  | literal shows => exact shows
  | @given o i a isGiven stands =>
    obtain ⟨s, found, _⟩ := holds.given i isGiven
    obtain ⟨m, isFound, _⟩ := id isGiven
    exact ⟨s, found, .given ⟨i, m, isGiven, isFound, (holds.named i m isFound).trans found, stands⟩⟩
  | @rule o rule w member _ ih =>
    have represents := (holds.lowered rule member).resolve_left (by simp)
    obtain ⟨s, found, _, derives⟩ := represents
    refine ⟨s, found, (derives _ ?_ ?_ w (Progress.joinsAll_spelled ih)).1⟩
    · exact NormalForm.closed_through.mp NormalForm.derives_closed
    · exact fun _ _ => NormalForm.Derives.ne_nil
  | cons _ _ within ih₁ ih₂ => exact ⟨_, _, _, rfl, ih₁, ih₂, within⟩

/-- What the normal form derives lies in every meaning that explains it. -/
theorem Progress.Explains.derives {p : Progress} (tidy : p.Tidy g) {M : Meaning α}
    (explains : p.Explains g R M) {s : Symbol} {w : List α}
    (h : p.normal.Derives (R.through g p.normal) s w) : M s w := by
  refine h.le (NormalForm.closed_through.mpr explains.1.sound) fun s a stands => ?_
  obtain ⟨i, m, isGiven, isFound, named, stands⟩ := stands
  rw [tidy.named i m isFound] at named
  exact (explains.2 i s named [a]).mpr (.inl ⟨isGiven, a, rfl, stands⟩)

/-- A nonterminal that has a symbol generates what the symbol derives. -/
theorem Progress.Holds.generates_iff {p : Progress} (holds : p.Holds g R []) {i : Nat} {s : Symbol}
    (found : p.symbol? i = some s) (w : List α) :
    g.Generates R i w ↔ p.normal.Derives (R.through g p.normal) s w := by
  obtain ⟨M, explains⟩ := holds.explained
  constructor
  · intro generates
    have spells : g.Spells R {} [.reference i] w := spells_singleton.mpr generates
    obtain ⟨t, alsoFound, derives⟩ := spells.spelled holds
    obtain rfl := Option.some.inj (found.symm.trans alsoFound)
    exact derives
  · intro derives
    exact (explains.2 i s found w).mp (explains.derives holds.toTidy derives)

/-- Entries with a callback fire where a rule with that callback spells the leaves. -/
theorem Progress.Holds.fires_iff {p : Progress} (formed : g.WellFormed) (holds : p.Holds g R [])
    {callback : Callback} (loud : callback.isSilent = false)
    (other : callback.id ≠ Builtin.exclusion.id) (w : List α) :
    p.normal.Fires (R.through g p.normal) callback w ↔ g.Allowed R callback w := by
  constructor
  · rintro ⟨b, h, has, rfl, reads⟩
    obtain ⟨M, explains⟩ := holds.explained
    refine explains.1.loud b h has loud other w ?_
    exact Body.Reads.mono (fun _ _ v derives => explains.derives holds.toTidy derives) reads
  · rintro ⟨rule, member, rfl, spells⟩
    have none := (formed.rules rule member).excluded_eq_none other
    obtain ⟨_, _, _, derives⟩ := (holds.lowered rule member).resolve_left (by simp)
    refine (derives _ ?_ ?_ w (Progress.joinsAll_spelled (spells.spelled holds))).2 loud none
    · exact NormalForm.closed_through.mp NormalForm.derives_closed
    · exact fun _ _ => NormalForm.Derives.ne_nil

end

end Grammar

/-- A leaf with the white space in front of it: a piece of text, or a nonterminal that needs no
rules. -/
inductive Leaf
  | piece (text : String) (gap : Nat)
  | given (index : Nat) (gap : Nat)
  deriving DecidableEq, Repr

def Leaf.reading : Reading Nat Leaf where
  text?
    | .piece text _ => some text
    | .given _ _ => none
  stands index a := ∃ gap, a = .given index gap
  gap
    | .piece _ gap => gap
    | .given _ gap => gap

/-- Every nonterminal with rules derives what its symbol derives in the normal form, and a callback
fires in the normal form where a rule that carries it spells the leaves. -/
theorem Grammar.normalize_preserves {g : Grammar} {n : NormalForm} (built : g.Built)
    (normal : g.normalize = .ok n) :
    (∀ index m, g.nonterminals[index]? = some m → (∃ rule ∈ g.rules, rule.lhs = index) →
      ∃ symbol, n.symbol? m.name = some symbol ∧ ∀ w : List Leaf,
        g.Derives Leaf.reading index w ↔ n.Derives (Leaf.reading.through g n) symbol w) ∧
    ∀ callback : Callback, callback.isSilent = false → callback.id ≠ Builtin.exclusion.id →
      ∀ w : List Leaf, n.Fires (Leaf.reading.through g n) callback w ↔
        ∃ rule ∈ g.rules, rule.options.callback = callback ∧
          g.Spells Leaf.reading rule.options rule.rhs w := by
  obtain ⟨p, rfl, holds, bare⟩ := normalize_holds built normal Leaf.reading
  refine ⟨?_, fun callback loud other w => holds.fires_iff built.wellFormed loud other w⟩
  rintro index m isFound ⟨rule, member, rfl⟩
  obtain ⟨s, found, _⟩ := (holds.lowered rule member).resolve_left (by simp)
  refine ⟨s, (holds.named _ m isFound).trans found, fun w => ?_⟩
  rw [← holds.generates_iff found]
  exact ⟨.inr, fun generates => generates.resolve_left fun isGiven => bare rule member isGiven.1⟩

/-- A grammar that reports the empty text. -/
def Grammar.emptyText : Grammar :=
  (ofShards []).after (.rule "<1>" ["<^>", "<$>"] (.root 7))

theorem Grammar.emptyText_nonterminals :
    emptyText.nonterminals = #[{ name := "<1>" }, { name := "<^>" }, { name := "<$>" }] := by
  decide +kernel

theorem Grammar.emptyText_built : emptyText.Built := .after (.ofShards []) _

theorem Grammar.emptyText_rules :
    emptyText.rules =
      #[{ lhs := 0, rhs := [.reference 1, .reference 2], options := .root 7 }] := by
  unfold emptyText after Declaration.declare add addRule
  rw [distinct_eq_eraseDups]
  decide +kernel

theorem Grammar.normalize_preserves_emptyText :
    ∃ n, emptyText.normalize = .ok n ∧ ∃ symbol, n.symbol? "<1>" = some symbol ∧
      n.Derives (Leaf.reading.through emptyText n) symbol [.given 1 0, .given 2 0] := by
  have succeeds : emptyText.normalize.isOk = true := by
    unfold emptyText after Declaration.declare add addRule
    rw [distinct_eq_eraseDups]
    decide +kernel
  have isRule : { lhs := 0, rhs := [.reference 1, .reference 2], options := .root 7 } ∈
      emptyText.rules := by
    rw [emptyText_rules]
    exact Array.mem_singleton.mpr rfl
  have start : emptyText.IsGiven 1 :=
    ⟨{ name := "<^>" }, by rw [emptyText_nonterminals]; rfl, .inl (by decide +kernel)⟩
  have stop : emptyText.IsGiven 2 :=
    ⟨{ name := "<$>" }, by rw [emptyText_nonterminals]; rfl, .inl (by decide +kernel)⟩
  cases normal : emptyText.normalize with
  | error e =>
    rw [normal] at succeeds
    cases succeeds
  | ok n =>
    obtain ⟨derives, _⟩ := normalize_preserves emptyText_built normal
    obtain ⟨symbol, named, iff⟩ := derives 0 { name := "<1>" }
      (by rw [emptyText_nonterminals]; rfl) ⟨_, isRule, rfl⟩
    refine ⟨n, rfl, symbol, named, (iff _).mp ⟨_, isRule, rfl, ?_⟩⟩
    have first (o : RuleOptions) : emptyText.Spells Leaf.reading o [.reference 1] [.given 1 0] :=
      .given start ⟨0, rfl⟩
    have second (o : RuleOptions) : emptyText.Spells Leaf.reading o [.reference 2] [.given 2 0] :=
      .given stop ⟨0, rfl⟩
    exact .cons (first _) (second _) (.inl (by decide))

end Phrasebook
