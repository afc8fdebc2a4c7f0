import Phrasebook.Grammar.Lowering
import Phrasebook.Proofs.Grammar.Assignment
import Phrasebook.Proofs.Grammar.Declaring
import Phrasebook.Proofs.Grammar.Rounds

namespace Phrasebook

theorem NormalForm.addRule_isSome (n : NormalForm) (request : Head.Request) (shard : Nat)
    {parts : List NormalForm.Part} (nonempty : parts ≠ []) : (n.addRule request parts shard).2.isSome = true := by
  match parts with
  | [] => exact absurd rfl nonempty
  | [.literal _ _] => rfl
  | [.symbol _] => rfl
  | first :: second :: rest => rw [addRule_eq_addChain rfl]; rfl

/-- The rule with its nonterminals at other places. -/
def Rule.renumber (place : Nat → Nat) (rule : Rule) : Rule where
  lhs := place rule.lhs
  rhs := rule.rhs.map fun
    | .literal text => .literal text
    | .reference i => .reference (place i)
  options := rule.options
  excluded := rule.excluded.map place

theorem Rule.references_renumber (place : Nat → Nat) (rule : Rule) :
    (rule.renumber place).references = rule.references.map place := by
  simp only [references, renumber, List.map_append, List.filterMap_map, List.map_filterMap]
  congr 1
  · refine List.filterMap_congr fun e _ => ?_
    cases e <;> rfl
  · cases rule.excluded <;> rfl

namespace Grammar

/-- What is known from the start, and the left-hand sides of rules that refer only to what is
reached. -/
inductive Reached (rules : List Rule) (known : Nat → Prop) : Nat → Prop
  | known {i : Nat} (isKnown : known i) : Reached rules known i
  | rule {rule : Rule} (member : rule ∈ rules)
      (references : ∀ i ∈ rule.references, Reached rules known i) : Reached rules known rule.lhs

/-- A rule that refers only to what is reached. -/
def Founded (rules : List Rule) (known : Nat → Prop) (rule : Rule) : Prop :=
  ∀ i ∈ rule.references, Reached rules known i

namespace Progress

/-- The nonterminal has a symbol. -/
def Knows (p : Progress) (i : Nat) : Prop := (p.symbol? i).isSome = true

variable {g : Grammar} {p : Progress} {rule : Rule}

theorem isReady_iff : p.isReady rule = true ↔ ∀ i ∈ rule.references, p.Knows i :=
  List.all_eq_true

theorem size_lower (g : Grammar) (p : Progress) (rule : Rule) :
    (p.lower g rule).symbols.size = p.symbols.size := by
  rw [lower_eq]
  dsimp only
  split
  · rfl
  · simp

/-- Lowering a rule gives its left-hand side a symbol and takes none away. -/
theorem knows_lower (inRange : rule.lhs < p.symbols.size) (nonempty : rule.rhs ≠ []) (i : Nat) :
    (p.lower g rule).Knows i ↔ i = rule.lhs ∨ p.Knows i := by
  have yields := p.normal.addRule_isSome (p.request rule) rule.options.shard
    (show rule.rhs.map (p.part rule) ≠ [] by simpa using nonempty)
  rw [lower_eq]
  dsimp only
  generalize p.normal.addRule (p.request rule) (rule.rhs.map (p.part rule)) rule.options.shard =
    added at yields
  obtain ⟨normal, yielded⟩ := added
  obtain ⟨symbol, rfl⟩ := Option.isSome_iff_exists.mp yields
  obtain ⟨given, isGiven⟩ : ∃ s, (p.symbol? rule.lhs <|> some symbol) = some s := by
    cases p.symbol? rule.lhs <;> exact ⟨_, rfl⟩
  dsimp only
  rw [isGiven]
  simp only [Knows, symbol?, Array.getD_eq_getD_getElem?, Array.getElem?_setIfInBounds]
  by_cases same : i = rule.lhs
  · simp [same, inRange]
  · simp [same, Ne.symm same]

/-- A sweep that lowers nothing changes nothing, and none of its rules are ready. -/
theorem sweep_stuck {rules : List Rule} (all : rules.length ≤ (p.sweep g rules).2.length) :
    p.sweep g rules = (p, rules) ∧ ∀ rule ∈ rules, p.isReady rule = false := by
  have atMost (p : Progress) (rules : List Rule) : (p.sweep g rules).2.length ≤ rules.length := by
    induction rules generalizing p with
    | nil => rfl
    | cons rule rest ih =>
      rw [sweep]
      split
      · exact Nat.le_succ_of_le (ih _)
      · exact Nat.succ_le_succ (ih _)
  induction rules with
  | nil => exact ⟨rfl, List.forall_mem_nil _⟩
  | cons rule rest ih =>
    rw [sweep] at all ⊢
    split at all
    · exact absurd (Nat.le_trans all (atMost _ rest)) (Nat.not_succ_le_self _)
    · next notReady =>
      obtain ⟨same, stuck⟩ := ih (Nat.le_of_succ_le_succ all)
      rw [if_neg notReady, same]
      exact ⟨rfl, List.forall_mem_cons.mpr ⟨by simpa using notReady, stuck⟩⟩

theorem settle_notReady (g : Grammar) (p : Progress) (rules : List Rule) :
    ∀ rule ∈ (p.settle g rules).2, (p.settle g rules).1.isReady rule = false := by
  rw [settle]
  cases result : p.sweep g rules with
  | mk q stuck =>
    dsimp only
    by_cases shorter : stuck.length < rules.length
    · rw [if_pos shorter]
      exact settle_notReady g q stuck
    · have all : rules.length ≤ (p.sweep g rules).2.length := by
        rw [result]
        exact Nat.le_of_not_lt shorter
      obtain ⟨same, notReady⟩ := sweep_stuck all
      rw [same] at result
      obtain ⟨rfl, rfl⟩ := Prod.mk.inj result
      rw [if_neg shorter]
      exact notReady
termination_by rules.length

open scoped Classical in
/-- The state of a sweep as far as it matters for what gets ready: a rule is still pending or its
left-hand side has a symbol, and none of those gone from the list had to stay. -/
structure Reaches (g : Grammar) (known : Nat → Prop) (pending : List Rule) (p : Progress) : Prop where
  size : p.symbols.size = g.nonterminals.size
  start : ∀ i, known i → p.Knows i
  reached : ∀ i, p.Knows i → Reached g.rules.toList known i
  members : ∀ rule ∈ pending, rule ∈ g.rules
  lowered : ∀ rule ∈ g.rules, rule ∈ pending ∨ p.Knows rule.lhs
  stay : pending.filter (fun rule => ¬ Founded g.rules.toList known rule) =
    g.rules.toList.filter (fun rule => ¬ Founded g.rules.toList known rule)

theorem Reaches.lower {known : Nat → Prop} {before rest : List Rule} (formed : g.WellFormed)
    (reaches : p.Reaches g known (before ++ rule :: rest)) (ready : p.isReady rule = true) :
    (p.lower g rule).Reaches g known (before ++ rest) := by
  have member : rule ∈ g.rules := reaches.members rule (by simp)
  have fits := formed.rules rule member
  have knows := knows_lower (g := g) (reaches.size ▸ fits.lhs) fits.nonempty
  have founded : Founded g.rules.toList known rule := fun i isReference =>
    reaches.reached i (isReady_iff.mp ready i isReference)
  refine ⟨(size_lower g p rule).trans reaches.size, fun i isKnown => ?_, fun i isKnown => ?_,
    fun other isPending => reaches.members other ?_, fun other isRule => ?_, ?_⟩
  · exact (knows i).mpr (.inr (reaches.start i isKnown))
  · rcases (knows i).mp isKnown with rfl | old
    · exact .rule (Array.mem_toList_iff.mpr member) founded
    · exact reaches.reached i old
  · rcases List.mem_append.mp isPending with h | h
    · exact List.mem_append_left _ h
    · exact List.mem_append_right _ (List.mem_cons_of_mem _ h)
  · rcases reaches.lowered other isRule with isPending | old
    · by_cases same : other = rule
      · exact .inr ((knows _).mpr (.inl (congrArg Rule.lhs same)))
      · refine .inl ?_
        rcases List.mem_append.mp isPending with h | h
        · exact List.mem_append_left _ h
        · exact List.mem_append_right _ ((List.mem_cons.mp h).resolve_left same)
    · exact .inr ((knows _).mpr (.inr old))
  · rw [← reaches.stay, List.filter_append, List.filter_append, List.filter_cons_of_neg]
    simpa using founded

open scoped Classical in
/-- The rules that stay behind are those that refer to something that is not reached. -/
theorem settle_eq_filter {known : Nat → Prop} (formed : g.WellFormed)
    (size : p.symbols.size = g.nonterminals.size) (start : ∀ i, p.Knows i ↔ known i) :
    (p.settle g g.rules.toList).2 =
      g.rules.toList.filter fun rule => ¬ Founded g.rules.toList known rule := by
  have initial : p.Reaches g known g.rules.toList :=
    ⟨size, fun i => (start i).mpr, fun i isKnown => .known ((start i).mp isKnown),
      fun rule => Array.mem_toList_iff.mp, fun rule member => .inl (Array.mem_toList_iff.mpr member),
      rfl⟩
  have final : (p.settle g g.rules.toList).1.Reaches g known (p.settle g g.rules.toList).2 :=
    settle_induction (P := fun p rules => p.Reaches g known rules)
      (fun _ _ _ _ reaches ready => reaches.lower formed ready) initial
  have notReady := settle_notReady g p g.rules.toList
  generalize p.settle g g.rules.toList = result at final notReady ⊢
  obtain ⟨q, stuck⟩ := result
  have complete (i : Nat) (isReached : Reached g.rules.toList known i) : q.Knows i := by
    induction isReached with
    | known isKnown => exact final.start _ isKnown
    | @rule rule member _ ih =>
      refine (final.lowered rule (Array.mem_toList_iff.mp member)).resolve_left fun isStuck => ?_
      have ready : q.isReady rule = true := isReady_iff.mpr ih
      rw [notReady rule isStuck] at ready
      cases ready
  rw [← final.stay]
  refine (List.filter_eq_self.mpr fun rule isStuck => ?_).symm
  rw [decide_eq_true_eq]
  intro founded
  have ready : q.isReady rule = true :=
    isReady_iff.mpr fun i isReference => complete i (founded i isReference)
  rw [notReady rule isStuck] at ready
  cases ready

theorem knows_assign {k : Nat} (name : String) (inRange : k < p.symbols.size) (i : Nat) :
    (p.assign k name).1.Knows i ↔ p.Knows i ∨ i = k := by
  rw [Knows, symbol?_assign name inRange]
  split
  · next here => simp [here]
  · next other => simp [other, Knows]

end Progress

/-- The rules of one left-hand side. -/
def alternatives (g : Grammar) (i : Nat) : List Rule := g.rules.toList.filter (·.lhs == i)

/-- Several rules, or one that a filter watches. -/
def NeedsOwn (g : Grammar) (i : Nat) : Prop :=
  1 < (g.alternatives i).length ∨
    ∃ rule ∈ g.alternatives i, g.filters.contains rule.options.callback.id = true

/-- What has a symbol before any rule is lowered: nonterminals without rules, and those that need a
symbol of their own. -/
def Anchored (g : Grammar) (i : Nat) : Prop := g.IsGiven i ∨ g.NeedsOwn i

/-- Nonterminals with ground: the anchored ones, and those whose only rule refers to others with
ground. -/
inductive Grounded (g : Grammar) : Nat → Prop
  | anchored {i : Nat} (anchored : g.Anchored i) : g.Grounded i
  | only {rule : Rule} (only : g.alternatives rule.lhs = [rule])
      (references : ∀ i ∈ rule.references, g.Grounded i) : g.Grounded rule.lhs

section
variable {g : Grammar} {p : Progress}

theorem mem_alternatives {i : Nat} {rule : Rule} :
    rule ∈ g.alternatives i ↔ rule ∈ g.rules ∧ rule.lhs = i := by
  simp [alternatives]

/-- Being the only rule makes no difference, because several rules are an anchor. -/
theorem reached_iff_grounded {i : Nat} : Reached g.rules.toList g.Anchored i ↔ g.Grounded i := by
  constructor
  · intro reached
    induction reached with
    | known anchored => exact .anchored anchored
    | @rule rule member _ ih =>
      have isAlternative : rule ∈ g.alternatives rule.lhs :=
        mem_alternatives.mpr ⟨Array.mem_toList_iff.mp member, rfl⟩
      by_cases several : 1 < (g.alternatives rule.lhs).length
      · exact .anchored (.inr (.inl several))
      · obtain ⟨only, isOnly⟩ := List.length_eq_one_iff.mp
          (Nat.le_antisymm (Nat.le_of_not_lt several) (List.length_pos_of_mem isAlternative))
        rw [isOnly, List.mem_singleton] at isAlternative
        exact .only (isAlternative ▸ isOnly) ih
  · intro grounded
    induction grounded with
    | anchored anchored => exact .known anchored
    | @only rule only _ ih =>
      have isAlternative : rule ∈ g.alternatives rule.lhs := by simp [only]
      exact .rule (Array.mem_toList_iff.mpr (mem_alternatives.mp isAlternative).1) ih

theorem isEmpty_rulesOf {k : Nat} (listed : g.Listed) (none : ∀ rule ∈ g.rules, rule.lhs ≠ k) :
    (g.rulesOf k).isEmpty = true := by
  rw [listed.numbers]
  refine List.isEmpty_iff.mpr (List.filter_eq_nil_iff.mpr fun i member => ?_)
  rw [Array.getElem?_eq_getElem (List.mem_range.mp member), Option.any_some, beq_iff_eq]
  exact none _ (Array.getElem_mem _)

theorem isGiven_iff {k : Nat} {n : Nonterminal} (found : g.nonterminals[k]? = some n) :
    g.IsGiven k ↔ (Structural.ofName? n.name).isSome = true ∨ n.label.isSome = true := by
  simp [IsGiven, found]

/-- The first round goes through where nonterminals that need no rules have none. -/
theorem assignGiven_succeeds {k : Nat} {n : Nonterminal} (listed : g.Listed)
    (bare : ∀ rule ∈ g.rules, ¬ g.IsGiven rule.lhs) (found : g.nonterminals[k]? = some n)
    (size : p.symbols.size = g.nonterminals.size) :
    ∃ q, p.assignGiven g k n = .ok q ∧ q.symbols.size = g.nonterminals.size ∧
      ∀ i, q.Knows i ↔ p.Knows i ∨ (i = k ∧ g.IsGiven k) := by
  obtain ⟨lt, _⟩ := Array.getElem?_eq_some_iff.mp found
  have isGiven := isGiven_iff found
  have empty (given : g.IsGiven k) : (g.rulesOf k).isEmpty = true :=
    isEmpty_rulesOf listed fun rule member here => bare rule member (here ▸ given)
  have knows := Progress.knows_assign (p := p) n.name (size ▸ lt)
  have assigned : (p.assign k n.name).1.symbols.size = g.nonterminals.size :=
    (Array.size_setIfInBounds ..).trans size
  unfold Progress.assignGiven
  split
  · next kind isStructural =>
    have given : g.IsGiven k := isGiven.mpr (.inl (by rw [isStructural]; rfl))
    rw [empty given]
    exact ⟨_, rfl, assigned, fun i => (knows i).trans (or_congr_right (by simp [given]))⟩
  · next label isStructural isLabel =>
    have given : g.IsGiven k := isGiven.mpr (.inr (by rw [isLabel]; rfl))
    rw [empty given]
    exact ⟨_, rfl, assigned, fun i => (knows i).trans (or_congr_right (by simp [given]))⟩
  · next isStructural isLabel =>
    have notGiven : ¬ g.IsGiven k := by simp [isGiven, isStructural, isLabel]
    exact ⟨p, rfl, size, fun i => by simp [notGiven]⟩

theorem assignOwn_of_needsOwn {k : Nat} {n : Nonterminal} (listed : g.Listed) (new : ¬ p.Knows k)
    (own : g.NeedsOwn k) :
    p.assignOwn g k n = .ok (p.assign k n.name).1 := by
  have nonempty : ¬ (g.alternatives k).isEmpty = true := by
    intro empty
    simp [NeedsOwn, List.isEmpty_iff.mp empty] at own
  have many : ((g.alternatives k).length > 1 ||
      (g.alternatives k).any (g.filters.contains ·.options.callback.id)) = true := by
    simpa [NeedsOwn] using own
  unfold Progress.assignOwn
  rw [Progress.filterMap_rulesOf listed]
  exact (if_neg new).trans ((if_neg nonempty).trans (if_pos many))

theorem assignOwn_of_known {k : Nat} {n : Nonterminal} (known : p.Knows k) :
    p.assignOwn g k n = .ok p :=
  if_pos known

theorem assignOwn_of_not_needsOwn {k : Nat} {n : Nonterminal} (listed : g.Listed)
    (own : ¬ g.NeedsOwn k)
    (declared : (∃ rule ∈ g.rules, k ∈ rule.references) → ∃ rule ∈ g.rules, rule.lhs = k) :
    p.assignOwn g k n = .ok p := by
  by_cases known : p.Knows k
  · exact assignOwn_of_known known
  have few : ¬ ((g.alternatives k).length > 1 ||
      (g.alternatives k).any (g.filters.contains ·.options.callback.id)) = true := by
    simpa [NeedsOwn] using own
  unfold Progress.assignOwn
  rw [Progress.filterMap_rulesOf listed]
  refine (if_neg known).trans ?_
  by_cases empty : (g.alternatives k).isEmpty = true
  · have unused : ¬ g.rules.any (·.references.contains k) = true := by
      intro used
      simp only [Array.any_eq_true', List.contains_iff_mem] at used
      obtain ⟨rule, member, here⟩ := declared used
      have isAlternative := mem_alternatives.mpr ⟨member, here⟩
      rw [List.isEmpty_iff.mp empty] at isAlternative
      cases isAlternative
    exact (if_pos empty).trans (if_neg unused)
  · exact (if_neg empty).trans (if_neg few)

/-- The second round goes through where everything that rules refer to is declared. -/
theorem assignOwn_succeeds {k : Nat} {n : Nonterminal} (listed : g.Listed)
    (isDeclared : (∃ rule ∈ g.rules, k ∈ rule.references) →
      g.IsGiven k ∨ ∃ rule ∈ g.rules, rule.lhs = k)
    (found : g.nonterminals[k]? = some n) (size : p.symbols.size = g.nonterminals.size)
    (given : g.IsGiven k → p.Knows k) :
    ∃ q, p.assignOwn g k n = .ok q ∧ q.symbols.size = g.nonterminals.size ∧
      ∀ i, q.Knows i ↔ p.Knows i ∨ (i = k ∧ g.NeedsOwn k) := by
  by_cases known : p.Knows k
  · refine ⟨p, assignOwn_of_known known, size, fun i => ⟨.inl, ?_⟩⟩
    rintro (old | ⟨rfl, _⟩)
    · exact old
    · exact known
  by_cases own : g.NeedsOwn k
  · obtain ⟨lt, _⟩ := Array.getElem?_eq_some_iff.mp found
    refine ⟨_, assignOwn_of_needsOwn listed known own, (Array.size_setIfInBounds ..).trans size, fun i => ?_⟩
    exact (Progress.knows_assign n.name (size ▸ lt) i).trans (or_congr_right (by simp [own]))
  · have declared := fun used => (isDeclared used).resolve_left (mt given known)
    exact ⟨p, assignOwn_of_not_needsOwn listed own declared, size, fun i => by simp [own]⟩

/-- What holds of the nonterminals up to and including `k`. -/
theorem below_succ {P : Nat → Prop} {i k : Nat} : (i < k ∧ P i) ∨ (i = k ∧ P k) ↔ i < k + 1 ∧ P i := by
  rw [Nat.lt_succ_iff_lt_or_eq, or_and_right]
  refine or_congr_right (and_congr_right ?_)
  rintro rfl
  rfl

/-- Where nothing is wrong with the nonterminals, the anchored ones have symbols before any rule is
lowered. -/
theorem rounds_succeed (formed : g.Consistent) (bare : ∀ rule ∈ g.rules, ¬ g.IsGiven rule.lhs)
    (isDeclared : ∀ rule ∈ g.rules, ∀ i ∈ rule.references,
      g.IsGiven i ∨ ∃ other ∈ g.rules, other.lhs = i) :
    ∃ p₁ p₂ : Progress, g.eachNonterminal (Progress.initial g) (Progress.assignGiven g) = .ok p₁ ∧
      g.eachNonterminal p₁ (Progress.assignOwn g) = .ok p₂ ∧
      p₂.symbols.size = g.nonterminals.size ∧ ∀ i, p₂.Knows i ↔ g.Anchored i := by
  obtain ⟨p₁, first, size₁, known₁⟩ :
      ∃ p₁, g.eachNonterminal (Progress.initial g) (Progress.assignGiven g) = .ok p₁ ∧
        p₁.symbols.size = g.nonterminals.size ∧
        ∀ i, p₁.Knows i ↔ i < g.nonterminals.size ∧ g.IsGiven i := by
    refine Progress.eachNonterminal_succeeds
      (fun k p => p.symbols.size = g.nonterminals.size ∧ ∀ i, p.Knows i ↔ i < k ∧ g.IsGiven i)
      ⟨by simp [Progress.initial], fun i => by simp [Progress.Knows, Progress.symbol?_initial]⟩ ?_
    rintro k n p found ⟨size, known⟩
    obtain ⟨q, step, size', known'⟩ := assignGiven_succeeds formed.toListed bare found size
    refine ⟨q, step, size', fun i => (known' i).trans ?_⟩
    rw [known, below_succ]
  have given (i : Nat) : p₁.Knows i ↔ g.IsGiven i := by
    rw [known₁, and_iff_right_iff_imp]
    rintro ⟨n, found, _⟩
    exact (Array.getElem?_eq_some_iff.mp found).1
  obtain ⟨p₂, second, size₂, known₂⟩ :
      ∃ p₂, g.eachNonterminal p₁ (Progress.assignOwn g) = .ok p₂ ∧
        p₂.symbols.size = g.nonterminals.size ∧
        ∀ i, p₂.Knows i ↔ g.IsGiven i ∨ (i < g.nonterminals.size ∧ g.NeedsOwn i) := by
    refine Progress.eachNonterminal_succeeds
      (fun k p => p.symbols.size = g.nonterminals.size ∧
        ∀ i, p.Knows i ↔ g.IsGiven i ∨ (i < k ∧ g.NeedsOwn i))
      ⟨size₁, fun i => by simp [given]⟩ ?_
    rintro k n p found ⟨size, known⟩
    have isDeclaredHere : (∃ rule ∈ g.rules, k ∈ rule.references) →
        g.IsGiven k ∨ ∃ other ∈ g.rules, other.lhs = k := by
      rintro ⟨rule, member, isReference⟩
      exact isDeclared rule member k isReference
    obtain ⟨q, step, size', known'⟩ := assignOwn_succeeds formed.toListed isDeclaredHere found size
      fun isGiven => (known k).mpr (.inl isGiven)
    refine ⟨q, step, size', fun i => (known' i).trans ?_⟩
    rw [known, or_assoc, below_succ]
  refine ⟨p₁, p₂, first, second, size₂, fun i => (known₂ i).trans (or_congr_right ?_)⟩
  rw [and_iff_right_iff_imp]
  intro own
  obtain ⟨rule, isAlternative⟩ : ∃ rule, rule ∈ g.alternatives i := by
    rcases own with several | ⟨rule, isAlternative, _⟩
    · exact List.exists_mem_of_length_pos (Nat.lt_of_succ_lt several)
    · exact ⟨rule, isAlternative⟩
  obtain ⟨member, rfl⟩ := mem_alternatives.mp isAlternative
  exact (formed.rules rule member).lhs

/-- `h` has the rules of `g` in another order. `place` says where the nonterminals of `g` went; there
may be more of them in `h`. -/
structure Reorders (g h : Grammar) (place : Nat → Nat) : Prop where
  filters : ∀ callback, h.filters.contains callback = g.filters.contains callback
  nonterminals : ∀ i n, g.nonterminals[i]? = some n → h.nonterminals[place i]? = some n
  rules : h.rules.toList.Perm (g.rules.toList.map (·.renumber place))

namespace Reorders

variable {h : Grammar} {place : Nat → Nat}

theorem mem_rules (reorders : g.Reorders h place) {rule : Rule} :
    rule ∈ h.rules ↔ ∃ old ∈ g.rules, old.renumber place = rule := by
  rw [← Array.mem_toList_iff, reorders.rules.mem_iff, List.mem_map]
  simp only [Array.mem_toList_iff]

theorem place_inj (reorders : g.Reorders h place) (formed : g.WellFormed) {i j : Nat}
    (hi : i < g.nonterminals.size) (hj : j < g.nonterminals.size) (same : place i = place j) :
    i = j := by
  have isI := reorders.nonterminals i _ (Array.getElem?_eq_getElem hi)
  have isJ := reorders.nonterminals j _ (Array.getElem?_eq_getElem hj)
  rw [same, isJ, Option.some.injEq] at isI
  exact Progress.name_injective formed (Array.getElem?_eq_getElem hi) (Array.getElem?_eq_getElem hj)
    (congrArg Nonterminal.name isI.symm)

theorem isGiven_iff (reorders : g.Reorders h place) {i : Nat} (lt : i < g.nonterminals.size) :
    h.IsGiven (place i) ↔ g.IsGiven i := by
  have old := Array.getElem?_eq_getElem lt
  rw [Grammar.isGiven_iff old, Grammar.isGiven_iff (reorders.nonterminals i _ old)]

theorem alternatives (reorders : g.Reorders h place) (formed : g.WellFormed) {i : Nat}
    (lt : i < g.nonterminals.size) :
    (h.alternatives (place i)).Perm ((g.alternatives i).map (·.renumber place)) := by
  have renumbered : (g.rules.toList.map (·.renumber place)).filter (·.lhs == place i) =
      (g.alternatives i).map (·.renumber place) := by
    rw [List.filter_map]
    refine congrArg _ (List.filter_congr fun rule member => ?_)
    have inRange := (formed.rules rule (Array.mem_toList_iff.mp member)).lhs
    rw [Bool.eq_iff_iff]
    simp only [Function.comp_apply, Rule.renumber, beq_iff_eq]
    exact ⟨reorders.place_inj formed inRange lt, congrArg place⟩
  rw [← renumbered]
  exact reorders.rules.filter _

theorem needsOwn_iff (reorders : g.Reorders h place) (formed : g.WellFormed) {i : Nat}
    (lt : i < g.nonterminals.size) : h.NeedsOwn (place i) ↔ g.NeedsOwn i := by
  have perm := reorders.alternatives formed lt
  refine or_congr ?_ ?_
  · rw [perm.length_eq, List.length_map]
  · simp only [perm.mem_iff, List.mem_map, exists_exists_and_eq_and, Rule.renumber, reorders.filters]

theorem anchored_iff (reorders : g.Reorders h place) (formed : g.WellFormed) {i : Nat}
    (lt : i < g.nonterminals.size) : h.Anchored (place i) ↔ g.Anchored i :=
  or_congr (reorders.isGiven_iff lt) (reorders.needsOwn_iff formed lt)

theorem grounded_place (reorders : g.Reorders h place) (formed : g.WellFormed) {i : Nat}
    (lt : i < g.nonterminals.size) (grounded : g.Grounded i) : h.Grounded (place i) := by
  induction grounded with
  | anchored anchored => exact .anchored ((reorders.anchored_iff formed lt).mpr anchored)
  | @only rule only _ ih =>
    have isAlternative : rule ∈ g.alternatives rule.lhs := by simp [only]
    have member := (mem_alternatives.mp isAlternative).1
    have perm := reorders.alternatives formed lt
    rw [only, List.map_singleton, List.perm_singleton] at perm
    refine @Grounded.only h (rule.renumber place) perm fun j isReference => ?_
    rw [Rule.references_renumber] at isReference
    obtain ⟨i, isOld, rfl⟩ := List.mem_map.mp isReference
    exact ih i isOld ((formed.rules rule member).references i isOld)

theorem grounded_of_place (reorders : g.Reorders h place) (formed : g.WellFormed) {i j : Nat}
    (lt : i < g.nonterminals.size) (here : place i = j) (grounded : h.Grounded j) :
    g.Grounded i := by
  induction grounded generalizing i with
  | anchored anchored => exact .anchored ((reorders.anchored_iff formed lt).mp (here ▸ anchored))
  | @only rule only _ ih =>
    have isOnly : rule ∈ h.alternatives rule.lhs := by simp [only]
    obtain ⟨old, isOld, rfl⟩ := reorders.mem_rules.mp (mem_alternatives.mp isOnly).1
    have fits := formed.rules old isOld
    obtain rfl := reorders.place_inj formed lt fits.lhs here
    have perm := reorders.alternatives formed lt
    obtain ⟨single, isSingle⟩ : ∃ single, g.alternatives old.lhs = [single] := by
      have length := perm.length_eq
      rw [here, only, List.length_map] at length
      exact List.length_eq_one_iff.mp length.symm
    have isAlternative : old ∈ g.alternatives old.lhs := mem_alternatives.mpr ⟨isOld, rfl⟩
    rw [isSingle, List.mem_singleton] at isAlternative
    refine .only (isAlternative ▸ isSingle) fun k isReference => ?_
    refine ih (place k) ?_ (fits.references k isReference) rfl
    rw [Rule.references_renumber]
    exact List.mem_map_of_mem isReference

/-- Having ground does not depend on the order of the rules. -/
theorem grounded_iff (reorders : g.Reorders h place) (formed : g.WellFormed) {i : Nat}
    (lt : i < g.nonterminals.size) : h.Grounded (place i) ↔ g.Grounded i :=
  ⟨reorders.grounded_of_place formed lt rfl, reorders.grounded_place formed lt⟩

end Reorders

/-- All that the rule refers to has ground. -/
def Stands (g : Grammar) (rule : Rule) : Prop := ∀ i ∈ rule.references, g.Grounded i

theorem Reorders.stands_iff {h : Grammar} {place : Nat → Nat} (reorders : g.Reorders h place)
    (formed : g.WellFormed) {rule : Rule} (member : rule ∈ g.rules) :
    h.Stands (rule.renumber place) ↔ g.Stands rule := by
  have inRange := (formed.rules rule member).references
  simp only [Stands, Rule.references_renumber, List.forall_mem_map]
  exact forall₂_congr fun i isReference => reorders.grounded_iff formed (inRange i isReference)

/-- Names in order, each of them once. -/
def sortedNames (names : List String) : List String := (Std.TreeSet.ofList names).toList

theorem sorted_sortedNames (names : List String) : (sortedNames names).Pairwise (· < ·) := by
  rw [sortedNames]
  refine Std.TreeSet.ordered_toList.imp fun lt => ?_
  exact compareOfLessAndEq_eq_lt.mp lt

theorem mem_sortedNames {names : List String} {name : String} :
    name ∈ sortedNames names ↔ name ∈ names := by
  rw [sortedNames, Std.TreeSet.mem_toList, Std.TreeSet.mem_ofList, List.contains_iff_mem]

theorem sortedNames_perm {names others : List String} (perm : names.Perm others) :
    sortedNames names = sortedNames others :=
  (sorted_sortedNames names).eq_of_mem_iff (sorted_sortedNames others) fun name => by
    rw [mem_sortedNames, mem_sortedNames, perm.mem_iff]

/-- What the names of left-hand sides are. -/
def lhsName? (g : Grammar) (rule : Rule) : Option String := (g.nonterminals[rule.lhs]?).map (·.name)

open scoped Classical in
/-- The rules that refer to something without ground. -/
noncomputable def unfounded (g : Grammar) : List Rule :=
  g.rules.toList.filter fun rule => ¬ g.Stands rule

theorem mem_unfounded {rule : Rule} : rule ∈ g.unfounded ↔ rule ∈ g.rules ∧ ¬ g.Stands rule := by
  simp [unfounded]

theorem mem_lhsNames {rules : List Rule} {name : String} :
    name ∈ sortedNames (rules.filterMap g.lhsName?) ↔ ∃ rule ∈ rules, g.Calls rule.lhs name := by
  rw [mem_sortedNames, List.mem_filterMap]
  rfl

namespace Reorders

variable {h : Grammar} {place : Nat → Nat}

theorem bare (reorders : g.Reorders h place) (formed : g.WellFormed)
    (bare : ∀ rule ∈ g.rules, ¬ g.IsGiven rule.lhs) : ∀ rule ∈ h.rules, ¬ h.IsGiven rule.lhs := by
  intro rule member
  obtain ⟨old, isOld, rfl⟩ := reorders.mem_rules.mp member
  exact fun given => bare old isOld ((reorders.isGiven_iff (formed.rules old isOld).lhs).mp given)

theorem isDeclared (reorders : g.Reorders h place) (formed : g.WellFormed)
    (isDeclared : ∀ rule ∈ g.rules, ∀ i ∈ rule.references,
      g.IsGiven i ∨ ∃ other ∈ g.rules, other.lhs = i) :
    ∀ rule ∈ h.rules, ∀ i ∈ rule.references, h.IsGiven i ∨ ∃ other ∈ h.rules, other.lhs = i := by
  intro rule member j isReference
  obtain ⟨old, isOld, rfl⟩ := reorders.mem_rules.mp member
  rw [Rule.references_renumber] at isReference
  obtain ⟨i, refers, rfl⟩ := List.mem_map.mp isReference
  have inRange := (formed.rules old isOld).references i refers
  rcases isDeclared old isOld i refers with given | ⟨other, isOther, rfl⟩
  · exact .inl ((reorders.isGiven_iff inRange).mpr given)
  · exact .inr ⟨other.renumber place, reorders.mem_rules.mpr ⟨other, isOther, rfl⟩, rfl⟩

theorem unfounded_perm (reorders : g.Reorders h place) (formed : g.WellFormed) :
    h.unfounded.Perm (g.unfounded.map (·.renumber place)) := by
  classical
  have renumbered : (g.rules.toList.map (·.renumber place)).filter (fun rule => ¬ h.Stands rule) =
      g.unfounded.map (·.renumber place) := by
    rw [List.filter_map]
    refine congrArg _ (List.filter_congr fun rule member => decide_eq_decide.mpr (not_congr ?_))
    exact reorders.stands_iff formed (Array.mem_toList_iff.mp member)
  rw [← renumbered]
  refine (reorders.rules.filter _).trans (List.Perm.of_eq (List.filter_congr fun rule _ => ?_))
  exact decide_eq_decide.mpr Iff.rfl

theorem lhsName?_renumber (reorders : g.Reorders h place) (formed : g.WellFormed) {rule : Rule}
    (member : rule ∈ g.rules) : h.lhsName? (rule.renumber place) = g.lhsName? rule := by
  have found := Array.getElem?_eq_getElem (formed.rules rule member).lhs
  rw [lhsName?, lhsName?, found]
  exact congrArg _ (reorders.nonterminals _ _ found)

/-- The rules that stay behind have the same names, whatever the order. -/
theorem lhsNames_perm (reorders : g.Reorders h place) (formed : g.WellFormed) :
    (h.unfounded.filterMap h.lhsName?).Perm (g.unfounded.filterMap g.lhsName?) := by
  refine ((reorders.unfounded_perm formed).filterMap _).trans (List.Perm.of_eq ?_)
  rw [List.filterMap_map]
  exact List.filterMap_congr fun rule member =>
    reorders.lhsName?_renumber formed (mem_unfounded.mp member).1

end Reorders

/-- Bringing a grammar to normal form fails exactly where rules refer to something without ground. -/
theorem normalize_eq (formed : g.Consistent) (bare : ∀ rule ∈ g.rules, ¬ g.IsGiven rule.lhs)
    (isDeclared : ∀ rule ∈ g.rules, ∀ i ∈ rule.references,
      g.IsGiven i ∨ ∃ other ∈ g.rules, other.lhs = i) :
    g.normalize.map (fun _ => ()) =
      if g.unfounded = [] then .ok ()
      else .error (.unlowerable g.unfounded.length
        (sortedNames (g.unfounded.filterMap g.lhsName?))) := by
  classical
  obtain ⟨p₁, p₂, first, second, size, known⟩ := rounds_succeed formed bare isDeclared
  have stays := Progress.settle_eq_filter formed.toWellFormed size known
  have same : g.rules.toList.filter (fun rule => ¬ Founded g.rules.toList g.Anchored rule) =
      g.unfounded := by
    refine List.filter_congr fun rule _ => decide_eq_decide.mpr (not_congr ?_)
    exact forall₂_congr fun _ _ => reached_iff_grounded
  rw [same] at stays
  generalize g.unfounded = stuck at stays
  rw [Progress.initial] at first
  unfold normalize
  simp only [first, bind, Except.bind, second]
  generalize p₂.settle g g.rules.toList = result at stays
  obtain ⟨q, rest⟩ := result
  subst stays
  cases rest with
  | nil => rfl
  | cons rule rest => rfl

open scoped Classical in
/-- A grammar has a normal form if all that its rules refer to has ground. Otherwise the error counts
the rules of which this is not true and names their left-hand sides. In what order the rules were
declared makes no difference. -/
theorem normalize_outcome (built : g.Built) (bare : ∀ rule ∈ g.rules, ¬ g.IsGiven rule.lhs)
    (isDeclared : ∀ rule ∈ g.rules, ∀ i ∈ rule.references,
      g.IsGiven i ∨ ∃ other ∈ g.rules, other.lhs = i) :
    ((∃ n, g.normalize = .ok n) ↔ ∀ rule ∈ g.rules, g.Stands rule) ∧
    ((∃ rule ∈ g.rules, ¬ g.Stands rule) → ∃ names,
      g.normalize = .error
        (.unlowerable (g.rules.toList.countP fun rule => ¬ g.Stands rule) names) ∧
      names.Pairwise (· < ·) ∧
      ∀ name, name ∈ names ↔ ∃ rule ∈ g.rules, ¬ g.Stands rule ∧ g.Calls rule.lhs name) ∧
    ∀ h place, h.Built → g.Reorders h place →
      h.normalize.map (fun _ => ()) = g.normalize.map (fun _ => ()) := by
  have formed := built.wellFormed
  have outcome := normalize_eq built.consistent bare isDeclared
  have nothing : g.unfounded = [] ↔ ∀ rule ∈ g.rules, g.Stands rule := by
    rw [List.eq_nil_iff_forall_not_mem]
    simp only [mem_unfounded, not_and, not_not]
  refine ⟨⟨?_, fun stands => ?_⟩, ?_, fun h place built' reorders => ?_⟩
  · rintro ⟨n, succeeds⟩
    by_contra some
    rw [if_neg (mt nothing.mp some), succeeds] at outcome
    cases outcome
  · rw [if_pos (nothing.mpr stands)] at outcome
    cases result : g.normalize with
    | ok n => exact ⟨n, rfl⟩
    | error e =>
      rw [result] at outcome
      cases outcome
  · rintro ⟨rule, member, falls⟩
    have some : g.unfounded ≠ [] := fun empty => falls (nothing.mp empty rule member)
    refine ⟨sortedNames (g.unfounded.filterMap g.lhsName?), ?_, sorted_sortedNames _, fun name => ?_⟩
    · rw [if_neg some] at outcome
      rw [List.countP_eq_length_filter]
      cases result : g.normalize with
      | ok n =>
        rw [result] at outcome
        cases outcome
      | error e =>
        rw [result] at outcome
        exact congrArg _ (Except.error.inj outcome)
    · rw [mem_lhsNames]
      simp only [mem_unfounded, and_assoc]
  · rw [outcome, normalize_eq built'.consistent (reorders.bare formed bare)
      (reorders.isDeclared formed isDeclared)]
    have perm := reorders.unfounded_perm formed
    have emptyIff : h.unfounded = [] ↔ g.unfounded = [] := by
      rw [← List.length_eq_zero_iff, ← List.length_eq_zero_iff, perm.length_eq, List.length_map]
    rw [sortedNames_perm (reorders.lhsNames_perm formed), perm.length_eq, List.length_map]
    simp only [emptyIff]

/-- Two nonterminals whose only rules refer to each other, and a third that stands on its own. -/
def circular : Grammar :=
  (((ofShards []).after (.rule "<1>" ["<2>"] {})).after (.rule "<2>" ["<1>"] {})).after
    (.rule "<3>" ["4"] {})

theorem circular_eq : circular =
    { shards := [[]]
      nonterminals := #[⟨"<1>", none⟩, ⟨"<2>", none⟩, ⟨"<3>", none⟩]
      rules := #[⟨0, [.reference 1], {}, none⟩, ⟨1, [.reference 0], {}, none⟩,
        ⟨2, [.literal "4"], {}, none⟩]
      lists := #[[0], [1], [2]] } := by
  unfold circular after Declaration.declare add addRule
  rw [distinct_eq_eraseDups]
  with_unfolding_all rfl

/-- The same rules the other way around. -/
def circularBack : Grammar :=
  (((ofShards []).after (.rule "<3>" ["4"] {})).after (.rule "<2>" ["<1>"] {})).after
    (.rule "<1>" ["<2>"] {})

theorem circularBack_eq : circularBack =
    { shards := [[]]
      nonterminals := #[⟨"<3>", none⟩, ⟨"<2>", none⟩, ⟨"<1>", none⟩]
      rules := #[⟨0, [.literal "4"], {}, none⟩, ⟨1, [.reference 2], {}, none⟩,
        ⟨2, [.reference 1], {}, none⟩]
      lists := #[[0], [1], [2]] } := by
  unfold circularBack after Declaration.declare add addRule
  rw [distinct_eq_eraseDups]
  with_unfolding_all rfl

theorem normalize_outcome_circular :
    circular.normalize.map (fun _ => ()) = .error (.unlowerable 2 ["<1>", "<2>"]) ∧
      (¬ ∀ rule ∈ circular.rules, circular.Stands rule) ∧
      circularBack.normalize.map (fun _ => ()) = circular.normalize.map (fun _ => ()) := by
  have isStuck : circular.normalize.map (fun _ => ()) = .error (.unlowerable 2 ["<1>", "<2>"]) := by
    rw [circular_eq]
    with_unfolding_all rfl
  have built : circular.Built := (((Built.ofShards []).after _).after _).after _
  have back : circularBack.Built := (((Built.ofShards []).after _).after _).after _
  have reorders : circular.Reorders circularBack (2 - ·) := by
    have reversed : circularBack.rules.toList =
        (circular.rules.toList.map (·.renumber (2 - ·))).reverse := by
      rw [circular_eq, circularBack_eq]
      rfl
    refine ⟨fun callback => by rw [circular_eq, circularBack_eq], fun i n found => ?_,
      reversed ▸ List.reverse_perm _⟩
    rw [circular_eq] at found
    rw [circularBack_eq]
    rcases i with _ | _ | _ | i
    · simpa using found
    · simpa using found
    · simpa using found
    · cases found
  have isGiven (i : Nat) : ¬ circular.IsGiven i := by
    rintro ⟨n, found, given⟩
    rw [circular_eq] at found
    have plain : ∀ n ∈ [(⟨"<1>", none⟩ : Nonterminal), ⟨"<2>", none⟩, ⟨"<3>", none⟩],
        Structural.ofName? n.name = none ∧ n.label = none := by decide +kernel
    obtain ⟨notStructural, notLabelled⟩ := plain n (List.mem_of_getElem? (by simpa using found))
    simp [notStructural, notLabelled] at given
  obtain ⟨outcome, -, reordered⟩ := normalize_outcome built (fun _ _ => isGiven _) (by
    rw [circular_eq]
    simp [Rule.references])
  refine ⟨isStuck, fun stands => ?_, reordered _ _ back reorders⟩
  obtain ⟨n, succeeds⟩ := outcome.mpr stands
  rw [succeeds] at isStuck
  cases isStuck

end

end Grammar

end Phrasebook
