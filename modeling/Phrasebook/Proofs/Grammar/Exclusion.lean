import Phrasebook.Proofs.Grammar.Charting
import Phrasebook.Proofs.Grammar.Naming
import Phrasebook.Proofs.RuleSet.Listing
import Phrasebook.Proofs.Session.Evaluation
import Phrasebook.Proofs.Session.Exclusion

namespace Phrasebook

namespace Grammar

namespace Progress

/-- The callback that the rule asks for fires wherever its parts are joined. -/
structure Carries (R : Reading Nat α) (p : Progress) (rule : Rule) : Prop where
  ready : p.isReady rule = true
  fires : (p.request rule).callback.isSilent = false →
    ∀ D : Meaning α, p.normal.Closed R D → D.Solid → ∀ w,
      R.JoinsAll rule.options.gap (rule.rhs.map fun e => (p.part rule e).Means R D) w →
        p.normal.FiresUnder R D (p.request rule).callback w

section
variable {g : Grammar} {R : Reading Nat α} {p q : Progress} {rule : Rule}

theorem request_callback_grows (grows : p.Grows q) (ready : p.isReady rule = true) :
    (q.request rule).callback = (p.request rule).callback := by
  cases excluded : rule.excluded with
  | none => rw [request_callback excluded, request_callback excluded]
  | some i =>
    have inReferences : i ∈ rule.references := List.mem_append_right _ (by simp [excluded])
    obtain ⟨s, found⟩ := Option.isSome_iff_exists.mp (List.all_eq_true.mp ready i inReferences)
    simp only [request, excluded, found, grows.symbols i s found]

theorem joinsAll_grows (grows : p.Grows q) (ready : p.isReady rule = true) {D : Meaning α}
    {w : List α}
    (joins : R.JoinsAll rule.options.gap (rule.rhs.map fun e => (q.part rule e).Means R D) w) :
    R.JoinsAll rule.options.gap (rule.rhs.map fun e => (p.part rule e).Means R D) w := by
  have same : (rule.rhs.map fun e => (q.part rule e).Means R D) =
      rule.rhs.map fun e => (p.part rule e).Means R D :=
    List.map_congr_left fun e member => by rw [part_eq grows ready member]
  rwa [same] at joins

theorem Carries.grows (grows : p.Grows q) (carries : p.Carries R rule) : q.Carries R rule := by
  have callback := request_callback_grows grows carries.ready
  refine ⟨isReady_grows grows carries.ready, fun loud D closed solid w joins => ?_⟩
  rw [callback] at loud ⊢
  have joins := joinsAll_grows grows carries.ready joins
  have fires := carries.fires loud D (closed.of_extends grows.productions) solid w joins
  exact fires.extends grows.productions loud

theorem carries_lower {after : NormalForm} {symbol : Symbol} (tidy : p.Tidy g)
    (fits : g.RuleFits rule) (ready : p.isReady rule = true)
    (lowers : p.Lowers g R rule after symbol) : (p.lower g rule).Carries R rule := by
  have grows := grows_lower tidy fits lowers
  refine ⟨isReady_grows grows ready, fun loud D closed solid w joins => ?_⟩
  rw [request_callback_grows grows ready] at loud ⊢
  rw [lowers.result] at closed ⊢
  have joins := joinsAll_grows grows ready joins
  exact (lowers.realizes.represents D closed solid w joins).2 loud

/-- The state of a sweep in which every rule that is not pending has its callback. -/
structure Calls (g : Grammar) (R : Reading Nat α) (pending : List Rule) (p : Progress) : Prop
    extends Holds g R pending p where
  carried : ∀ rule ∈ g.rules, rule ∈ pending ∨ p.Carries R rule

theorem Calls.lower {before rest : List Rule} (formed : g.WellFormed)
    (calls : p.Calls g R (before ++ rule :: rest)) (ready : p.isReady rule = true) :
    (p.lower g rule).Calls g R (before ++ rest) := by
  have isPending : rule ∈ before ++ rule :: rest := by simp
  have member : rule ∈ g.rules := Array.mem_toList_iff.mp (calls.sublist.subset isPending)
  have fits := formed.rules rule member
  obtain ⟨after, symbol, lowers⟩ := Progress.lowers (R := R) calls.toTidy fits ready
    (calls.own rule isPending)
  refine ⟨calls.toHolds.lower formed ready, fun other isRule => ?_⟩
  rcases calls.carried other isRule with waits | carries
  · by_cases same : other = rule
    · subst same
      exact .inr (carries_lower calls.toTidy fits ready lowers)
    · refine .inl ?_
      simpa [same] using waits
  · exact .inr (carries.grows (grows_lower calls.toTidy fits lowers))

end

end Progress

/-- When a grammar has a normal form, every rule has its callback there. -/
theorem normalize_calls {g : Grammar} {n : NormalForm} (built : g.Built)
    (normal : g.normalize = .ok n) (R : Reading Nat α) :
    ∃ p : Progress, p.normal = n ∧ p.Calls g R [] := by
  have formed := built.wellFormed
  obtain ⟨p, owned, isNormal, none, _⟩ := normalize_eq_ok built normal
  have start : p.Calls g R g.rules.toList :=
    ⟨owned.holds formed, fun rule member => .inl (Array.mem_toList_iff.mpr member)⟩
  have settled := Progress.settle_induction (P := fun p rules => p.Calls g R rules)
    (fun _ _ _ _ calls ready => calls.lower formed ready) start
  rw [none] at settled
  exact ⟨_, isNormal, settled⟩

/-- The excluded nonterminal of a rule has a symbol, and the normal form calls the exclusion filter
with it wherever the rule is spelled. -/
theorem exclusion_fires {g : Grammar} {n : NormalForm} (built : g.Built)
    (normal : g.normalize = .ok n) {rule : Rule} (member : rule ∈ g.rules) {index : Nat}
    (excluded : rule.excluded = some index) :
    ∃ m symbol, g.nonterminals[index]? = some m ∧ n.symbol? m.name = some symbol ∧
      symbol ≤ n.symbolCount ∧
      ∀ (α : Type) (R : Reading Nat α) (w : List α), g.Spells R rule.options rule.rhs w →
        n.Fires (R.through g n) ⟨Builtin.exclusion.id, .ofNat symbol⟩ w := by
  have fits := built.wellFormed.rules rule member
  have isReference : index ∈ rule.references := List.mem_append_right _ (by simp [excluded])
  obtain ⟨m, found⟩ : ∃ m, g.nonterminals[index]? = some m :=
    ⟨_, Array.getElem?_eq_getElem (fits.references index isReference)⟩
  have isExclusion : rule.options.callback.id = Builtin.exclusion.id :=
    fits.excluded (by simp [excluded])
  have each {α : Type} (R : Reading Nat α) : ∃ symbol,
      n.symbol? m.name = some symbol ∧ symbol ≤ n.symbolCount ∧
      ∀ w, g.Spells R rule.options rule.rhs w →
        n.Fires (R.through g n) ⟨Builtin.exclusion.id, .ofNat symbol⟩ w := by
    obtain ⟨p, rfl, calls⟩ := normalize_calls built normal R
    have carries := (calls.carried rule member).resolve_left (by simp)
    obtain ⟨symbol, isSymbol⟩ := Option.isSome_iff_exists.mp
      (List.all_eq_true.mp carries.ready index isReference)
    refine ⟨symbol, (calls.named index _ found).trans isSymbol, calls.symbols_le index _ isSymbol,
      fun w spells => ?_⟩
    have callback : (p.request rule).callback = ⟨Builtin.exclusion.id, .ofNat symbol⟩ := by
      simp only [Progress.request, excluded, isSymbol, isExclusion, Option.getD_some]
    have joins := Progress.joinsAll_spelled (spells.spelled calls.toHolds)
    have fires := carries.fires (callback ▸ rfl) _
      (NormalForm.closed_through.mp NormalForm.derives_closed)
      (fun _ _ => NormalForm.Derives.ne_nil) w joins
    exact callback ▸ fires
  obtain ⟨symbol, named, bound, _⟩ := each Leaf.reading
  refine ⟨m, symbol, found, named, bound, fun α R w spells => ?_⟩
  obtain ⟨other, alsoNamed, _, fires⟩ := each R
  obtain rfl := Option.some.inj (named.symm.trans alsoNamed)
  exact fires w spells

/-- A rule with an excluded nonterminal calls the exclusion filter wherever it is spelled, with the
symbol of that nonterminal: a grammar that is compiled with its names has symbols that a call can
carry. Whenever a pass is about to make such a call for a match, the match is in the chart at the end
of the pass exactly if no match of the symbol with the identical span is in the chart by then. -/
theorem exclusion_decides {g : Grammar} {withNames : Bool} {rules : RuleSet} (built : g.Built)
    (compiled : g.compile withNames = .ok rules) (fit : rules.buffer.size < wordBound) {rule : Rule}
    (member : rule ∈ g.rules) {index : Nat} (excluded : rule.excluded = some index) :
    ∃ n m symbol param, g.normalize = .ok n ∧ g.nonterminals[index]? = some m ∧
      n.symbol? m.name = some symbol ∧ param = UInt64.ofNat symbol ∧
      (withNames = true ∨ n.symbolCount < 2 ^ 64 → param.toNat = symbol) ∧
      (∀ (α : Type) (R : Reading Nat α) (w : List α), g.Spells R rule.options rule.rhs w →
        n.Fires (R.through g n) ⟨Builtin.exclusion.id, param⟩ w) ∧
      ∀ locales limit tokens labels s id rest,
        Machine.Reaches (.ofRules rules locales limit) .collector
          (Pass.start (.ofRules rules locales limit) tokens labels)
          ⟨s, .fire id ⟨Builtin.exclusion.id, param⟩ :: rest⟩ →
        ∃ made, s.arena.get? id = some made ∧
          ((Pass.session (.ofRules rules locales limit) tokens labels).Propagated id ↔
            ¬ ∃ other covering, s.Propagated other ∧ s.arena.get? other = some covering ∧
              covering.span = made.span ∧ covering.symbol = param.toNat) := by
  obtain ⟨n, normal, _⟩ := compile_eq_ok compiled
  obtain ⟨m, symbol, found, named, bound, fires⟩ := exclusion_fires built normal member excluded
  refine ⟨n, m, symbol, _, normal, found, named, rfl, fun small => ?_, fires, ?_⟩
  · refine UInt64.toNat_ofNat_of_lt' (Nat.lt_of_le_of_lt bound ?_)
    rcases small with rfl | small
    · exact Nat.lt_trans (symbolCount_lt built normal compiled fit) (by decide)
    · exact small
  intro locales limit tokens labels s id rest reach
  have lists : rules.ListsFilters := fun _ head _ =>
    RuleSet.lists_of_filters (isFilter_builtin built compiled fit) head.callback
  obtain ⟨made, isMade, decided⟩ := Pass.propagated_iff_not_covered lists reach rfl
  exact ⟨made, isMade, decided⟩

end Grammar

/-- Match 1 is a `<1>` for which the exclusion filter was called with `<2>`, match 0 is a `<2>` over
the same span, and both are in the chart. -/
def NormalForm.endsCovered (n : NormalForm) (s : Session) : Bool :=
  n.symbol? "<1>" == some 1 && n.symbol? "<2>" == some 2 && s.stats.dropped == 0 &&
    s.log.contains (.fired ⟨Builtin.exclusion.id, 2⟩ 1 .idle) &&
    (s.chart.endingAt 1).contains 1 && (s.chart.endingAt 1).contains 0 &&
    (s.arena.get? 1).any (fun m => m.symbol == 1 && m.span == ⟨0, 1⟩) &&
    (s.arena.get? 0).any fun m => m.symbol == 2 && m.span == ⟨0, 1⟩

/-- The normal form can be compiled, and a pass over the text meets the check. -/
def NormalForm.passes (n : NormalForm) (text : String) (check : NormalForm → Session → Bool) :
    Bool :=
  match RuleSet.compile n false with
  | .ok rules =>
    decide (rules.buffer.size < wordBound) &&
      check n (Pass.session (.ofRules rules [] 1000) (tokenize text) [])
  | .error _ => false

/-- A one that is no `<2>`, where every one is a `<2>`. -/
def Grammar.oneNotTwo : Grammar :=
  (((ofShards []).after (.exclusion "<1>" ["1"] "<2>" {})).after (.rule "<2>" ["1"] {})).after
    (.rule "<3>" ["<1>"] (.root 7))

/-- The rule that excludes `<2>`. -/
def Grammar.oneNotTwoRule : Rule where
  lhs := 1
  rhs := [.literal "1"]
  options := { callback := ⟨Builtin.exclusion.id, 0⟩ }
  excluded := some 0

theorem Grammar.oneNotTwo_eq : oneNotTwo =
    { shards := [[]]
      nonterminals := #[{ name := "<2>" }, { name := "<1>" }, { name := "<3>" }]
      rules := #[oneNotTwoRule, { lhs := 0, rhs := [.literal "1"], options := {} },
        { lhs := 2, rhs := [.reference 1], options := .root 7 }]
      lists := #[[1], [0], [2]] } := by
  unfold oneNotTwo after Declaration.declare add addExclusion addRule
  rw [distinct_eq_eraseDups]
  with_unfolding_all rfl

theorem Grammar.oneNotTwo_passes :
    oneNotTwo.normalize.toOption.any (NormalForm.passes · "1" NormalForm.endsCovered) = true := by
  rw [oneNotTwo_eq]
  unfold NormalForm.passes RuleSet.compile
  rw [RuleSet.encode_eq_listed, Pass.session_eq_sessionIn 500]
  decide +kernel

theorem Grammar.mem_oneNotTwo : oneNotTwoRule ∈ oneNotTwo.rules := by
  rw [oneNotTwo_eq]
  exact List.mem_toArray.mpr List.mem_cons_self

theorem Grammar.oneNotTwo_runs :
    ∃ n rules, oneNotTwo.normalize = .ok n ∧ oneNotTwo.compile false = .ok rules ∧
      rules.buffer.size < wordBound ∧
      n.endsCovered (Pass.session (.ofRules rules [] 1000) (tokenize "1") []) = true := by
  obtain ⟨n, normal, passes⟩ := RuleSet.exists_ok_of_any oneNotTwo_passes
  unfold NormalForm.passes at passes
  split at passes
  · next rules compiled =>
    obtain ⟨fit, check⟩ := Bool.and_eq_true_iff.mp passes
    exact ⟨n, rules, normal, compile_of_normalize normal compiled, of_decide_eq_true fit, check⟩
  · cases passes

/-- Every one is a `<2>` in the end, but not yet when the filter of `<1>` is called. -/
theorem Grammar.oneNotTwo_ends_covered :
    ∃ n rules, oneNotTwo.normalize = .ok n ∧ oneNotTwo.compile false = .ok rules ∧
      oneNotTwoRule ∈ oneNotTwo.rules ∧ oneNotTwo.nonterminals.toList.map (·.name) =
        ["<2>", "<1>", "<3>"] ∧
      n.symbol? "<1>" = some 1 ∧ n.symbol? "<2>" = some 2 ∧
      ∃ s, s = Pass.session (.ofRules rules [] 1000) (tokenize "1") [] ∧ s.stats.dropped = 0 ∧
        .fired ⟨Builtin.exclusion.id, 2⟩ 1 .idle ∈ s.log ∧
        ∃ made covering, s.arena.get? 1 = some made ∧ s.arena.get? 0 = some covering ∧
          s.Propagated 1 ∧ s.Propagated 0 ∧ made.symbol = 1 ∧ covering.symbol = 2 ∧
          covering.span = made.span := by
  obtain ⟨n, rules, normal, compiled, _, check⟩ := oneNotTwo_runs
  simp only [NormalForm.endsCovered, Bool.and_eq_true, beq_iff_eq, Array.contains_iff_mem,
    List.contains_iff_mem, Option.any_eq_true] at check
  obtain ⟨⟨⟨⟨⟨⟨⟨one, two⟩, whole⟩, fired⟩, isIn⟩, alsoIn⟩, made, isMade, symbol, span⟩,
    covering, isCovering, other, same⟩ := check
  refine ⟨n, rules, normal, compiled, mem_oneNotTwo, ?_, one, two, _, rfl, whole, fired, made,
    covering, isMade, isCovering, ⟨1, isIn⟩, ⟨1, alsoIn⟩, symbol, other, same.trans span.symm⟩
  rw [oneNotTwo_eq]
  rfl

theorem Grammar.exclusion_decides_oneNotTwo :
    ∃ rules s rest, oneNotTwo.compile false = .ok rules ∧
      Machine.Reaches (.ofRules rules [] 1000) .collector
        (Pass.start (.ofRules rules [] 1000) (tokenize "1") [])
        ⟨s, .fire 1 ⟨Builtin.exclusion.id, 2⟩ :: rest⟩ ∧
      (Pass.session (.ofRules rules [] 1000) (tokenize "1") []).Propagated 1 ∧
      ∃ made, s.arena.get? 1 = some made ∧
        ¬ ∃ other covering, s.Propagated other ∧ s.arena.get? other = some covering ∧
          covering.span = made.span ∧ covering.symbol = 2 := by
  obtain ⟨n, rules, normal, compiled, fit, check⟩ := oneNotTwo_runs
  simp only [NormalForm.endsCovered, Bool.and_eq_true, beq_iff_eq, Array.contains_iff_mem,
    List.contains_iff_mem] at check
  obtain ⟨⟨⟨⟨⟨⟨⟨_, two⟩, _⟩, fired⟩, isIn⟩, _⟩, _⟩, _⟩ := check
  have built : oneNotTwo.Built := .after (.after (.after (.ofShards []) _) _) _
  obtain ⟨n', m, symbol, _, normal', found, named, rfl, _, _, decided⟩ :=
    exclusion_decides built compiled fit mem_oneNotTwo rfl
  obtain rfl := Except.ok.inj (normal.symm.trans normal')
  have isTwo : m.name = "<2>" := by
    rw [oneNotTwo_eq] at found
    exact congrArg Nonterminal.name (Option.some.inj found).symm
  rw [isTwo] at named
  obtain rfl := Option.some.inj (two.symm.trans named)
  obtain ⟨⟨s, _⟩, rest, reach, rfl⟩ :=
    (Pass.reaches_session (.ofRules rules [] 1000) (tokenize "1") []).exists_fire rfl fired
  obtain ⟨made, isMade, iff⟩ := decided [] 1000 (tokenize "1") [] s 1 rest reach
  exact ⟨rules, s, rest, compiled, reach, ⟨1, isIn⟩, made, isMade, iff.mp ⟨1, isIn⟩⟩

end Phrasebook
