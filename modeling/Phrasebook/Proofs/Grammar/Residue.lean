import Phrasebook.Proofs.Grammar.Grounding
import Phrasebook.Proofs.Grammar.Preservation
import Phrasebook.Proofs.Grammar.Renaming

/-!
What failed declarations leave behind: nonterminals without rules, to which nothing refers. Some of
them take symbols, so that symbols given later are others. Apart from that the grammar comes to the
same normal form, or to the same error.
-/

namespace Phrasebook

/-- Structural nonterminals and those bound to a label need no rules. -/
def Nonterminal.isGiven (n : Nonterminal) : Bool :=
  (Structural.ofName? n.name).isSome || n.label.isSome

namespace Grammar

/-- `h` has nonterminals that nothing refers to on top of those of `g`. -/
structure Residual (g h : Grammar) : Prop extends g.Registers h where
  formed : g.Consistent
  formed' : h.Consistent

namespace Residual

variable {g h : Grammar} {k : Nat} {n : Nonterminal}

theorem size_le (residual : g.Residual h) : g.nonterminals.size ≤ h.nonterminals.size := by
  obtain ⟨added, grown, _⟩ := residual.nonterminals
  have size := congrArg List.length grown
  rw [List.length_append, Array.length_toList, Array.length_toList] at size
  omega

theorem unlabelled (residual : g.Residual h) (outside : g.nonterminals.size ≤ k)
    (found : h.nonterminals[k]? = some n) : n.label = none := by
  obtain ⟨added, grown, fresh⟩ := residual.nonterminals
  rw [← Array.getElem?_toList, grown, List.getElem?_append_right (by simpa using outside)] at found
  exact (fresh n (List.mem_of_getElem? found)).1

/-- What only `h` has does not go by a name that `g` knows. -/
theorem name_ne (residual : g.Residual h) (outside : g.nonterminals.size ≤ k)
    (found : h.nonterminals[k]? = some n) {m : Nonterminal} (member : m ∈ g.nonterminals) :
    m.name ≠ n.name := by
  intro same
  obtain ⟨i, isOld⟩ := Array.mem_iff_getElem?.mp member
  have eq := Progress.name_injective residual.formed'.toWellFormed (residual.getElem? isOld) found same
  exact absurd (Array.getElem?_eq_some_iff.mp isOld).1 (eq ▸ Nat.not_lt_of_le outside)

theorem isEmpty_rulesOf (residual : g.Residual h) (outside : g.nonterminals.size ≤ k) :
    (h.rulesOf k).isEmpty = true := by
  rw [residual.lists]
  refine Grammar.isEmpty_rulesOf residual.formed.toListed fun rule member => ?_
  have lhs := (residual.formed.rules rule member).lhs
  omega

theorem unused (residual : g.Residual h) (outside : g.nonterminals.size ≤ k) :
    h.rules.any (·.references.contains k) = false := by
  rw [residual.rules]
  by_contra used
  simp only [Bool.not_eq_false, Array.any_eq_true', List.contains_iff_mem] at used
  obtain ⟨rule, member, isReference⟩ := used
  exact absurd ((residual.formed.rules rule member).references k isReference)
    (Nat.not_lt_of_le outside)

theorem lhsName? (residual : g.Residual h) {rule : Rule} (member : rule ∈ g.rules) :
    h.lhsName? rule = g.lhsName? rule := by
  have found := Array.getElem?_eq_getElem (residual.formed.rules rule member).lhs
  rw [Grammar.lhsName?, Grammar.lhsName?, found, residual.getElem? found]

end Residual

/-- How many nonterminals need no rules. -/
def givenCount (g : Grammar) : Nat := g.nonterminals.toList.countP (·.isGiven)

namespace Progress

section
variable {g h : Grammar} {p q : Progress}

/-- A round over the nonterminals of both grammars, and then over those that only `h` has. -/
theorem eachNonterminal_residual (residual : g.Residual h)
    {step step' : Progress → Nat → Nonterminal → Except Error Progress}
    (I J : Nat → Progress → Progress → Prop) (start : I 0 p q)
    (each : ∀ k n p q, g.nonterminals[k]? = some n → I k p q →
      Alike (I (k + 1)) (step p k n) (step' q k n))
    (turn : ∀ p q, I g.nonterminals.size p q → J g.nonterminals.size p q)
    (rest : ∀ k n p q, g.nonterminals.size ≤ k → h.nonterminals[k]? = some n → J k p q →
       ∃ q', step' q k n = .ok q' ∧ J (k + 1) p q') :
    Alike (J h.nonterminals.size) (g.eachNonterminal p step) (h.eachNonterminal q step') := by
  obtain ⟨added, grown, _⟩ := residual.nonterminals
  have size : h.nonterminals.size = g.nonterminals.toList.length + added.length := by
    simpa using congrArg List.length grown
  have common := eachNonterminal_alike I start each
  unfold eachNonterminal at common ⊢
  rw [grown, List.zipIdx_append, List.foldlM_append, Nat.zero_add, size]
  refine common.more fun p' q' holds => foldlM_succeeds (fun k q => J k p' q) ?_ ?_
  · rw [Array.length_toList]
    exact turn p' q' holds
  · intro i n q found here
    refine rest _ n p' q ?_ ?_ here
    · rw [Array.length_toList]
      exact Nat.le_add_right ..
    · rw [← Array.getElem?_toList, grown, List.getElem?_append_right (Nat.le_add_right ..),
        Nat.add_sub_cancel_left, found]

/-- After the first round, as many symbols are in use as there are nonterminals that need no rules. -/
theorem last_of_given (run : g.eachNonterminal (initial g) (assignGiven g) = .ok p) :
    p.normal.numbering.last = g.givenCount := by
  have counted := eachNonterminal_induction
    (fun k p => p.normal.numbering.last = (g.nonterminals.toList.take k).countP (·.isGiven)) run rfl
    fun k n p q found count step => by
      have isNext : g.nonterminals.toList.take (k + 1) = g.nonterminals.toList.take k ++ [n] := by
        rw [List.take_add_one, Array.getElem?_toList, found]
        rfl
      have assigned := p.normal.addUnshareable_last n.name
      rw [isNext, List.countP_append, ← count, List.countP_singleton, Nonterminal.isGiven]
      rcases assignGiven_cases step with ⟨kind, isStructural, _, rfl⟩ |
        ⟨label, isStructural, isLabel, _, rfl⟩ | ⟨isStructural, isLabel, rfl⟩
      · rw [isStructural]
        exact assigned
      · rw [isStructural, isLabel]
        exact assigned
      · rw [isStructural, isLabel]
        rfl
  rwa [← Array.length_toList, List.take_length] at counted

/-- Without rules to tell them apart, both grammars give the same symbols. -/
theorem assignGiven_alike {k : Nat} (n : Nonterminal) (residual : g.Residual h)
    (normal : q.normal = p.normal) (symbols : ∀ i, q.symbol? i = p.symbol? i)
    (inRange : k < p.symbols.size) (inRange' : k < q.symbols.size) :
    Alike (fun p' q' => q'.normal = p'.normal ∧ ∀ i, q'.symbol? i = p'.symbol? i)
      (p.assignGiven g k n) (q.assignGiven h k n) := by
  have given : (q.assign k n.name).2 = (p.assign k n.name).2 := by
    rw [assign, assign, normal]
  have assigned (i : Nat) : (q.assign k n.name).1.symbol? i = (p.assign k n.name).1.symbol? i := by
    rw [symbol?_assign n.name inRange, symbol?_assign n.name inRange', given, symbols]
  unfold assignGiven
  rw [residual.lists]
  cases Structural.ofName? n.name with
  | some kind =>
    cases (g.rulesOf k).isEmpty with
    | false => rfl
    | true => exact ⟨by simp only [normal], assigned⟩
  | none =>
    cases n.label with
    | some label =>
      cases (g.rulesOf k).isEmpty with
      | false => rfl
      | true => exact ⟨by simp only [normal], assigned⟩
    | none => exact ⟨normal, symbols⟩

/-- After the first round over the nonterminals of `g`, and over those of `h` up to `k`. -/
structure Leaves (g h : Grammar) (p : Progress) (k : Nat) (q : Progress) : Prop where
  given : p.Given g g.nonterminals.size
  given' : q.Given h k
  labels : q.normal.labels = p.normal.labels
  structural : ∀ kind, p.normal.structural.get kind ≠ 0 →
    q.normal.structural.get kind = p.normal.structural.get kind
  symbols : ∀ i, i < g.nonterminals.size → q.symbol? i = p.symbol? i
  unshareable : ∀ s, s ≤ p.normal.numbering.last → q.normal.isUnshareable s = p.normal.isUnshareable s
  last : p.normal.numbering.last ≤ q.normal.numbering.last

/-- What only `h` has needs no rules, and gets a symbol if it is structural. -/
theorem Leaves.step {k : Nat} {n : Nonterminal} (residual : g.Residual h)
    (outside : g.nonterminals.size ≤ k) (found : h.nonterminals[k]? = some n)
    (leaves : Leaves g h p k q) : ∃ q', q.assignGiven h k n = .ok q' ∧ Leaves g h p (k + 1) q' := by
  have unlabelled := residual.unlabelled outside found
  have empty := residual.isEmpty_rulesOf outside
  obtain ⟨lt, _⟩ := Array.getElem?_eq_some_iff.mp found
  cases isStructural : Structural.ofName? n.name with
  | none =>
    have stepped : q.assignGiven h k n = .ok q := by
      unfold assignGiven
      rw [isStructural, unlabelled]
      rfl
    exact ⟨q, stepped,
      { leaves with given' := leaves.given'.step residual.formed' found stepped }⟩
  | some kind =>
    obtain ⟨known, named⟩ := Structural.ofName?_eq_some isStructural
    have stepped : q.assignGiven h k n =
        .ok { (q.assign k n.name).1 with
          normal := (q.assign k n.name).1.normal.assignStructural kind (q.assign k n.name).2 } := by
      unfold assignGiven
      rw [isStructural, empty]
      rfl
    have last := q.normal.addUnshareable_last n.name
    refine ⟨_, stepped, leaves.given, leaves.given'.step residual.formed' found stepped,
      leaves.labels, fun other isSet => ?_, fun i inRange => ?_, fun s old => ?_, ?_⟩
    · refine (Structural.Symbols.get_assign _ known _ other).trans ?_
      rw [if_neg]
      · exact leaves.structural other isSet
      · rintro rfl
        rw [leaves.given.structural other known] at isSet
        cases isSymbol : p.normal.symbol? other.name with
        | none => exact isSet (by rw [isSymbol]; rfl)
        | some s =>
          obtain ⟨m, member, isName⟩ := leaves.given.known _ s isSymbol
          exact residual.name_ne outside found member (isName.trans named)
    · refine Eq.trans ?_ (leaves.symbols i inRange)
      have other : i ≠ k := Nat.ne_of_lt (Nat.lt_of_lt_of_le inRange outside)
      exact (symbol?_assign n.name (leaves.given'.size ▸ lt) i).trans (if_neg other)
    · refine Eq.trans (Bool.eq_iff_iff.mpr ?_) (leaves.unshareable s old)
      refine (q.normal.addUnshareable_isUnshareable n.name s).trans (or_iff_right ?_)
      exact Nat.ne_of_lt (Nat.lt_succ_of_le (Nat.le_trans old leaves.last))
    · exact Nat.le_trans (Nat.le_succ_of_le leaves.last) (Nat.le_of_eq last.symm)

/-- The first round ends alike. -/
theorem given_alike (residual : g.Residual h) :
    Alike (fun p q => Leaves g h p h.nonterminals.size q)
      (g.eachNonterminal (Progress.initial g) (Progress.assignGiven g))
      (h.eachNonterminal (Progress.initial h) (Progress.assignGiven h)) := by
  have normal : (Progress.initial h).normal = (Progress.initial g).normal := by
    simp only [Progress.initial, residual.shards, residual.filters]
  refine eachNonterminal_residual residual
    (fun k p q => p.Given g k ∧ q.Given h k ∧ q.normal = p.normal ∧ ∀ i, q.symbol? i = p.symbol? i)
    (fun k p q => Leaves g h p k q)
    ⟨.initial g, .initial h, normal, fun i => by rw [symbol?_initial, symbol?_initial]⟩
    ?_ ?_ fun k n p q outside found leaves => leaves.step residual outside found
  · rintro k n p q found ⟨given, given', normal, symbols⟩
    have found' := residual.getElem? found
    have inRange := given.size ▸ (Array.getElem?_eq_some_iff.mp found).1
    have inRange' := given'.size ▸ (Array.getElem?_eq_some_iff.mp found').1
    exact (assignGiven_alike n residual normal symbols inRange inRange').weaken
      fun p' q' stepped stepped' same => ⟨given.step residual.formed found stepped,
        given'.step residual.formed' found' stepped', same⟩
  · rintro p q ⟨given, given', normal, symbols⟩
    refine ⟨given, given', by rw [normal], fun kind _ => by rw [normal], fun i _ => symbols i,
      fun s _ => by rw [normal], by rw [normal]⟩

/-- `q` is `p` with other symbols, as far as the nonterminals of `g` are concerned. -/
structure Renames (g : Grammar) (r : Renaming) (p q : Progress) : Prop where
  normal : p.normal.Tracks r q.normal
  symbols : ∀ i, i < g.nonterminals.size → q.symbol? i = (p.symbol? i).map r.symbol

theorem Leaves.renames (leaves : Leaves g h p h.nonterminals.size q) (residual : g.Residual h)
    {r : Renaming} (shifts : r.symbol =
      shift p.normal.numbering.last (q.normal.numbering.last - p.normal.numbering.last)) :
    Renames g r p q := by
  have last := leaves.last
  have beyond {m top s : Nat} (le : m ≤ top) (new : m < s) : top < s + (top - m) := by omega
  have next {m top : Nat} (le : m ≤ top) (k : Nat) : m + 1 + k + (top - m) = top + 1 + k := by omega
  have same {s : Symbol} (old : s ≤ p.normal.numbering.last) : r.symbol s = s := by
    rw [shifts, shift, if_pos old]
  have later {s : Symbol} (new : p.normal.numbering.last < s) :
      r.symbol s = s + (q.normal.numbering.last - p.normal.numbering.last) := by
    rw [shifts, shift, if_neg (Nat.not_le_of_lt new)]
  have shards : q.normal.shards = p.normal.shards := by
    rw [leaves.given.shards, leaves.given'.shards, residual.shards, residual.filters]
  refine
    { normal :=
        { filters := ?filters
          size := by rw [shards]
          shards := fun i s t isOld isNew => ?shards
          unshareable := fun s => ?unshareable
          labels := fun tag => ?labels
          structural := fun kind isSet => ?structural
          next := fun k => ?next }
      symbols := fun i inRange => ?symbols }
  case filters =>
    rw [leaves.given'.filters, leaves.given.filters, residual.filters]
  case shards =>
    rw [shards, isOld] at isNew
    obtain rfl := Option.some.inj isNew
    rw [leaves.given.shards] at isOld
    simp only [NormalForm.ofShards, List.getElem?_toArray, List.getElem?_map,
      Option.map_eq_some_iff] at isOld
    obtain ⟨_, _, rfl⟩ := isOld
    exact ⟨rfl, .empty r⟩
  case unshareable =>
    by_cases old : s ≤ p.normal.numbering.last
    · rw [same old, leaves.unshareable s old]
    · rw [Bool.eq_iff_iff]
      refine iff_of_false (fun own => ?_) fun own => old (leaves.given.own s own)
      have bound := leaves.given'.own _ own
      rw [later (Nat.lt_of_not_le old)] at bound
      exact absurd bound (Nat.not_le_of_lt (beyond last (Nat.lt_of_not_le old)))
  case labels =>
    rw [leaves.labels]
    cases isLabel : p.normal.labels[tag]? with
    | none => rfl
    | some s => exact congrArg some (same (leaves.given.labels_le tag s isLabel)).symm
  case structural =>
    rw [leaves.structural kind isSet, same (leaves.given.slots_le kind)]
  case next =>
    rw [later (Nat.lt_of_lt_of_le (Nat.lt_succ_self _) (Nat.le_add_right _ k))]
    exact next last k
  case symbols =>
    rw [leaves.symbols i inRange]
    cases isSymbol : p.symbol? i with
    | none => rfl
    | some s => exact congrArg some (same (leaves.given.bounds i s isSymbol).2).symm

namespace Renames

variable {r : Renaming}

theorem isSome_symbol? (renames : Renames g r p q) {i : Nat} (inRange : i < g.nonterminals.size) :
    (q.symbol? i).isSome = (p.symbol? i).isSome := by
  rw [renames.symbols i inRange, Option.isSome_map]

theorem assign {k : Nat} (renames : Renames g r p q) (name : String) (inRange : k < p.symbols.size)
    (inRange' : k < q.symbols.size) : Renames g r (p.assign k name).1 (q.assign k name).1 := by
  obtain ⟨tracks, given⟩ := renames.normal.addUnshareable name
  refine ⟨tracks, fun i isOld => ?_⟩
  rw [symbol?_assign name inRange, symbol?_assign name inRange', renames.symbols i isOld]
  split
  · exact congrArg some given
  · rfl

theorem assignOwn {k : Nat} (renames : Renames g r p q) (residual : g.Residual h) (n : Nonterminal)
    (isOld : k < g.nonterminals.size) (inRange : k < p.symbols.size)
    (inRange' : k < q.symbols.size) :
    Alike (Renames g r) (p.assignOwn g k n) (q.assignOwn h k n) := by
  unfold Progress.assignOwn
  rw [renames.isSome_symbol? isOld, residual.lists, residual.rules, residual.filters]
  generalize (g.rulesOf k).filterMap (g.rules[·]?) = rules
  by_cases isSome : (p.symbol? k).isSome = true
  · simp only [isSome, ↓reduceIte]
    exact renames
  by_cases empty : rules.isEmpty = true
  · by_cases used : g.rules.any (·.references.contains k) = true
    · simp only [isSome, empty, used, Bool.false_eq_true, ↓reduceIte]
      rfl
    · simp only [isSome, empty, used, Bool.false_eq_true, ↓reduceIte]
      exact renames
  · by_cases many : (rules.length > 1 || rules.any (g.filters.contains ·.options.callback.id)) = true
    · simp only [isSome, empty, many, Bool.false_eq_true, ↓reduceIte]
      exact renames.assign n.name inRange inRange'
    · simp only [isSome, empty, many, Bool.false_eq_true, ↓reduceIte]
      exact renames

end Renames

/-- What only `h` has needs no symbol beyond those of the first round. -/
theorem assignOwn_outside {k : Nat} (residual : g.Residual h) (n : Nonterminal)
    (outside : g.nonterminals.size ≤ k) : q.assignOwn h k n = .ok q := by
  have empty := residual.isEmpty_rulesOf outside
  unfold assignOwn
  rw [List.isEmpty_iff.mp empty, residual.unused outside]
  split
  · rfl
  · rfl

/-- The second round ends alike. -/
theorem owned_alike (residual : g.Residual h) (leaves : Leaves g h p h.nonterminals.size q)
    {r : Renaming} (shifts : r.symbol =
      shift p.normal.numbering.last (q.normal.numbering.last - p.normal.numbering.last)) :
    Alike (fun p q => p.Owned g g.nonterminals.size ∧ q.Owned h h.nonterminals.size ∧
        Renames g r p q)
      (g.eachNonterminal p (Progress.assignOwn g)) (h.eachNonterminal q (Progress.assignOwn h)) := by
  refine eachNonterminal_residual residual
    (fun k p q => p.Owned g k ∧ q.Owned h k ∧ Renames g r p q)
    (fun k p q => p.Owned g g.nonterminals.size ∧ q.Owned h k ∧ Renames g r p q)
    ⟨leaves.given.owned, leaves.given'.owned, leaves.renames residual shifts⟩
    ?_ (fun p q holds => holds) ?_
  · rintro k n p q found ⟨owned, owned', renames⟩
    have found' := residual.getElem? found
    have isOld := (Array.getElem?_eq_some_iff.mp found).1
    have isNew := (Array.getElem?_eq_some_iff.mp found').1
    exact (renames.assignOwn residual n isOld (owned.size ▸ isOld) (owned'.size ▸ isNew)).weaken
      fun p' q' stepped stepped' renames' => ⟨owned.step residual.formed found stepped,
        owned'.step residual.formed' found' stepped', renames'⟩
  · rintro k n p q outside found ⟨owned, owned', renames⟩
    have stepped := assignOwn_outside (q := q) residual n outside
    exact ⟨q, stepped, owned, owned'.step residual.formed' found stepped, renames⟩

/-- The renaming changes the callbacks that name a symbol up to `top` along with the symbol, and no
callback that a rule asks for itself. -/
structure Honours (g : Grammar) (r : Renaming) (top : Symbol) : Prop where
  plain : ∀ rule ∈ g.rules, rule.excluded = none →
    r.callback rule.options.callback = rule.options.callback
  excluded : ∀ s, r.symbol s ≤ top → r.callback ⟨Builtin.exclusion.id, UInt64.ofNat s⟩ =
    ⟨Builtin.exclusion.id, UInt64.ofNat (r.symbol s)⟩

theorem Honours.mono {r : Renaming} {top low : Symbol} (honours : Honours g r top) (le : low ≤ top) :
    Honours g r low :=
  ⟨honours.plain, fun s bound => honours.excluded s (Nat.le_trans bound le)⟩

namespace Renames

variable {r : Renaming} {rule : Rule}

theorem reference (renames : Renames g r p q) (fits : g.RuleFits rule) (ready : p.isReady rule = true)
    {i : Nat} (isReference : i ∈ rule.references) :
    ∃ s, p.symbol? i = some s ∧ q.symbol? i = some (r.symbol s) := by
  obtain ⟨s, isSymbol⟩ := Option.isSome_iff_exists.mp (isReady_iff.mp ready i isReference)
  exact ⟨s, isSymbol, by rw [renames.symbols i (fits.references i isReference), isSymbol]; rfl⟩

theorem part (renames : Renames g r p q) (fits : g.RuleFits rule) (ready : p.isReady rule = true)
    {e : Element} (member : e ∈ rule.rhs) : q.part rule e = (p.part rule e).rename r := by
  cases e with
  | literal text => rfl
  | reference i =>
    have isReference : i ∈ rule.references :=
      List.mem_append_left _ (List.mem_filterMap.mpr ⟨_, member, rfl⟩)
    obtain ⟨s, isSymbol, isSymbol'⟩ := renames.reference fits ready isReference
    simp only [Progress.part, isSymbol, isSymbol', Option.getD_some]
    rfl

theorem request (renames : Renames g r p q) (fits : g.RuleFits rule) (ready : p.isReady rule = true)
    (member : rule ∈ g.rules) (honours : Honours g r q.normal.numbering.last)
    (bounds : ∀ i s, q.symbol? i = some s → s ≤ q.normal.numbering.last) :
    q.request rule = (p.request rule).rename r := by
  have callback : (q.request rule).callback = r.callback (p.request rule).callback := by
    cases excluded : rule.excluded with
    | none =>
      rw [request_callback excluded, request_callback excluded, honours.plain rule member excluded]
    | some i =>
      have isReference : i ∈ rule.references := List.mem_append_right _ (by simp [excluded])
      obtain ⟨s, isSymbol, isSymbol'⟩ := renames.reference fits ready isReference
      have id := fits.excluded (by simp [excluded])
      simp only [Progress.request, excluded, isSymbol, isSymbol', Option.getD_some, id]
      exact (honours.excluded s (bounds i _ isSymbol')).symm
  simp only [Head.Request.rename, ← callback]
  simp only [Progress.request, renames.symbols rule.lhs fits.lhs]

/-- Lowering the same rule in both of them. -/
theorem lower (renames : Renames g r p q) (residual : g.Residual h) (ready : p.isReady rule = true)
    (member : rule ∈ g.rules) (honours : Honours g r q.normal.numbering.last)
    (bounds : ∀ i s, q.symbol? i = some s → s ≤ q.normal.numbering.last)
    (size : p.symbols.size = g.nonterminals.size) (size' : q.symbols.size = h.nonterminals.size) :
    Renames g r (p.lower g rule) (q.lower h rule) := by
  have fits := residual.formed.rules rule member
  have parts : rule.rhs.map (q.part rule) =
      (rule.rhs.map (p.part rule)).map (NormalForm.Part.rename r) := by
    rw [List.map_map]
    exact List.map_congr_left fun e inRhs => renames.part fits ready inRhs
  obtain ⟨tracks, yielded⟩ := renames.normal.addRule (p.request rule) (rule.rhs.map (p.part rule))
    rule.options.shard
  rw [← parts, ← renames.request fits ready member honours bounds] at tracks yielded
  have inRange : rule.lhs < p.symbols.size := size ▸ fits.lhs
  have inRange' : rule.lhs < q.symbols.size := size' ▸ Nat.lt_of_lt_of_le fits.lhs residual.size_le
  have given : (q.symbol? rule.lhs <|> (p.normal.addRule (p.request rule)
      (rule.rhs.map (p.part rule)) rule.options.shard).2.map r.symbol) =
      (p.symbol? rule.lhs <|> (p.normal.addRule (p.request rule) (rule.rhs.map (p.part rule))
        rule.options.shard).2).map r.symbol := by
    rw [renames.symbols rule.lhs fits.lhs]
    cases p.symbol? rule.lhs <;> rfl
  rw [lower_eq, lower_eq]
  simp only [yielded, given]
  cases p.symbol? rule.lhs <|> (p.normal.addRule (p.request rule) (rule.rhs.map (p.part rule))
    rule.options.shard).2 with
  | none => exact ⟨tracks, renames.symbols⟩
  | some s =>
    refine ⟨tracks.bind _ _ s (r.symbol s), fun i isOld => ?_⟩
    have before := renames.symbols i isOld
    simp only [symbol?, Option.map_some, Array.getD_eq_getD_getElem?,
      Array.getElem?_setIfInBounds] at before ⊢
    by_cases here : rule.lhs = i
    · simp [here, here ▸ inRange, here ▸ inRange']
    · simp only [here, ↓reduceIte]
      exact before

end Renames

/-- What taking the same ready rule off the list keeps for both of them holds after both sweeps. -/
theorem sweep_lockstep {P : Progress → Progress → List Rule → Prop}
    (ready : ∀ p q pending rule, P p q pending → rule ∈ pending → q.isReady rule = p.isReady rule)
    (step : ∀ p q before rule rest, P p q (before ++ rule :: rest) → p.isReady rule = true →
      P (p.lower g rule) (q.lower h rule) (before ++ rest))
    {rules : List Rule} (before : List Rule) (start : P p q (before ++ rules)) :
    (q.sweep h rules).2 = (p.sweep g rules).2 ∧
      P (p.sweep g rules).1 (q.sweep h rules).1 (before ++ (p.sweep g rules).2) := by
  induction rules generalizing p q before with
  | nil => exact ⟨rfl, start⟩
  | cons rule rest ih =>
    have same := ready p q _ rule start (by simp)
    rw [sweep, sweep, same]
    split
    · next isReady => exact ih before (step p q before rule rest start isReady)
    · obtain ⟨stuck, later⟩ := ih (before ++ [rule]) (by simpa using start)
      exact ⟨congrArg (rule :: ·) stuck, by simpa using later⟩

theorem settle_lockstep {P : Progress → Progress → List Rule → Prop}
    (ready : ∀ p q pending rule, P p q pending → rule ∈ pending → q.isReady rule = p.isReady rule)
    (step : ∀ p q before rule rest, P p q (before ++ rule :: rest) → p.isReady rule = true →
      P (p.lower g rule) (q.lower h rule) (before ++ rest))
    {p q : Progress} {rules : List Rule} (start : P p q rules) :
    (q.settle h rules).2 = (p.settle g rules).2 ∧
      P (p.settle g rules).1 (q.settle h rules).1 (p.settle g rules).2 := by
  obtain ⟨stuck, swept⟩ := sweep_lockstep ready step [] start
  rw [List.nil_append] at swept
  rw [settle, settle]
  generalize p.sweep g rules = result at stuck swept
  generalize q.sweep h rules = result' at stuck swept
  obtain ⟨p', pending⟩ := result
  obtain ⟨q', pending'⟩ := result'
  obtain rfl : pending' = pending := stuck
  by_cases shorter : pending'.length < rules.length
  · simp only [shorter, ↓reduceIte]
    exact settle_lockstep ready step swept
  · simp only [shorter, ↓reduceIte]
    exact ⟨trivial, swept⟩
termination_by rules.length

/-- The state of two sweeps, over the rules of `g` and over the same rules in `h`. -/
structure Follows (g h : Grammar) (m k low : Nat) (p q : Progress) (pending : List Rule) : Prop where
  size : p.symbols.size = g.nonterminals.size
  holds : q.Holds h Leaf.reading pending
  knows : ∀ i, i < g.nonterminals.size → (q.Knows i ↔ p.Knows i)
  low : low ≤ q.normal.numbering.last
  renames : ∀ r : Renaming, r.symbol = shift m k → Honours g r q.normal.numbering.last →
    Renames g r p q

theorem Follows.isReady {m k low : Nat} {pending : List Rule} (residual : g.Residual h)
    (follows : Follows g h m k low p q pending) {rule : Rule} (isPending : rule ∈ pending) :
    q.isReady rule = p.isReady rule := by
  have member : rule ∈ g.rules :=
    residual.rules ▸ Array.mem_toList_iff.mp (follows.holds.sublist.subset isPending)
  have fits := residual.formed.rules rule member
  rw [Bool.eq_iff_iff, isReady_iff, isReady_iff]
  exact forall₂_congr fun i isReference => follows.knows i (fits.references i isReference)

theorem Follows.lower {m k low : Nat} {before rest : List Rule} {rule : Rule}
    (residual : g.Residual h) (follows : Follows g h m k low p q (before ++ rule :: rest))
    (ready : p.isReady rule = true) :
    Follows g h m k low (p.lower g rule) (q.lower h rule) (before ++ rest) := by
  have isPending : rule ∈ before ++ rule :: rest := by simp
  have holds := follows.holds
  have member : rule ∈ g.rules :=
    residual.rules ▸ Array.mem_toList_iff.mp (holds.sublist.subset isPending)
  have ready' : q.isReady rule = true := (follows.isReady residual isPending).trans ready
  have fits := residual.formed.rules rule member
  have fits' := residual.formed'.rules rule (residual.rules ▸ member)
  obtain ⟨after, symbol, lowers⟩ :=
    lowers (R := Leaf.reading) holds.toTidy fits' ready' (holds.own rule isPending)
  have grows : q.normal.numbering.last ≤ (q.lower h rule).normal.numbering.last := by
    rw [lowers.result]
    exact Nat.le_trans lowers.realizes.keeps.last (Nat.le_of_eq (after.bind_numbering _ symbol).1.symm)
  refine ⟨(size_lower g p rule).trans follows.size, holds.lower residual.formed'.toWellFormed ready',
    fun i isOld => ?_, Nat.le_trans follows.low grows, fun r shifts honours => ?_⟩
  · rw [knows_lower (holds.size ▸ fits'.lhs) fits.nonempty,
      knows_lower (follows.size ▸ fits.lhs) fits.nonempty, follows.knows i isOld]
  · have honours' := honours.mono grows
    exact (follows.renames r shifts honours').lower residual ready member honours' holds.symbols_le
      follows.size holds.size

end

end Progress

/-- Where symbols go when `h` has more nonterminals than `g` that need no rules: those that `g` gives to
such nonterminals stay, and the others make room. -/
def displacement (g h : Grammar) : Symbol → Symbol :=
  shift g.givenCount (h.givenCount - g.givenCount)

/-- `n'` is `n` with some symbols moved to make room for those that only `h` has a use for. -/
structure Displaced (g h : Grammar) (n n' : NormalForm) : Prop where
  room : h.givenCount - g.givenCount = 0 ∨
    g.givenCount + (h.givenCount - g.givenCount) ≤ n'.symbolCount
  renamed : ∀ r : Renaming, r.symbol = displacement g h → Progress.Honours g r n'.symbolCount →
    n.Tracks r n' ∧ ∀ nonterminal ∈ g.nonterminals,
      n'.symbol? nonterminal.name = (n.symbol? nonterminal.name).map r.symbol

/-- Both grammars come to the same error, or to normal forms that differ in the choice of symbols. -/
theorem Residual.normalize_alike {g h : Grammar} (residual : g.Residual h) :
    Alike (Displaced g h) g.normalize h.normalize := by
  refine (Progress.given_alike residual).bind_results fun p₁ q₁ first first' leaves => ?_
  let m := p₁.normal.numbering.last
  let k := q₁.normal.numbering.last - m
  let moves : Renaming := .ofSymbol (shift_strictMono m k).injective
  have second := Progress.owned_alike residual leaves (r := moves) rfl
  refine second.bind_results fun p₂ q₂ run run' both => ?_
  obtain ⟨owned, owned', moved⟩ := both
  have renames (r : Renaming) (shifts : r.symbol = shift m k) :
      Progress.Renames g r p₂ q₂ := by
    have again := Progress.owned_alike residual leaves (r := r) shifts
    rw [run, run'] at again
    exact again.2.2
  have start : Progress.Follows g h m k q₂.normal.numbering.last p₂ q₂ g.rules.toList :=
    ⟨owned.size, residual.rules ▸ owned'.holds residual.formed'.toWellFormed,
      fun i isOld => by rw [Progress.Knows, Progress.Knows, moved.isSome_symbol? isOld],
      Nat.le_refl _, fun r shifts _ => renames r shifts⟩
  obtain ⟨stuck, follows⟩ := Progress.settle_lockstep
    (P := fun p q pending => Progress.Follows g h m k q₂.normal.numbering.last p q pending)
    (fun _ _ _ _ follows => follows.isReady residual)
    (fun _ _ _ _ _ follows => follows.lower residual) start
  have settled := (owned.holds (R := Leaf.reading) residual.formed.toWellFormed).settle
    residual.formed.toWellFormed
  rw [residual.rules]
  generalize p₂.settle g g.rules.toList = result at stuck follows settled
  generalize q₂.settle h g.rules.toList = result' at stuck follows
  obtain ⟨p, pending⟩ := result
  obtain ⟨q, pending'⟩ := result'
  obtain rfl : pending' = pending := stuck
  cases pending' with
  | cons rule rest =>
    have names : (rule :: rest).filterMap h.lhsName? = (rule :: rest).filterMap g.lhsName? :=
      List.filterMap_congr fun rule isStuck =>
        residual.lhsName? (Array.mem_toList_iff.mp (settled.sublist.subset isStuck))
    exact congrArg (fun names => Error.unlowerable (rule :: rest).length (sortedNames names))
      names.symm
  | nil =>
    have isCount : m = g.givenCount := Progress.last_of_given first
    have isExtra : k = h.givenCount - g.givenCount := by
      rw [← isCount, ← Progress.last_of_given first']
    refine ⟨?_, fun r shifts honours => ?_⟩
    · rw [← isExtra, ← isCount]
      exact (room_of_shift moved.normal.next).imp_right fun room => Nat.le_trans room follows.low
    · rw [displacement, ← isExtra, ← isCount] at shifts
      have final := follows.renames r shifts honours
      refine ⟨final.normal, fun nonterminal member => ?_⟩
      obtain ⟨i, found⟩ := Array.mem_iff_getElem?.mp member
      rw [follows.holds.named i nonterminal (residual.getElem? found),
        settled.named i nonterminal found, final.symbols i (Array.getElem?_eq_some_iff.mp found).1]

/-- A rule that asks for the callback of exclusions by itself, with the number of a symbol that moves,
before or after the move. -/
def Clashes (count : Nat) (move : Symbol → Symbol) (rule : Rule) : Prop :=
  rule.excluded = none ∧ rule.options.callback.id = Builtin.exclusion.id ∧
    ∃ s, move s ≤ count ∧ move s ≠ s ∧
      (rule.options.callback.param.toNat = s ∨ rule.options.callback.param.toNat = move s)

theorem honours_displacing {g : Grammar} {m k top : Nat} (room : k = 0 ∨ m + k ≤ top)
    (fits : top < 2 ^ 64) (apart : ∀ rule ∈ g.rules, ¬ Clashes top (shift m k) rule) :
    Progress.Honours g (.displacing m k top room fits) top := by
  refine ⟨fun rule member plain => ?_, fun s bound => ?_⟩
  · change rule.options.callback.rotate m k top = rule.options.callback
    by_cases isExclusion : rule.options.callback.id = Builtin.exclusion.id
    · have still : rotate m k top rule.options.callback.param.toNat =
          rule.options.callback.param.toNat := by
        refine rotate_eq_self fun s bound same => ?_
        by_contra moves
        exact apart rule member ⟨plain, isExclusion, s, bound, moves, same⟩
      rw [Callback.rotate, if_pos isExclusion, still, UInt64.ofNat_toNat]
    · exact Callback.rotate_of_ne isExclusion
  · have le := Nat.le_trans (le_shift m k s) bound
    have small : (UInt64.ofNat s).toNat = s := UInt64.toNat_ofNat_of_lt' (Nat.lt_of_le_of_lt le fits)
    refine (Callback.rotate_exclusion _).trans ?_
    rw [small, rotate_eq_shift bound]
    rfl

/-- A declaration that fails changes neither the rules nor the nonterminals that are there. It may
leave new nonterminals, but these do not matter: bringing the grammar to normal form fails as it
would have failed before, or leads to what it would have led to before, with symbols moved to make
room. Callbacks move along, except those that rules ask for by themselves, which must not clash with
that. -/
theorem normalize_failed {g h : Grammar} {d : Declaration} {e : Error} (built : g.Built)
    (failed : d.declare.run g = .error e h) :
    (g.Registers h ∧ ∀ i, h.rulesOf i = g.rulesOf i) ∧
    (∀ e, g.normalize = .error e ↔ h.normalize = .error e) ∧
    ∀ n', h.normalize = .ok n' → n'.symbolCount < 2 ^ 64 →
      ∃ n, g.normalize = .ok n ∧
        ((∀ rule ∈ g.rules, ¬ Clashes n'.symbolCount (displacement g h) rule) →
          ∃ r : Renaming, r.symbol = displacement g h ∧ n.Renamed r n' ∧
            (∀ c, c.id ≠ Builtin.exclusion.id → r.callback c = c) ∧
            (∀ s ≤ n.symbolCount, r.callback ⟨Builtin.exclusion.id, UInt64.ofNat s⟩ =
              ⟨Builtin.exclusion.id, UInt64.ofNat (r.symbol s)⟩) ∧
            (∀ rule ∈ g.rules, rule.excluded = none →
              r.callback rule.options.callback = rule.options.callback) ∧
            ∀ nonterminal ∈ g.nonterminals,
              n'.symbol? nonterminal.name = (n.symbol? nonterminal.name).map r.symbol) := by
  have ends := declare_ends built.named d
  have left : d.declare g = .error e h := failed
  rw [Ends, left] at ends
  have isAfter : g.after d = h := by rw [Grammar.after, failed]
  have residual : g.Residual h :=
    ⟨ends, built.consistent, isAfter ▸ (built.after d).consistent⟩
  have alike := residual.normalize_alike
  refine ⟨⟨ends, residual.lists⟩, alike.error_iff, fun n' normal fits => ?_⟩
  rw [normal] at alike
  cases before : g.normalize with
  | error e =>
    rw [before] at alike
    cases alike
  | ok n =>
    rw [before] at alike
    have displaced : Displaced g h n n' := alike
    refine ⟨n, rfl, fun apart => ?_⟩
    have honours := honours_displacing displaced.room fits apart
    obtain ⟨tracks, names⟩ := displaced.renamed _ rfl honours
    refine ⟨_, rfl, tracks.toRenamed, fun c => Callback.rotate_of_ne, fun s bound => ?_,
      honours.plain, names⟩
    have lt : displacement g h s < n'.numbering.last + 1 :=
      (shift_strictMono _ _ (Nat.lt_succ_of_le bound)).trans_eq (tracks.next 0)
    exact honours.excluded s (Nat.le_of_lt_succ lt)

theorem run_of_not_accepts {g : Grammar} {d : Declaration} (refused : g.accepts d = false) :
    ∃ e, d.declare.run g = .error e (g.after d) := by
  unfold accepts at refused
  unfold after
  cases result : d.declare.run g with
  | ok a h =>
    rw [result] at refused
    cases refused
  | error e h => exact ⟨e, rfl⟩

/-- A rule that fails on its second element, when the first is known already. -/
def stranded : Declaration := .rule "<3>" ["<$>", ""] {}

/-- A grammar with an excluded nonterminal of two rules. -/
def excluding : Grammar :=
  (((ofShards []).after (.rule "<1>" ["1"] {})).after (.rule "<1>" ["2"] {})).after
    (.exclusion "<2>" ["1"] "<1>" {})

theorem excluding_eq : excluding =
    { shards := [[]]
      nonterminals := #[⟨"<1>", none⟩, ⟨"<2>", none⟩]
      rules := #[⟨0, [.literal "1"], {}, none⟩, ⟨0, [.literal "2"], {}, none⟩,
        ⟨1, [.literal "1"], { callback := ⟨4, 0⟩ }, some 0⟩]
      lists := #[[0, 1], [2]] } := by
  unfold excluding after Declaration.declare add addExclusion addRule
  rw [distinct_eq_eraseDups]
  with_unfolding_all rfl

theorem normalize_failed_excluding : excluding.accepts stranded = false ∧
    ∃ n n' r, excluding.normalize = .ok n ∧ (excluding.after stranded).normalize = .ok n' ∧
      n.Renamed r n' ∧ r.symbol 1 = 2 := by
  have refused : excluding.accepts stranded = false := by
    rw [excluding_eq]
    decide +kernel
  have before : excluding.normalize.map (·.symbol? "<1>") = .ok (some 1) := by
    rw [excluding_eq]
    with_unfolding_all rfl
  have later : (excluding.after stranded).normalize.map (fun n => (n.symbolCount, n.symbol? "<1>")) =
      .ok (3, some 2) := by
    rw [excluding_eq]
    with_unfolding_all rfl
  have honest (count : Nat) (move : Symbol → Symbol) :
      ∀ rule ∈ excluding.rules, ¬ Clashes count move rule := by
    rw [excluding_eq]
    simp [Clashes, Builtin.id]
  have built : excluding.Built := (((Built.ofShards []).after _).after _).after _
  obtain ⟨e, failed⟩ := run_of_not_accepts refused
  cases normal : (excluding.after stranded).normalize with
  | error e =>
    rw [normal] at later
    cases later
  | ok n' =>
    rw [normal] at later
    obtain ⟨count, isSymbol'⟩ := Prod.mk.inj (Except.ok.inj later)
    obtain ⟨n, isNormal, renames⟩ :=
      (normalize_failed built failed).2.2 n' normal (by rw [count]; decide)
    obtain ⟨r, _, renamed, _, _, _, names⟩ := renames (honest _ _)
    rw [isNormal] at before
    have isSymbol : n.symbol? "<1>" = some 1 := Except.ok.inj before
    have moved := names ⟨"<1>", none⟩ (by rw [excluding_eq]; simp)
    simp only [isSymbol, isSymbol', Option.map_some, Option.some.injEq] at moved
    exact ⟨refused, n, n', r, isNormal, rfl, renamed, moved.symm⟩

/-- A grammar with two rules that differ in what they exclude, where one does so by the number of a
symbol. -/
def imitating : Grammar :=
  ((((ofShards []).after (.rule "<1>" ["1"] { callback := ⟨4, 2⟩ })).after
    (.rule "<2>" ["2"] {})).after (.rule "<2>" ["3"] {})).after (.exclusion "<1>" ["1"] "<2>" {})

theorem imitating_eq : imitating =
    { shards := [[]]
      nonterminals := #[⟨"<1>", none⟩, ⟨"<2>", none⟩]
      rules := #[⟨0, [.literal "1"], { callback := ⟨4, 2⟩ }, none⟩, ⟨1, [.literal "2"], {}, none⟩,
        ⟨1, [.literal "3"], {}, none⟩, ⟨0, [.literal "1"], { callback := ⟨4, 0⟩ }, some 1⟩]
      lists := #[[0, 3], [1, 2]] } := by
  unfold imitating after Declaration.declare add addExclusion addRule
  rw [distinct_eq_eraseDups]
  with_unfolding_all rfl

/-- The number that a rule gives by itself does not follow when symbols move, so rules that were
alike are no longer. -/
theorem imitating_not_renamed : imitating.accepts stranded = false ∧
    ∃ n n', imitating.normalize = .ok n ∧ (imitating.after stranded).normalize = .ok n' ∧
      n.headsIn 0 (.literal "1" false) = [⟨1, ⟨4, 2⟩, -1⟩] ∧
      n'.headsIn 0 (.literal "1" false) = [⟨2, ⟨4, 2⟩, -1⟩, ⟨2, ⟨4, 3⟩, -1⟩] ∧
      ∀ r, ¬ n.Renamed r n' := by
  have refused : imitating.accepts stranded = false := by
    rw [imitating_eq]
    decide +kernel
  have before : imitating.normalize.map (·.headsIn 0 (.literal "1" false)) =
      .ok [⟨1, ⟨4, 2⟩, -1⟩] := by
    rw [imitating_eq]
    with_unfolding_all rfl
  have later : (imitating.after stranded).normalize.map (·.headsIn 0 (.literal "1" false)) =
      .ok [⟨2, ⟨4, 2⟩, -1⟩, ⟨2, ⟨4, 3⟩, -1⟩] := by
    rw [imitating_eq]
    with_unfolding_all rfl
  cases normal : imitating.normalize with
  | error e =>
    rw [normal] at before
    cases before
  | ok n =>
    cases normal' : (imitating.after stranded).normalize with
    | error e =>
      rw [normal'] at later
      cases later
    | ok n' =>
      rw [normal] at before
      rw [normal'] at later
      have heads : n.headsIn 0 (.literal "1" false) = _ := Except.ok.inj before
      have heads' : n'.headsIn 0 (.literal "1" false) = _ := Except.ok.inj later
      refine ⟨refused, n, n', rfl, rfl, heads, heads', fun r renamed => ?_⟩
      have lengths := congrArg List.length (renamed.headsIn 0 (.literal "1" false))
      rw [List.length_map, heads] at lengths
      exact absurd ((congrArg List.length heads').symm.trans lengths) (by decide)

end Grammar

end Phrasebook
