import Phrasebook.Proofs.Grammar.Lowering
import Phrasebook.Proofs.RuleSet.Bytes

namespace Phrasebook

namespace Structural

theorem name_injOn : ∀ a ∈ all, ∀ b ∈ all, a.name = b.name → a = b := by
  decide +kernel

theorem ofName?_eq_some {name : String} {kind : Structural} (h : ofName? name = some kind) :
    kind ∈ all ∧ kind.name = name :=
  ⟨List.mem_of_find?_eq_some h, by simpa using List.find?_some h⟩

theorem lt_of_digitRun {n : Nat} (known : digitRun n ∈ all) : n < longestRun + 1 := by
  simp only [all, List.mem_append, List.mem_cons, reduceCtorEq, List.not_mem_nil, or_false,
    false_or, List.mem_map, List.mem_range, digitRun.injEq] at known
  omega

theorem Symbols.get_assign (s : Symbols) {kind : Structural} (known : kind ∈ all) (symbol : Symbol)
    (other : Structural) :
    (s.assign kind symbol).get other = if other = kind then symbol else s.get other := by
  cases kind with
  | digitRun n =>
    have inRange := lt_of_digitRun known
    cases other with
    | digitRun m =>
      simp only [assign, get, Symbols.digitRun, Vector.getD, Vector.toArray_setIfInBounds,
        Array.getD_eq_getD_getElem?, Array.getElem?_setIfInBounds, Structural.digitRun.injEq,
        Vector.size_toArray]
      by_cases same : m = n
      · simp [same, inRange]
      · simp [same, Ne.symm same]
    | _ => simp [assign, get]
  | _ => cases other <;> simp [assign, get, Symbols.digitRun]

end Structural

namespace NormalForm

section
variable (n : NormalForm) (name : String)

theorem addUnshareable_last :
    (n.addUnshareable name).1.numbering.last = n.numbering.last + 1 :=
  (bind_numbering { n with numbering := n.numbering.fresh.1 } name (n.numbering.last + 1)).1

theorem addUnshareable_isUnshareable (s : Symbol) :
    (n.addUnshareable name).1.isUnshareable s = true ↔
      s = n.numbering.last + 1 ∨ n.isUnshareable s = true := by
  have before := (bind_numbering { n with numbering := n.numbering.fresh.1 } name
    (n.numbering.last + 1)).2
  have unfolded : (n.addUnshareable name).1.numbering.unshareable =
      n.numbering.unshareable.insert (n.numbering.last + 1) :=
    congrArg (Std.TreeSet.insert · (n.numbering.last + 1)) before
  rw [isUnshareable, unfolded, Std.TreeSet.contains_insert, Bool.or_eq_true, beq_iff_eq,
    Std.LawfulEqCmp.compare_eq_iff_eq, eq_comm]
  rfl

variable {name}

theorem addUnshareable_nameOf? (nonempty : name ≠ "") (s : Symbol) :
    (n.addUnshareable name).1.nameOf? s =
      if s = n.numbering.last + 1 then some ((n.nameOf? (n.numbering.last + 1)).getD name)
      else n.nameOf? s :=
  bind_nameOf? (n := { n with numbering := n.numbering.fresh.1 }) nonempty _ s

theorem addUnshareable_symbol? (nonempty : name ≠ "") (other : String) :
    (n.addUnshareable name).1.symbol? other =
      if other = name then some ((n.symbol? name).getD (n.numbering.last + 1))
      else n.symbol? other :=
  bind_symbol? (n := { n with numbering := n.numbering.fresh.1 }) nonempty _ other

end

end NormalForm

namespace Grammar.Progress

/-- Before any rule is lowered there are no productions, and the nonterminals that have symbols have
them for themselves. -/
structure Starts (g : Grammar) (p : Progress) : Prop where
  shards : p.normal.shards = (NormalForm.ofShards g.shards g.filters).shards
  filters : p.normal.filters = g.filters
  size : p.symbols.size = g.nonterminals.size
  bounds : ∀ i s, p.symbol? i = some s → 0 < s ∧ s ≤ p.normal.numbering.last
  unshareable : ∀ i s, p.symbol? i = some s → p.normal.isUnshareable s = true
  own : ∀ s, p.normal.isUnshareable s = true → s ≤ p.normal.numbering.last
  injective : ∀ i j s, p.symbol? i = some s → p.symbol? j = some s → i = j
  named : ∀ i n, g.nonterminals[i]? = some n → p.normal.symbol? n.name = p.symbol? i
  known : ∀ name s, p.normal.symbol? name = some s → ∃ n ∈ g.nonterminals, n.name = name
  shown : ∀ i n s, g.nonterminals[i]? = some n → p.symbol? i = some s →
    p.normal.nameOf? s = some n.name
  borne : ∀ s name, p.normal.nameOf? s = some name →
    ∃ i n, g.nonterminals[i]? = some n ∧ n.name = name ∧ p.symbol? i = some s
  taken : ∀ s, 0 < s → s ≤ p.normal.numbering.last → ∃ i, p.symbol? i = some s

/-- The structural symbols and the labels are those of their nonterminals. -/
structure Tagged (g : Grammar) (p : Progress) : Prop where
  structural : ∀ kind ∈ Structural.all,
    p.normal.structural.get kind = (p.normal.symbol? kind.name).getD 0
  slots_le : ∀ kind, p.normal.structural.get kind ≤ p.normal.numbering.last
  labels : ∀ tag ∈ p.normal.labels, ∃ n ∈ g.nonterminals, n.label = some tag
  labels_le : ∀ (tag : String) s, p.normal.labels[tag]? = some s → s ≤ p.normal.numbering.last

section
variable {g : Grammar} {p : Progress}

/-- No nonterminal has a symbol yet. -/
def initial (g : Grammar) : Progress where
  normal := NormalForm.ofShards g.shards g.filters
  symbols := Array.replicate g.nonterminals.size none

theorem symbol?_initial (g : Grammar) (i : Nat) : (initial g).symbol? i = none := by
  simp only [initial, symbol?, Array.getD_eq_getD_getElem?, Array.getElem?_replicate]
  split
  · rfl
  · rfl

theorem Starts.initial (g : Grammar) : (Progress.initial g).Starts g := by
  have unassigned (i : Nat) (s : Symbol) : (Progress.initial g).symbol? i ≠ some s := by
    simp [symbol?_initial]
  refine
    { shards := rfl
      filters := rfl
      size := by simp [Progress.initial]
      bounds := fun i s found => absurd found (unassigned i s)
      unshareable := fun i s found => absurd found (unassigned i s)
      own := fun s own => ?own
      injective := fun i j s found => absurd found (unassigned i s)
      named := fun i n _ => ?named
      known := fun name s found => ?known
      shown := fun i n s _ found => absurd found (unassigned i s)
      borne := fun s name found => ?borne
      taken := fun s positive bound => absurd bound (Nat.not_le_of_lt positive) }
  case own =>
    simp [Progress.initial, NormalForm.ofShards, NormalForm.isUnshareable] at own
  case named =>
    rw [symbol?_initial]
    simp [Progress.initial, NormalForm.ofShards, NormalForm.symbol?]
  case known =>
    simp [Progress.initial, NormalForm.ofShards, NormalForm.symbol?] at found
  case borne =>
    simp [Progress.initial, NormalForm.ofShards, NormalForm.nameOf?] at found

theorem Tagged.initial (g : Grammar) : (Progress.initial g).Tagged g := by
  have unused (kind : Structural) : (Progress.initial g).normal.structural.get kind = 0 := by
    cases kind with
    | digitRun n =>
      simp only [Structural.Symbols.get, Structural.Symbols.digitRun, Progress.initial,
        NormalForm.ofShards, Vector.getD, Vector.replicate, Array.getD_eq_getD_getElem?,
        Array.getElem?_replicate]
      split
      · rfl
      · rfl
    | _ => rfl
  refine
    { structural := fun kind known => ?structural
      slots_le := fun kind => ?slots_le
      labels := by simp [Progress.initial, NormalForm.ofShards]
      labels_le := by simp [Progress.initial, NormalForm.ofShards] }
  case structural =>
    rw [unused]
    simp [Progress.initial, NormalForm.ofShards, NormalForm.symbol?]
  case slots_le =>
    rw [unused]
    exact Nat.zero_le _

theorem Starts.not_keyed (starts : p.Starts g) (b : Body) : ¬ p.normal.Keyed b := by
  rintro ⟨i, shard, found, isKey⟩
  rw [starts.shards] at found
  simp only [NormalForm.ofShards, List.getElem?_toArray, List.getElem?_map,
    Option.map_eq_some_iff] at found
  obtain ⟨_, _, rfl⟩ := found
  cases b with
  | literal text caseSensitive => cases caseSensitive <;> simp [Tables.HasKey] at isKey
  | unary => simp [Tables.HasKey] at isKey
  | binary => simp [Tables.HasKey] at isKey

theorem Starts.not_has (starts : p.Starts g) (b : Body) (h : Head) : ¬ p.normal.Has b h :=
  fun has => starts.not_keyed b has.keyed

theorem Starts.bounded (starts : p.Starts g) : p.normal.Bounded :=
  ⟨fun b h has => absurd has (starts.not_has b h),
    fun b isKeyed => absurd isKeyed (starts.not_keyed b), starts.own,
    fun _ _ isKeyed => absurd isKeyed (starts.not_keyed _)⟩

/-- Structural symbols and labels are kept apart from the rest. -/
theorem Starts.congr {q : Progress} (starts : p.Starts g)
    (shards : q.normal.shards = p.normal.shards) (filters : q.normal.filters = p.normal.filters)
    (numbering : q.normal.numbering = p.normal.numbering) (symbols : q.symbols = p.symbols) :
    q.Starts g := by
  have same (i : Nat) : q.symbol? i = p.symbol? i := by rw [symbol?, symbols]; rfl
  refine
    { shards := shards.trans starts.shards
      filters := filters.trans starts.filters
      size := symbols ▸ starts.size
      bounds := fun i s => ?bounds
      unshareable := fun i s => ?unshareable
      own := fun s => ?own
      injective := fun i j s => ?injective
      named := fun i n => ?named
      known := fun name s => ?known
      shown := fun i n s => ?shown
      borne := fun s name => ?borne
      taken := fun s => ?taken }
  case bounds =>
    rw [same, numbering]
    exact starts.bounds i s
  case unshareable =>
    rw [same, NormalForm.isUnshareable, numbering]
    exact starts.unshareable i s
  case own =>
    rw [NormalForm.isUnshareable, numbering]
    exact starts.own s
  case injective =>
    rw [same, same]
    exact starts.injective i j s
  case named =>
    rw [same, NormalForm.symbol?, numbering]
    exact starts.named i n
  case known =>
    rw [NormalForm.symbol?, numbering]
    exact starts.known name s
  case shown =>
    rw [same, NormalForm.nameOf?, numbering]
    exact starts.shown i n s
  case borne =>
    simp only [same, NormalForm.nameOf?, numbering]
    exact starts.borne s name
  case taken =>
    simp only [same, numbering]
    exact starts.taken s

theorem symbol?_assign {index : Nat} (name : String) (inRange : index < p.symbols.size) (i : Nat) :
    (p.assign index name).1.symbol? i =
      if i = index then some (p.assign index name).2 else p.symbol? i := by
  simp only [assign, symbol?, Array.getD_eq_getD_getElem?, Array.getElem?_setIfInBounds]
  by_cases same : i = index
  · simp [same, inRange]
  · simp [same, Ne.symm same]

section
variable {index : Nat} {n : Nonterminal}

theorem Starts.symbol?_assign (starts : p.Starts g) (found : g.nonterminals[index]? = some n)
    (i : Nat) : (p.assign index n.name).1.symbol? i =
      if i = index then some (p.normal.numbering.last + 1) else p.symbol? i :=
  Progress.symbol?_assign n.name (starts.size ▸ (Array.getElem?_eq_some_iff.mp found).1) i

theorem Starts.ne_next (starts : p.Starts g) {i : Nat} {s : Symbol}
    (isSome : p.symbol? i = some s) : s ≠ p.normal.numbering.last + 1 :=
  Nat.ne_of_lt (Nat.lt_succ_of_le (starts.bounds i s isSome).2)

theorem Starts.nameOf?_assign (formed : g.WellFormed) (starts : p.Starts g)
    (found : g.nonterminals[index]? = some n) (s : Symbol) :
    (p.assign index n.name).1.normal.nameOf? s =
      if s = p.normal.numbering.last + 1 then some n.name else p.normal.nameOf? s := by
  have nonempty : n.name ≠ "" := formed.named n (Array.mem_of_getElem? found)
  have unnamed : p.normal.nameOf? (p.normal.numbering.last + 1) = none := by
    cases isName : p.normal.nameOf? (p.normal.numbering.last + 1) with
    | none => rfl
    | some name =>
      obtain ⟨i, _, _, _, isSome⟩ := starts.borne _ name isName
      exact absurd rfl (starts.ne_next isSome)
  refine (p.normal.addUnshareable_nameOf? nonempty s).trans ?_
  rw [unnamed]
  rfl

theorem Starts.bounds_assign (starts : p.Starts g) (found : g.nonterminals[index]? = some n)
    {i : Nat} {s : Symbol} (isSome : (p.assign index n.name).1.symbol? i = some s) :
    0 < s ∧ s ≤ p.normal.numbering.last + 1 := by
  rw [starts.symbol?_assign found] at isSome
  split at isSome
  · obtain rfl := Option.some.inj isSome
    exact ⟨Nat.succ_pos _, Nat.le_refl _⟩
  · exact (starts.bounds i s isSome).imp_right Nat.le_succ_of_le

theorem Starts.unshareable_assign (starts : p.Starts g) (found : g.nonterminals[index]? = some n)
    {i : Nat} {s : Symbol} (isSome : (p.assign index n.name).1.symbol? i = some s) :
    (p.assign index n.name).1.normal.isUnshareable s = true := by
  rw [starts.symbol?_assign found] at isSome
  refine (p.normal.addUnshareable_isUnshareable n.name s).mpr ?_
  split at isSome
  · exact .inl (Option.some.inj isSome).symm
  · exact .inr (starts.unshareable i s isSome)

theorem Starts.own_assign (starts : p.Starts g) {s : Symbol}
    (own : (p.assign index n.name).1.normal.isUnshareable s = true) :
    s ≤ p.normal.numbering.last + 1 := by
  rcases (p.normal.addUnshareable_isUnshareable n.name s).mp own with rfl | own
  · exact Nat.le_refl _
  · exact Nat.le_succ_of_le (starts.own s own)

theorem Starts.injective_assign (starts : p.Starts g) (found : g.nonterminals[index]? = some n)
    {i j : Nat} {s : Symbol} (isSome : (p.assign index n.name).1.symbol? i = some s)
    (isSome' : (p.assign index n.name).1.symbol? j = some s) : i = j := by
  rw [starts.symbol?_assign found] at isSome isSome'
  split at isSome
  · next hereI =>
    split at isSome'
    · next hereJ => rw [hereI, hereJ]
    · exact absurd (Option.some.inj isSome).symm (starts.ne_next isSome')
  · split at isSome'
    · exact absurd (Option.some.inj isSome').symm (starts.ne_next isSome)
    · exact starts.injective i j s isSome isSome'

theorem Starts.named_assign (formed : g.WellFormed) (starts : p.Starts g)
    (found : g.nonterminals[index]? = some n) (unassigned : p.symbol? index = none) {i : Nat}
    {m : Nonterminal} (isFound : g.nonterminals[i]? = some m) :
    (p.assign index n.name).1.normal.symbol? m.name = (p.assign index n.name).1.symbol? i := by
  have nonempty : n.name ≠ "" := formed.named n (Array.mem_of_getElem? found)
  have before := starts.named i m isFound
  rw [starts.symbol?_assign found]
  refine ((p.normal.addUnshareable_symbol? nonempty m.name).trans ?_)
  by_cases same : i = index
  · subst same
    obtain rfl := Option.some.inj (found.symm.trans isFound)
    rw [if_pos rfl, if_pos rfl, before, unassigned]
    rfl
  · have differs : m.name ≠ n.name := fun eq => same (name_injective formed isFound found eq)
    rw [if_neg differs, if_neg same, before]

theorem Starts.known_assign (formed : g.WellFormed) (starts : p.Starts g)
    (found : g.nonterminals[index]? = some n) {name : String} {s : Symbol}
    (isSome : (p.assign index n.name).1.normal.symbol? name = some s) :
    ∃ m ∈ g.nonterminals, m.name = name := by
  have nonempty : n.name ≠ "" := formed.named n (Array.mem_of_getElem? found)
  have isSome := (p.normal.addUnshareable_symbol? nonempty name).symm.trans isSome
  split at isSome
  · next isName => exact ⟨n, Array.mem_of_getElem? found, isName.symm⟩
  · exact starts.known name s isSome

theorem Starts.shown_assign (formed : g.WellFormed) (starts : p.Starts g)
    (found : g.nonterminals[index]? = some n) {i : Nat} {m : Nonterminal} {s : Symbol}
    (isFound : g.nonterminals[i]? = some m)
    (isSome : (p.assign index n.name).1.symbol? i = some s) :
    (p.assign index n.name).1.normal.nameOf? s = some m.name := by
  rw [starts.symbol?_assign found] at isSome
  rw [starts.nameOf?_assign formed found]
  split at isSome
  · next here =>
    subst here
    obtain rfl := Option.some.inj (found.symm.trans isFound)
    exact if_pos (Option.some.inj isSome).symm
  · rw [if_neg (starts.ne_next isSome)]
    exact starts.shown i m s isFound isSome

theorem Starts.borne_assign (formed : g.WellFormed) (starts : p.Starts g)
    (found : g.nonterminals[index]? = some n) (unassigned : p.symbol? index = none) {s : Symbol}
    {name : String} (isName : (p.assign index n.name).1.normal.nameOf? s = some name) :
    ∃ i m, g.nonterminals[i]? = some m ∧ m.name = name ∧
      (p.assign index n.name).1.symbol? i = some s := by
  rw [starts.nameOf?_assign formed found] at isName
  split at isName
  · next new =>
    refine ⟨index, n, found, Option.some.inj isName, ?_⟩
    rw [starts.symbol?_assign found, if_pos rfl, new]
  · obtain ⟨i, m, isFound, same, isSome⟩ := starts.borne s name isName
    refine ⟨i, m, isFound, same, ?_⟩
    rw [starts.symbol?_assign found, if_neg ?_, isSome]
    rintro rfl
    rw [unassigned] at isSome
    cases isSome

theorem Starts.taken_assign (starts : p.Starts g) (found : g.nonterminals[index]? = some n)
    (unassigned : p.symbol? index = none) {s : Symbol} (positive : 0 < s)
    (bound : s ≤ p.normal.numbering.last + 1) :
    ∃ i, (p.assign index n.name).1.symbol? i = some s := by
  simp only [starts.symbol?_assign found]
  by_cases older : s ≤ p.normal.numbering.last
  · obtain ⟨i, isSome⟩ := starts.taken s positive older
    have other : i ≠ index := by
      rintro rfl
      rw [unassigned] at isSome
      cases isSome
    exact ⟨i, by rw [if_neg other, isSome]⟩
  · exact ⟨index, by rw [if_pos rfl, Nat.le_antisymm bound (Nat.lt_of_not_le older)]⟩

theorem Starts.assign (formed : g.WellFormed) (starts : p.Starts g)
    (found : g.nonterminals[index]? = some n) (unassigned : p.symbol? index = none) :
    (p.assign index n.name).1.Starts g := by
  have last : (p.assign index n.name).1.normal.numbering.last = p.normal.numbering.last + 1 :=
    p.normal.addUnshareable_last n.name
  exact
    { shards := starts.shards
      filters := starts.filters
      size := (Array.size_setIfInBounds ..).trans starts.size
      bounds := fun i s isSome => last ▸ starts.bounds_assign found isSome
      unshareable := fun i s isSome => starts.unshareable_assign found isSome
      own := fun s own => last ▸ starts.own_assign own
      injective := fun i j s isSome isSome' => starts.injective_assign found isSome isSome'
      named := fun i m isFound => starts.named_assign formed found unassigned isFound
      known := fun name s isSome => starts.known_assign formed found isSome
      shown := fun i m s isFound isSome => starts.shown_assign formed found isFound isSome
      borne := fun s name isName => starts.borne_assign formed found unassigned isName
      taken := fun s positive bound =>
        starts.taken_assign found unassigned positive (last ▸ bound) }

end

/-- What the first round over the nonterminals has done after `k` of them. -/
structure Given (g : Grammar) (k : Nat) (p : Progress) : Prop extends Starts g p, Tagged g p where
  later : ∀ i, k ≤ i → p.symbol? i = none
  given : ∀ i, i < k → g.IsGiven i → (p.symbol? i).isSome = true
  only : ∀ i s, p.symbol? i = some s → g.IsGiven i
  bare : ∀ rule ∈ g.rules, rule.lhs < k → ¬ g.IsGiven rule.lhs

theorem Given.initial (g : Grammar) : (Progress.initial g).Given g 0 :=
  { Starts.initial g, Tagged.initial g with
    later := fun i _ => symbol?_initial g i
    given := fun i lt => absurd lt (Nat.not_lt_zero i)
    only := fun i s found => by rw [symbol?_initial] at found; cases found
    bare := fun rule _ lt => absurd lt (Nat.not_lt_zero rule.lhs) }

theorem ne_lhs_of_isEmpty {k : Nat} (listed : g.Listed) (empty : (g.rulesOf k).isEmpty = true)
    {rule : Rule} (member : rule ∈ g.rules) : rule.lhs ≠ k := by
  intro here
  obtain ⟨j, found⟩ := Array.mem_iff_getElem?.mp member
  have isRule : j ∈ g.rulesOf k := by
    rw [listed.numbers]
    refine List.mem_filter.mpr ⟨List.mem_range.mpr (Array.getElem?_eq_some_iff.mp found).1, ?_⟩
    simp [found, here]
  rw [List.isEmpty_iff.mp empty] at isRule
  cases isRule

/-- The nonterminal at `k` has been given a symbol, which may have been noted elsewhere too. -/
theorem Given.assigned {k : Nat} {n : Nonterminal} {q : Progress} (formed : g.Consistent)
    (holds : p.Given g k) (found : g.nonterminals[k]? = some n)
    (isGiven : g.IsGiven k) (empty : (g.rulesOf k).isEmpty = true)
    (shards : q.normal.shards = p.normal.shards) (filters : q.normal.filters = p.normal.filters)
    (numbering : q.normal.numbering = (p.assign k n.name).1.normal.numbering)
    (symbols : q.symbols = (p.assign k n.name).1.symbols) (tagged : q.Tagged g) :
    q.Given g (k + 1) := by
  have starts := holds.toStarts.assign formed.toWellFormed found (holds.later k (Nat.le_refl k))
  have isSymbol := holds.toStarts.symbol?_assign found
  have starts' : q.Starts g := starts.congr shards filters numbering symbols
  have same (i : Nat) : q.symbol? i = (p.assign k n.name).1.symbol? i := by
    rw [symbol?, symbols]
    rfl
  refine { starts', tagged with
    later := fun i le => ?_
    given := fun i lt isGiven => ?_
    only := fun i s isSome => ?_
    bare := fun rule member lt => ?_ }
  · rw [same, isSymbol, if_neg (by omega)]
    exact holds.later i (by omega)
  · rw [same, isSymbol]
    split
    · rfl
    · exact holds.given i (by omega) isGiven
  · rw [same, isSymbol] at isSome
    split at isSome
    · next here => exact here ▸ isGiven
    · exact holds.only i s isSome
  · exact holds.bare rule member (by have := ne_lhs_of_isEmpty formed.toListed empty member; omega)

/-- The symbol of a name once the nonterminal at `k` has one. -/
theorem Given.symbol?_assign {k : Nat} {n : Nonterminal} (formed : g.WellFormed)
    (holds : p.Given g k) (found : g.nonterminals[k]? = some n) (name : String) :
    (p.assign k n.name).1.normal.symbol? name =
      if name = n.name then some (p.assign k n.name).2 else p.normal.symbol? name := by
  have nonempty : n.name ≠ "" := formed.named n (Array.mem_of_getElem? found)
  refine (p.normal.addUnshareable_symbol? nonempty name).trans ?_
  rw [holds.named k n found, holds.later k (Nat.le_refl k)]
  rfl

theorem assignGiven_cases {k : Nat} {n : Nonterminal} {q : Progress}
    (step : p.assignGiven g k n = .ok q) :
    (∃ kind, Structural.ofName? n.name = some kind ∧ (g.rulesOf k).isEmpty = true ∧
      q = { (p.assign k n.name).1 with
        normal := (p.assign k n.name).1.normal.assignStructural kind (p.assign k n.name).2 }) ∨
    (∃ label, Structural.ofName? n.name = none ∧ n.label = some label ∧
      (g.rulesOf k).isEmpty = true ∧ q = { (p.assign k n.name).1 with
        normal := (p.assign k n.name).1.normal.bindLabel label (p.assign k n.name).2 }) ∨
    (Structural.ofName? n.name = none ∧ n.label = none ∧ q = p) := by
  unfold assignGiven at step
  split at step
  · next kind isStructural =>
    cases empty : (g.rulesOf k).isEmpty with
    | false =>
      rw [empty] at step
      cases step
    | true =>
      rw [empty] at step
      cases step
      exact .inl ⟨kind, isStructural, rfl, rfl⟩
  · next label isStructural isLabel =>
    cases empty : (g.rulesOf k).isEmpty with
    | false =>
      rw [empty] at step
      cases step
    | true =>
      rw [empty] at step
      cases step
      exact .inr (.inl ⟨label, isStructural, isLabel, rfl, rfl⟩)
  · next isStructural isLabel =>
    cases step
    exact .inr (.inr ⟨isStructural, isLabel, rfl⟩)

theorem Given.step {k : Nat} {n : Nonterminal} {q : Progress} (formed : g.Consistent)
    (found : g.nonterminals[k]? = some n) (holds : p.Given g k)
    (step : p.assignGiven g k n = .ok q) : q.Given g (k + 1) := by
  have isSymbol := holds.symbol?_assign formed.toWellFormed found
  have last := p.normal.addUnshareable_last n.name
  have later (other : Structural) :
      p.normal.structural.get other ≤ (p.normal.addUnshareable n.name).1.numbering.last := by
    rw [last]
    exact Nat.le_succ_of_le (holds.slots_le other)
  have labels_le (tag : String) (s : Symbol) (isLabel : p.normal.labels[tag]? = some s) :
      s ≤ (p.normal.addUnshareable n.name).1.numbering.last := by
    rw [last]
    exact Nat.le_succ_of_le (holds.labels_le tag s isLabel)
  rcases assignGiven_cases step with ⟨kind, isStructural, empty, rfl⟩ |
    ⟨label, isStructural, isLabel, empty, rfl⟩ | ⟨isStructural, isLabel, rfl⟩
  · obtain ⟨known, named⟩ := Structural.ofName?_eq_some isStructural
    refine holds.assigned formed found ⟨n, found, .inl (by rw [isStructural]; rfl)⟩ empty rfl rfl
      rfl rfl ⟨fun other isKnown => ?_, fun other => ?_, holds.labels, labels_le⟩
    · refine (Structural.Symbols.get_assign _ known _ other).trans ?_
      refine Eq.trans ?_ (congrArg (·.getD 0) (isSymbol other.name)).symm
      by_cases same : other = kind
      · rw [if_pos same, if_pos (same ▸ named)]
        rfl
      · have differs : other.name ≠ n.name := fun eq =>
          same (Structural.name_injOn other isKnown kind known (eq.trans named.symm))
        rw [if_neg same, if_neg differs]
        exact holds.structural other isKnown
    · refine Nat.le_trans (Nat.le_of_eq (Structural.Symbols.get_assign _ known _ other)) ?_
      split
      · exact Nat.le_of_eq last.symm
      · exact later other
  · refine holds.assigned formed found ⟨n, found, .inr (by rw [isLabel]; rfl)⟩ empty rfl rfl rfl
      rfl ⟨fun other isKnown => ?_, later, fun tag isTag => ?_, fun tag s isTag => ?_⟩
    · have differs : other.name ≠ n.name := fun eq => by
        have := Structural.isSome_ofName? isKnown
        rw [eq, isStructural] at this
        cases this
      refine Eq.trans ?_ (congrArg (·.getD 0) (isSymbol other.name)).symm
      rw [if_neg differs]
      exact holds.structural other isKnown
    · rcases Std.TreeMap.mem_insert.mp isTag with eq | isOld
      · obtain rfl := Std.LawfulEqCmp.eq_of_compare eq
        exact ⟨n, Array.mem_of_getElem? found, isLabel⟩
      · exact holds.labels tag isOld
    · have isTag := Std.TreeMap.getElem?_insert.symm.trans isTag
      split at isTag
      · exact Nat.le_of_eq ((Option.some.inj isTag).symm.trans last.symm)
      · exact labels_le tag s isTag
  · have notGiven : ¬ g.IsGiven k := by
      rintro ⟨m, isFound, either⟩
      rw [found] at isFound
      obtain rfl := Option.some.inj isFound
      simp [isStructural, isLabel] at either
    refine { holds with
      later := fun i le => holds.later i (by omega)
      given := fun i lt isGiven => ?_
      bare := fun rule member lt => ?_ }
    · by_cases here : i = k
      · exact absurd (here ▸ isGiven) notGiven
      · exact holds.given i (by omega) isGiven
    · by_cases here : rule.lhs = k
      · exact here ▸ notGiven
      · exact holds.bare rule member (by omega)

/-- What the second round has done after `k` nonterminals. -/
structure Owned (g : Grammar) (k : Nat) (p : Progress) : Prop extends Starts g p, Tagged g p where
  given : ∀ i, g.IsGiven i → (p.symbol? i).isSome = true
  owner : ∀ i s, p.symbol? i = some s → g.IsGiven i ∨ ∃ rule ∈ g.rules, rule.lhs = i
  earned : ∀ i s, p.symbol? i = some s → g.IsGiven i ∨
    1 < (g.rules.toList.filter (·.lhs == i)).length ∨
    ∃ rule ∈ g.rules.toList.filter (·.lhs == i), g.filters.contains rule.options.callback.id = true
  single : ∀ i, i < k → p.symbol? i = none → (g.rules.toList.filter (·.lhs == i)).length ≤ 1

theorem Given.owned (holds : p.Given g g.nonterminals.size) : p.Owned g 0 := by
  refine { holds with
    given := fun i isGiven => ?_
    owner := fun i s found => .inl (holds.only i s found)
    earned := fun i s found => .inl (holds.only i s found)
    single := fun i lt => absurd lt (by simp) }
  obtain ⟨n, found, _⟩ := id isGiven
  exact holds.given i (Array.getElem?_eq_some_iff.mp found).1 isGiven

/-- The rules of a nonterminal, found by their numbers. -/
theorem filterMap_rulesOf (listed : g.Listed) (i : Nat) :
    (g.rulesOf i).filterMap (g.rules[·]?) = g.rules.toList.filter (·.lhs == i) := by
  have enumerated : (List.range g.rules.size).filterMap (g.rules[·]?) = g.rules.toList := by
    simpa using filterMap_getElem?_range g.rules.toList
  rw [listed.numbers, numbersOf, ← enumerated, List.filter_filterMap, List.filterMap_filter]
  refine List.filterMap_congr fun j _ => ?_
  cases g.rules[j]? with
  | none => rfl
  | some rule => by_cases here : rule.lhs == i <;> simp [here, Option.filter]

theorem assignOwn_cases {k : Nat} {n : Nonterminal} {q : Progress} (listed : g.Listed)
    (step : p.assignOwn g k n = .ok q) :
    (q = p ∧ ((p.symbol? k).isSome = true ∨ (g.rules.toList.filter (·.lhs == k)).length ≤ 1)) ∨
      (q = (p.assign k n.name).1 ∧ p.symbol? k = none ∧
        g.rules.toList.filter (·.lhs == k) ≠ [] ∧
        (1 < (g.rules.toList.filter (·.lhs == k)).length ∨
          ∃ rule ∈ g.rules.toList.filter (·.lhs == k),
            g.filters.contains rule.options.callback.id = true)) := by
  unfold assignOwn at step
  rw [filterMap_rulesOf listed] at step
  generalize g.rules.toList.filter (·.lhs == k) = rules at step
  by_cases isSome : (p.symbol? k).isSome = true
  · rw [if_pos isSome] at step
    cases step
    exact .inl ⟨rfl, .inl isSome⟩
  · rw [if_neg isSome] at step
    by_cases empty : rules.isEmpty = true
    · have short : rules.length ≤ 1 := by simp [List.isEmpty_iff.mp empty]
      simp only [if_pos empty] at step
      split at step
      · cases step
      · cases step
        exact .inl ⟨rfl, .inr short⟩
    · simp only [if_neg empty] at step
      split at step
      · next many =>
        cases step
        simp only [Bool.or_eq_true, decide_eq_true_eq, List.any_eq_true] at many
        exact .inr ⟨rfl, by simpa using isSome, by simpa using empty, many⟩
      · next few =>
        cases step
        simp only [Bool.or_eq_true, decide_eq_true_eq, not_or, Nat.not_lt] at few
        exact .inl ⟨rfl, .inr few.1⟩

theorem Owned.step {k : Nat} {n : Nonterminal} {q : Progress} (formed : g.Consistent)
    (found : g.nonterminals[k]? = some n) (holds : p.Owned g k)
    (step : p.assignOwn g k n = .ok q) : q.Owned g (k + 1) := by
  rcases assignOwn_cases formed.toListed step with ⟨rfl, enough⟩ | ⟨rfl, isNone, hasRules, several⟩
  · refine { holds with single := fun i lt isNone => ?_ }
    by_cases here : i = k
    · subst here
      rw [isNone] at enough
      exact enough.resolve_left (by simp)
    · exact holds.single i (by omega) isNone
  · have starts := holds.toStarts.assign formed.toWellFormed found isNone
    have isSymbol := holds.toStarts.symbol?_assign found
    have nonempty : n.name ≠ "" := formed.named n (Array.mem_of_getElem? found)
    refine { starts with
      structural := fun kind known => ?_
      slots_le := fun kind => ?_
      labels := holds.labels
      labels_le := fun tag s isLabel => ?_
      given := fun i isGiven => ?_
      owner := fun i s isSome => ?_
      earned := fun i s isSome => ?_
      single := fun i lt isNone' => ?_ }
    · have differs : kind.name ≠ n.name := fun eq => by
        have isGiven : g.IsGiven k := ⟨n, found, .inl (eq ▸ Structural.isSome_ofName? known)⟩
        have := holds.given k isGiven
        rw [isNone] at this
        cases this
      have unchanged := p.normal.addUnshareable_symbol? nonempty kind.name
      rw [if_neg differs] at unchanged
      exact (holds.structural kind known).trans (congrArg (·.getD 0) unchanged).symm
    · refine Nat.le_trans (Nat.le_succ_of_le (holds.slots_le kind)) ?_
      exact Nat.le_of_eq (p.normal.addUnshareable_last n.name).symm
    · refine Nat.le_trans (Nat.le_succ_of_le (holds.labels_le tag s isLabel)) ?_
      exact Nat.le_of_eq (p.normal.addUnshareable_last n.name).symm
    · rw [isSymbol]
      split
      · rfl
      · exact holds.given i isGiven
    · rw [isSymbol] at isSome
      split at isSome
      · next here =>
        obtain ⟨rule, member⟩ := List.exists_mem_of_ne_nil _ hasRules
        obtain ⟨isRule, lhs⟩ := List.mem_filter.mp member
        exact .inr ⟨rule, Array.mem_toList_iff.mp isRule, by rw [here]; simpa using lhs⟩
      · exact holds.owner i s isSome
    · rw [isSymbol] at isSome
      split at isSome
      · next here => exact .inr (here ▸ several)
      · exact holds.earned i s isSome
    · rw [isSymbol] at isNone'
      split at isNone'
      · cases isNone'
      · exact holds.single i (by omega) isNone'

end

end Grammar.Progress

end Phrasebook
