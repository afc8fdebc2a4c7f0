import Phrasebook.Grammar.Lowering
import Phrasebook.Proofs.Grammar.Built
import Phrasebook.Proofs.Grammar.Meaning

/-!
Bringing a grammar to normal form keeps what it derives. Each lowered rule is represented by
productions, and a model of the productions gives every nonterminal exactly what its author's rules
derive; sweep after sweep, this holds of the rules lowered so far.
-/

namespace Phrasebook

namespace Structural

/-- The symbol of a structural nonterminal, 0 if it has none. -/
def Symbols.get (s : Symbols) : Structural → Symbol
  | .start => s.start
  | .stop => s.stop
  | .token => s.token
  | .uppercaseToken => s.uppercaseToken
  | .digits => s.digits
  | .digitRun n => s.digitRun n

theorem isSome_ofName? {kind : Structural} (known : kind ∈ all) :
    (ofName? kind.name).isSome = true :=
  List.find?_isSome.mpr ⟨kind, known, by simp⟩

end Structural

namespace Grammar

/-- A rule with the callback spells the leaves. -/
def Allowed (g : Grammar) (R : Reading Nat α) (callback : Callback) (w : List α) : Prop :=
  ∃ rule ∈ g.rules, rule.options.callback = callback ∧ g.Spells R rule.options rule.rhs w

namespace Progress

/-- The productions represent the rule: a meaning closed under them has all that the rule spells,
and the rule's callback fires there. -/
def Represents (R : Reading Nat α) (p : Progress) (rule : Rule) : Prop :=
  ∃ s, p.symbol? rule.lhs = some s ∧ p.isReady rule = true ∧
    ∀ D : Meaning α, p.normal.Closed R D → D.Solid →
      ∀ w, R.JoinsAll rule.options.gap (rule.rhs.map fun e => (p.part rule e).Means R D) w → D s w ∧
        (rule.options.callback.isSilent = false → rule.excluded = none →
          p.normal.FiresUnder R D rule.options.callback w)

/-- Each nonterminal that has a symbol means what its author's rules derive. -/
def Explains (g : Grammar) (R : Reading Nat α) (p : Progress) (M : Meaning α) : Prop :=
  p.normal.Model R (g.Allowed R) M ∧
    ∀ i s, p.symbol? i = some s → ∀ w, M s w ↔ g.Generates R i w

/-- Bookkeeping: symbols in use are bounded and found under the names of their nonterminals, and
what needs a symbol of its own has one. -/
structure Tidy (g : Grammar) (p : Progress) : Prop where
  bounded : p.normal.Bounded
  locales : p.normal.frame.locales = g.shards
  filters : p.normal.filters = g.filters
  structural : ∀ kind ∈ Structural.all,
    p.normal.structural.get kind = (p.normal.symbol? kind.name).getD 0
  slots_le : ∀ kind, p.normal.structural.get kind ≤ p.normal.numbering.last
  labels : ∀ tag ∈ p.normal.labels, ∃ n ∈ g.nonterminals, n.label = some tag
  labels_le : ∀ (tag : String) s, p.normal.labels[tag]? = some s → s ≤ p.normal.numbering.last
  symbols_le : ∀ i s, p.symbol? i = some s → s ≤ p.normal.numbering.last
  size : p.symbols.size = g.nonterminals.size
  given : ∀ i, g.IsGiven i → ∃ s, p.symbol? i = some s ∧ 0 < s
  single : ∀ i, p.symbol? i = none → (g.rules.toList.filter (·.lhs == i)).length ≤ 1
  named : ∀ i n, g.nonterminals[i]? = some n → p.normal.symbol? n.name = p.symbol? i
  known : ∀ name s, p.normal.symbol? name = some s → ∃ n ∈ g.nonterminals, n.name = name
  names : ∀ s name, p.normal.nameOf? s = some name →
    s ≤ p.normal.numbering.last ∧ ∃ n ∈ g.nonterminals, n.name = name
  callbacks : ∀ b h, p.normal.Has b h → h.callback.isSilent = true ∨
    ∃ rule ∈ g.rules, rule.options.callback.id = h.callback.id

theorem Tidy.shards {g : Grammar} {p : Progress} (tidy : p.Tidy g) :
    p.normal.shards.size = g.shards.length := by
  simpa [NormalForm.frame] using congrArg List.length tidy.locales

/-- The symbol is in use, or will be once the rules of `pending` are lowered. -/
def Uses (g : Grammar) (pending : List Rule) (p : Progress) (s : Symbol) : Prop :=
  p.normal.Heads s ∨ (∃ i, g.IsGiven i ∧ p.symbol? i = some s) ∨
    ∃ rule ∈ pending, p.symbol? rule.lhs = some s

/-- The state of a sweep: `pending` are the rules still to be lowered. -/
structure Holds (g : Grammar) (R : Reading Nat α) (pending : List Rule) (p : Progress) : Prop
    extends Tidy g p where
  sublist : pending.Sublist g.rules.toList
  own : ∀ rule ∈ pending, ∀ s, p.symbol? rule.lhs = some s → p.normal.isUnshareable s = true
  explained : ∃ M, p.Explains g R M
  lowered : ∀ rule ∈ g.rules, rule ∈ pending ∨ p.Represents R rule
  used : ∀ s, 0 < s → s ≤ p.normal.numbering.last → p.Uses g pending s

/-- Symbols once given stay, and so do productions. -/
structure Grows (p q : Progress) : Prop where
  symbols : ∀ i s, p.symbol? i = some s → q.symbol? i = some s
  productions : p.normal.Extends q.normal

theorem part_eq {p q : Progress} (grows : p.Grows q) {rule : Rule} (ready : p.isReady rule = true)
    {e : Element} (member : e ∈ rule.rhs) : q.part rule e = p.part rule e := by
  cases e with
  | literal text => rfl
  | reference i =>
    have inReferences : i ∈ rule.references :=
      List.mem_append_left _ (List.mem_filterMap.mpr ⟨_, member, rfl⟩)
    obtain ⟨s, found⟩ := Option.isSome_iff_exists.mp (List.all_eq_true.mp ready i inReferences)
    simp only [part, found, grows.symbols i s found]

theorem isReady_grows {p q : Progress} (grows : p.Grows q) {rule : Rule}
    (ready : p.isReady rule = true) : q.isReady rule = true := by
  refine List.all_eq_true.mpr fun i member => ?_
  obtain ⟨s, found⟩ := Option.isSome_iff_exists.mp (List.all_eq_true.mp ready i member)
  rw [grows.symbols i s found]
  rfl

theorem Represents.grows {R : Reading Nat α} {p q : Progress} (grows : p.Grows q) {rule : Rule}
    (h : p.Represents R rule) : q.Represents R rule := by
  obtain ⟨s, symbol, ready, represents⟩ := h
  refine ⟨s, grows.symbols _ _ symbol, isReady_grows grows ready, fun D closed solid w joins => ?_⟩
  have same : (rule.rhs.map fun e => (q.part rule e).Means R D) =
      rule.rhs.map fun e => (p.part rule e).Means R D :=
    List.map_congr_left fun e member => by rw [part_eq grows ready member]
  rw [same] at joins
  obtain ⟨means, fires⟩ := represents D (closed.of_extends grows.productions) solid w joins
  exact ⟨means, fun loud none => (fires loud none).extends grows.productions loud⟩

/-- Where `M` explains the symbols, a rule that is ready has parts that mean what its elements do. -/
theorem joinsAll_parts {g : Grammar} {R : Reading Nat α} {p : Progress} {M : Meaning α}
    (means : ∀ i s, p.symbol? i = some s → ∀ w, M s w ↔ g.Generates R i w) {rule : Rule}
    (ready : p.isReady rule = true) (w : List α) :
    R.JoinsAll rule.options.gap (rule.rhs.map fun e => (p.part rule e).Means R M) w ↔
      g.Spells R rule.options rule.rhs w := by
  have each (e : Element) (member : e ∈ rule.rhs) (v : List α) :
      (p.part rule e).Means R M v ↔ g.Means R rule.options e v := by
    cases e with
    | literal text => exact .rfl
    | reference i =>
      have inReferences : i ∈ rule.references :=
        List.mem_append_left _ (List.mem_filterMap.mpr ⟨_, member, rfl⟩)
      obtain ⟨s, found⟩ := Option.isSome_iff_exists.mp (List.all_eq_true.mp ready i inReferences)
      simp only [part, found, Option.getD_some]
      exact means i s found v
  rw [spells_iff_joinsAll]
  exact ⟨Reading.JoinsAll.mono fun e member v => (each e member v).mp,
    Reading.JoinsAll.mono fun e member v => (each e member v).mpr⟩

/-- What a rule asks for when it is lowered. -/
def request (p : Progress) (rule : Rule) : Head.Request where
  target := p.symbol? rule.lhs
  callback :=
    match rule.excluded with
    | some index => ⟨rule.options.callback.id, UInt64.ofNat ((p.symbol? index).getD 0)⟩
    | none => rule.options.callback
  gap := rule.options.gap

theorem request_callback_id (p : Progress) (rule : Rule) :
    (p.request rule).callback.id = rule.options.callback.id := by
  simp only [request]
  split
  · rfl
  · rfl

theorem request_callback {p : Progress} {rule : Rule} (none : rule.excluded = none) :
    (p.request rule).callback = rule.options.callback := by
  simp [request, none]

theorem lower_eq (g : Grammar) (p : Progress) (rule : Rule) :
    p.lower g rule =
      let added := p.normal.addRule (p.request rule) (rule.rhs.map (p.part rule)) rule.options.shard
      match p.symbol? rule.lhs <|> added.2 with
      | none => { p with normal := added.1 }
      | some symbol =>
        { normal := added.1.bind (((g.nonterminals[rule.lhs]?).map (·.name)).getD "") symbol
          symbols := p.symbols.setIfInBounds rule.lhs (some symbol) } :=
  rfl

/-- The normal form and the symbol that lowering a rule leads to. -/
structure Lowers (g : Grammar) (R : Reading Nat α) (p : Progress) (rule : Rule)
    (after : NormalForm) (symbol : Symbol) : Prop where
  realizes : NormalForm.Realizes R (g.Allowed R) p.normal (p.request rule)
    (fun M => R.JoinsAll rule.options.gap (rule.rhs.map fun e => (p.part rule e).Means R M)) after
    symbol
  added : p.normal.addRule (p.request rule) (rule.rhs.map (p.part rule)) rule.options.shard =
    (after, some symbol)
  result : p.lower g rule =
    { normal := after.bind (((g.nonterminals[rule.lhs]?).map (·.name)).getD "") symbol
      symbols := p.symbols.setIfInBounds rule.lhs (some symbol) }

theorem lowers {g : Grammar} {R : Reading Nat α} {p : Progress} {rule : Rule} (tidy : p.Tidy g)
    (fits : g.RuleFits rule) (ready : p.isReady rule = true)
    (own : ∀ s, p.symbol? rule.lhs = some s → p.normal.isUnshareable s = true) :
    ∃ after symbol, p.Lowers g R rule after symbol := by
  have bound : ∀ part ∈ rule.rhs.map (p.part rule), part.Bounded p.normal.numbering.last := by
    intro part member
    obtain ⟨e, inRhs, rfl⟩ := List.mem_map.mp member
    cases e with
    | literal text => exact fits.literals text inRhs
    | reference i =>
      have inReferences : i ∈ rule.references :=
        List.mem_append_left _ (List.mem_filterMap.mpr ⟨_, inRhs, rfl⟩)
      obtain ⟨s, found⟩ := Option.isSome_iff_exists.mp (List.all_eq_true.mp ready i inReferences)
      simp only [Progress.part, found, Option.getD_some]
      exact tidy.symbols_le i s found
  obtain ⟨symbol, yielded, realizes⟩ : ∃ symbol, _ ∧ NormalForm.Realizes R (g.Allowed R) p.normal
      (p.request rule) _ (p.normal.addRule (p.request rule) (rule.rhs.map (p.part rule))
        rule.options.shard).1 symbol :=
    NormalForm.addRule_realizes tidy.bounded (tidy.shards ▸ fits.shard) own bound
      (by simpa using fits.nonempty)
  have symbols : (p.symbol? rule.lhs <|> some symbol) = some symbol := by
    cases found : p.symbol? rule.lhs with
    | none => rfl
    | some s => exact congrArg some (realizes.target s found).symm
  refine ⟨(p.normal.addRule (p.request rule) (rule.rhs.map (p.part rule)) rule.options.shard).1,
    symbol, ?_, Prod.ext rfl yielded, ?_⟩
  · exact realizes.congr fun M w => by
      rw [List.map_map]
      rfl
  · rw [lower_eq]
    simp only [yielded, symbols]

theorem symbol?_lower {g : Grammar} {R : Reading Nat α} {p : Progress} {rule : Rule}
    {after : NormalForm} {symbol : Symbol} (tidy : p.Tidy g) (fits : g.RuleFits rule)
    (lowers : p.Lowers g R rule after symbol) (i : Nat) :
    (p.lower g rule).symbol? i = if i = rule.lhs then some symbol else p.symbol? i := by
  have inRange : rule.lhs < p.symbols.size := tidy.size ▸ fits.lhs
  simp only [lowers.result, symbol?, Array.getD_eq_getD_getElem?, Array.getElem?_setIfInBounds]
  by_cases same : i = rule.lhs
  · simp [same, inRange]
  · simp [same, Ne.symm same]

section
variable {g : Grammar} {R : Reading Nat α} {p : Progress} {rule : Rule} {after : NormalForm}
  {symbol : Symbol}

/-- Lowering a rule gives its left-hand side a symbol and takes none away. -/
theorem grows_lower (tidy : p.Tidy g) (fits : g.RuleFits rule)
    (lowers : p.Lowers g R rule after symbol) : p.Grows (p.lower g rule) := by
  refine ⟨fun i s found => ?_, ?_⟩
  · rw [symbol?_lower tidy fits lowers]
    split
    · next same =>
      subst same
      exact congrArg some (lowers.realizes.target s found)
    · exact found
  · rw [lowers.result]
    exact lowers.realizes.keeps.productions

theorem name_injective (formed : g.WellFormed) {i j : Nat} {m n : Nonterminal}
    (foundi : g.nonterminals[i]? = some m) (foundj : g.nonterminals[j]? = some n)
    (same : m.name = n.name) : i = j := by
  obtain ⟨ltI, eqI⟩ := Array.getElem?_eq_some_iff.mp foundi
  obtain ⟨ltJ, eqJ⟩ := Array.getElem?_eq_some_iff.mp foundj
  have ltI' : i < (g.nonterminals.toList.map (·.name)).length := by simpa using ltI
  have ltJ' : j < (g.nonterminals.toList.map (·.name)).length := by simpa using ltJ
  refine (List.Nodup.getElem_inj_iff formed.distinct).mp (?_ : _[i] = _[j])
  simpa [eqI, eqJ] using same

theorem Lowers.last (lowers : p.Lowers g R rule after symbol) :
    (p.lower g rule).normal.numbering.last = after.numbering.last := by
  rw [lowers.result]
  exact (after.bind_numbering _ symbol).1

theorem Lowers.frame (lowers : p.Lowers g R rule after symbol) :
    (p.lower g rule).normal.frame = p.normal.frame := by
  rw [lowers.result]
  exact lowers.realizes.keeps.frame

section
variable {n : Nonterminal}

/-- The symbol that a name stands for after its nonterminal's rule has been lowered. -/
theorem normal_symbol?_lower (formed : g.WellFormed) (tidy : p.Tidy g)
    (found : g.nonterminals[rule.lhs]? = some n) (lowers : p.Lowers g R rule after symbol)
    (name : String) : (p.lower g rule).normal.symbol? name =
      if name = n.name then some symbol else p.normal.symbol? name := by
  have nonempty : n.name ≠ "" := formed.named n (Array.mem_of_getElem? found)
  have same (name : String) : after.symbol? name = p.normal.symbol? name := by
    rw [NormalForm.symbol?, lowers.realizes.keeps.byName]
    rfl
  have here : (p.symbol? rule.lhs).getD symbol = symbol := by
    cases isSome : p.symbol? rule.lhs with
    | none => rfl
    | some s => exact (lowers.realizes.target s isSome).symm
  rw [lowers.result, found, Option.map_some, Option.getD_some, NormalForm.bind_symbol? nonempty,
    same, same, tidy.named rule.lhs n found, here]

theorem structural_lower (formed : g.WellFormed) (tidy : p.Tidy g)
    (found : g.nonterminals[rule.lhs]? = some n) (lowers : p.Lowers g R rule after symbol)
    {kind : Structural} (known : kind ∈ Structural.all) :
    (p.lower g rule).normal.structural.get kind =
      ((p.lower g rule).normal.symbol? kind.name).getD 0 := by
  have unchanged : (p.lower g rule).normal.structural = p.normal.structural :=
    congrArg NormalForm.Frame.structural lowers.frame
  rw [unchanged, tidy.structural kind known, normal_symbol?_lower formed tidy found lowers]
  split
  · next isName =>
    have isGiven : g.IsGiven rule.lhs := ⟨n, found, .inl (isName ▸ Structural.isSome_ofName? known)⟩
    obtain ⟨s, isSome, _⟩ := tidy.given _ isGiven
    rw [isName, tidy.named _ n found, isSome, lowers.realizes.target s isSome]
  · rfl

theorem named_lower (formed : g.WellFormed) (tidy : p.Tidy g) (fits : g.RuleFits rule)
    (found : g.nonterminals[rule.lhs]? = some n) (lowers : p.Lowers g R rule after symbol) {i : Nat}
    {m : Nonterminal} (isNonterminal : g.nonterminals[i]? = some m) :
    (p.lower g rule).normal.symbol? m.name = (p.lower g rule).symbol? i := by
  rw [normal_symbol?_lower formed tidy found lowers, symbol?_lower tidy fits lowers]
  by_cases same : i = rule.lhs
  · subst same
    obtain rfl := Option.some.inj (found.symm.trans isNonterminal)
    rw [if_pos rfl, if_pos rfl]
  · have differs : m.name ≠ n.name := fun eq => same (name_injective formed isNonterminal found eq)
    rw [if_neg differs, if_neg same, tidy.named i m isNonterminal]

theorem names_lower (tidy : p.Tidy g) (found : g.nonterminals[rule.lhs]? = some n)
    (lowers : p.Lowers g R rule after symbol) {s : Symbol} {name : String}
    (isName : (p.lower g rule).normal.nameOf? s = some name) :
    s ≤ after.numbering.last ∧ ∃ m ∈ g.nonterminals, m.name = name := by
  rw [lowers.result, found, Option.map_some, Option.getD_some] at isName
  rcases NormalForm.nameOf?_bind isName with old | ⟨rfl, rfl⟩
  · rw [NormalForm.nameOf?, lowers.realizes.keeps.names] at old
    obtain ⟨le, isKnown⟩ := tidy.names s name old
    exact ⟨Nat.le_trans le lowers.realizes.keeps.last, isKnown⟩
  · exact ⟨lowers.realizes.symbol_le, n, Array.mem_of_getElem? found, rfl⟩

end

theorem tidy_lower (formed : g.WellFormed) (tidy : p.Tidy g) (member : rule ∈ g.rules)
    (lowers : p.Lowers g R rule after symbol) : (p.lower g rule).Tidy g := by
  have fits := formed.rules rule member
  have grows := grows_lower tidy fits lowers
  have symbols := symbol?_lower tidy fits lowers
  have grown := lowers.realizes.keeps.last
  obtain ⟨n, found⟩ : ∃ n, g.nonterminals[rule.lhs]? = some n :=
    ⟨_, Array.getElem?_eq_getElem fits.lhs⟩
  have structural : (p.lower g rule).normal.structural = p.normal.structural :=
    congrArg NormalForm.Frame.structural lowers.frame
  have labels : (p.lower g rule).normal.labels = p.normal.labels :=
    congrArg NormalForm.Frame.labels lowers.frame
  refine
    { bounded := ?bounded
      locales := lowers.frame ▸ tidy.locales
      filters := (congrArg NormalForm.Frame.filters lowers.frame).trans tidy.filters
      structural := fun kind known => structural_lower formed tidy found lowers known
      slots_le := fun kind => ?slots_le
      labels := labels ▸ tidy.labels
      labels_le := fun tag s isLabel => ?labels_le
      symbols_le := fun i s isSome => ?symbols_le
      size := ?size
      given := fun i isGiven => (tidy.given i isGiven).imp fun s h => ⟨grows.symbols i s h.1, h.2⟩
      single := fun i isNone => tidy.single i ?single
      named := fun i m isNonterminal => named_lower formed tidy fits found lowers isNonterminal
      known := fun name s isSome => ?known
      names := fun s name isName => lowers.last ▸ names_lower tidy found lowers isName
      callbacks := fun b h has => ?callbacks }
  case bounded =>
    rw [lowers.result]
    exact lowers.realizes.bounded.bind _ symbol
  case slots_le =>
    rw [structural, lowers.last]
    exact Nat.le_trans (tidy.slots_le kind) grown
  case labels_le =>
    rw [lowers.last]
    exact Nat.le_trans (tidy.labels_le tag s (labels ▸ isLabel)) grown
  case symbols_le =>
    rw [lowers.last]
    rw [symbols] at isSome
    split at isSome
    · exact Option.some.inj isSome ▸ lowers.realizes.symbol_le
    · exact Nat.le_trans (tidy.symbols_le i s isSome) grown
  case size =>
    rw [lowers.result]
    simpa using tidy.size
  case single =>
    cases isSome : p.symbol? i with
    | none => rfl
    | some s =>
      rw [grows.symbols i s isSome] at isNone
      cases isNone
  case known =>
    rw [normal_symbol?_lower formed tidy found lowers] at isSome
    split at isSome
    · next isName => exact ⟨n, Array.mem_of_getElem? found, isName.symm⟩
    · exact tidy.known name s isSome
  case callbacks =>
    rw [lowers.result] at has
    rcases lowers.realizes.traces.callbacks b h has with old | silent | same
    · exact tidy.callbacks b h old
    · exact .inl silent
    · exact .inr ⟨rule, member, by rw [same, request_callback_id]⟩

/-- A symbol is used by the productions of the rule, or as before. -/
theorem uses_lower {before rest : List Rule} (tidy : p.Tidy g) (fits : g.RuleFits rule)
    (lowers : p.Lowers g R rule after symbol)
    (used : ∀ s, 0 < s → s ≤ p.normal.numbering.last → p.Uses g (before ++ rule :: rest) s)
    (s : Symbol) (positive : 0 < s) (bound : s ≤ (p.lower g rule).normal.numbering.last) :
    (p.lower g rule).Uses g (before ++ rest) s := by
  have grows := grows_lower tidy fits lowers
  have traces := lowers.realizes.traces
  have heads {s : Symbol} (h : after.Heads s) : (p.lower g rule).normal.Heads s := by
    rw [lowers.result]
    exact h
  by_cases old : s ≤ p.normal.numbering.last
  · rcases used s positive old with isHead | ⟨i, isGiven, found⟩ | ⟨other, isPending, found⟩
    · exact .inl (isHead.extends grows.productions)
    · exact .inr (.inl ⟨i, isGiven, grows.symbols i s found⟩)
    · rcases List.mem_append.mp isPending with earlier | later
      · exact .inr (.inr ⟨other, List.mem_append_left _ earlier, grows.symbols _ s found⟩)
      · rcases List.mem_cons.mp later with rfl | later
        · exact .inl (heads (traces.aimed s found))
        · exact .inr (.inr ⟨other, List.mem_append_right _ later, grows.symbols _ s found⟩)
  · refine .inl (heads (traces.fresh s (Nat.lt_of_not_le old) ?_))
    rw [lowers.result] at bound
    exact Nat.le_trans bound (Nat.le_of_eq (after.bind_numbering _ symbol).1)

/-- A left-hand side without a symbol has one rule. -/
theorem Tidy.eq_of_lhs {other : Rule} (tidy : p.Tidy g) (none : p.symbol? rule.lhs = none)
    (member : rule ∈ g.rules) (isRule : other ∈ g.rules) (same : other.lhs = rule.lhs) :
    other = rule := by
  have inFilter : rule ∈ g.rules.toList.filter (·.lhs == rule.lhs) :=
    List.mem_filter.mpr ⟨Array.mem_toList_iff.mpr member, by simp⟩
  have alsoIn : other ∈ g.rules.toList.filter (·.lhs == rule.lhs) :=
    List.mem_filter.mpr ⟨Array.mem_toList_iff.mpr isRule, by simpa using same⟩
  obtain ⟨only, isOnly⟩ := List.length_eq_one_iff.mp
    (Nat.le_antisymm (tidy.single rule.lhs none) (List.length_pos_of_mem inFilter))
  rw [isOnly, List.mem_singleton] at inFilter alsoIn
  exact alsoIn.trans inFilter.symm

/-- The only rule of a nonterminal that is not given derives what the nonterminal does. -/
theorem generates_iff_spells (tidy : p.Tidy g) (member : rule ∈ g.rules)
    (none : p.symbol? rule.lhs = none) (w : List α) :
    g.Generates R rule.lhs w ↔ g.Spells R rule.options rule.rhs w := by
  constructor
  · rintro (⟨isGiven, _⟩ | ⟨other, isRule, same, spells⟩)
    · obtain ⟨s, isSome, _⟩ := tidy.given _ isGiven
      rw [none] at isSome
      cases isSome
    · exact tidy.eq_of_lhs none member isRule same ▸ spells
  · exact fun spells => .inr ⟨rule, member, rfl, spells⟩

theorem explains_lower (formed : g.WellFormed) (tidy : p.Tidy g) (member : rule ∈ g.rules)
    (ready : p.isReady rule = true) (lowers : p.Lowers g R rule after symbol) {M : Meaning α}
    (explains : p.Explains g R M) :
    ∃ N, (p.lower g rule).Explains g R N ∧ Meaning.Agrees p.normal.numbering.last M N := by
  obtain ⟨model, means⟩ := explains
  have fits := formed.rules rule member
  have spelled (w : List α) := joinsAll_parts means ready w
  obtain ⟨N, model', agrees, here⟩ := lowers.realizes.model M model
    (fun s target w joins => (means _ s target w).mpr
      (.inr ⟨rule, member, rfl, (spelled w).mp joins⟩))
    (fun _ other w joins => by
      rw [request_callback_id] at other
      rw [request_callback (fits.excluded_eq_none other)]
      exact ⟨rule, member, rfl, (spelled w).mp joins⟩)
  refine ⟨N, ⟨?_, fun i s found w => ?_⟩, agrees⟩
  · rw [lowers.result]
    exact model'.bind _ _
  · have old {i : Nat} {s : Symbol} (found : p.symbol? i = some s) : N s w ↔ g.Generates R i w :=
      (agrees s (tidy.symbols_le i s found) w).symm.trans (means i s found w)
    rw [symbol?_lower tidy fits lowers] at found
    split at found
    · next same =>
      obtain rfl := Option.some.inj found
      subst same
      cases target : p.symbol? rule.lhs with
      | some s => exact lowers.realizes.target s target ▸ old target
      | none =>
        calc N symbol w
          _ ↔ _ := here target w
          _ ↔ _ := (lowers.realizes.isLocal M N agrees w).symm
          _ ↔ g.Spells R rule.options rule.rhs w := spelled w
          _ ↔ g.Generates R rule.lhs w := (generates_iff_spells tidy member target w).symm
    · exact old found

theorem represents_lower (formed : g.WellFormed) (tidy : p.Tidy g) (member : rule ∈ g.rules)
    (ready : p.isReady rule = true) (lowers : p.Lowers g R rule after symbol) :
    (p.lower g rule).Represents R rule := by
  have fits := formed.rules rule member
  have grows := grows_lower tidy fits lowers
  refine ⟨symbol, ?_, isReady_grows grows ready, fun D closed solid w joins => ?_⟩
  · rw [symbol?_lower tidy fits lowers, if_pos rfl]
  · have same : (rule.rhs.map fun e => ((p.lower g rule).part rule e).Means R D) =
        rule.rhs.map fun e => (p.part rule e).Means R D :=
      List.map_congr_left fun e inRhs => by rw [part_eq grows ready inRhs]
    rw [same] at joins
    rw [lowers.result] at closed ⊢
    obtain ⟨means, fires⟩ := lowers.realizes.represents D closed solid w joins
    refine ⟨means, fun loud none => ?_⟩
    rw [request_callback none] at fires
    exact fires loud

/-- Two pending rules of one left-hand side are two rules of the grammar. -/
theorem two_le_of_pending {before rest rules : List Rule} {other : Rule}
    (sublist : (before ++ rule :: rest).Sublist rules) (isOther : other ∈ before ++ rest)
    (same : other.lhs = rule.lhs) : 2 ≤ (rules.filter (·.lhs == rule.lhs)).length := by
  have two := (sublist.filter (·.lhs == rule.lhs)).length_le
  simp only [List.filter_append, List.filter_cons, beq_self_eq_true, ↓reduceIte,
    List.length_append, List.length_cons] at two
  have one : 0 < (before.filter (·.lhs == rule.lhs)).length +
      (rest.filter (·.lhs == rule.lhs)).length := by
    rw [← List.length_append, ← List.filter_append]
    exact List.length_pos_of_mem (List.mem_filter.mpr ⟨isOther, by simpa using same⟩)
  omega

/-- Taking a rule that is ready off the list. -/
theorem Holds.lower {before rest : List Rule} (formed : g.WellFormed)
    (holds : p.Holds g R (before ++ rule :: rest)) (ready : p.isReady rule = true) :
    (p.lower g rule).Holds g R (before ++ rest) := by
  have tidy := holds.toTidy
  have isPending : rule ∈ before ++ rule :: rest := by simp
  have member : rule ∈ g.rules := Array.mem_toList_iff.mp (holds.sublist.subset isPending)
  have fits := formed.rules rule member
  obtain ⟨after, symbol, lowers⟩ := Progress.lowers (R := R) tidy fits ready (holds.own rule isPending)
  have grows := grows_lower tidy fits lowers
  obtain ⟨M, explains⟩ := holds.explained
  obtain ⟨N, explained, _⟩ := explains_lower formed tidy member ready lowers explains
  refine ⟨tidy_lower formed tidy member lowers, ?_, fun other isOther s found => ?_,
    ⟨N, explained⟩, fun other isRule => ?_,
    uses_lower tidy fits lowers holds.used⟩
  · exact (List.Sublist.append_left (List.sublist_cons_self rule rest) before).trans holds.sublist
  · have alsoPending : other ∈ before ++ rule :: rest := by
      rcases List.mem_append.mp isOther with h | h
      · simp [h]
      · simp [h]
    have unshareable : (p.lower g rule).normal.isUnshareable s = p.normal.isUnshareable s := by
      rw [NormalForm.isUnshareable, lowers.result]
      simp only [(after.bind_numbering _ symbol).2, lowers.realizes.keeps.unshareable]
      rfl
    rw [unshareable]
    rw [symbol?_lower tidy fits lowers] at found
    split at found
    · next same =>
      cases target : p.symbol? rule.lhs with
      | some t =>
        obtain rfl := Option.some.inj found
        rw [lowers.realizes.target t target]
        exact holds.own rule isPending t target
      | none =>
        have two := two_le_of_pending holds.sublist isOther same
        exact absurd (tidy.single rule.lhs target) (Nat.not_le_of_lt two)
    · exact holds.own other alsoPending s found
  · rcases holds.lowered other isRule with isPending | represents
    · by_cases same : other = rule
      · subst same
        exact .inr (represents_lower formed tidy member ready lowers)
      · refine .inl ?_
        rcases List.mem_append.mp isPending with h | h
        · exact List.mem_append_left _ h
        · exact List.mem_append_right _ ((List.mem_cons.mp h).resolve_left same)
    · exact .inr (represents.grows grows)

/-- What taking a ready rule off the list keeps holds after a sweep. The rules `before` are stuck. -/
theorem sweep_induction {P : Progress → List Rule → Prop}
    (step : ∀ p before rule rest, P p (before ++ rule :: rest) → p.isReady rule = true →
      P (p.lower g rule) (before ++ rest))
    {p : Progress} {rules : List Rule} (before : List Rule) (start : P p (before ++ rules)) :
    P (p.sweep g rules).1 (before ++ (p.sweep g rules).2) := by
  induction rules generalizing p before with
  | nil => exact start
  | cons rule rest ih =>
    rw [Progress.sweep]
    split
    · next ready => exact ih before (step p before rule rest start ready)
    · have later := ih (before ++ [rule]) (by simpa using start)
      simpa using later

theorem settle_induction {P : Progress → List Rule → Prop}
    (step : ∀ p before rule rest, P p (before ++ rule :: rest) → p.isReady rule = true →
      P (p.lower g rule) (before ++ rest))
    {p : Progress} {rules : List Rule} (start : P p rules) :
    P (p.settle g rules).1 (p.settle g rules).2 := by
  have swept := sweep_induction step [] start
  rw [List.nil_append] at swept
  rw [Progress.settle]
  generalize p.sweep g rules = result at swept
  obtain ⟨q, stuck⟩ := result
  by_cases shorter : stuck.length < rules.length
  · simp only [shorter, ↓reduceIte]
    exact settle_induction step swept
  · simp only [shorter, ↓reduceIte]
    exact swept
termination_by rules.length

theorem Holds.settle {rules : List Rule} (formed : g.WellFormed) (holds : p.Holds g R rules) :
    (p.settle g rules).1.Holds g R (p.settle g rules).2 :=
  settle_induction (P := fun p rules => p.Holds g R rules)
    (fun _ _ _ _ held ready => held.lower formed ready) holds

end

end Progress

end Grammar

end Phrasebook
