import Phrasebook.Proofs.Grammar.Grounding
import Phrasebook.Proofs.Grammar.Restriction
import Phrasebook.Proofs.Grammar.Storage

namespace Phrasebook

namespace NormalForm

section
variable {n after : NormalForm} {request : Head.Request} {shard : Nat} {b : Body} {h : Head}

/-- What comes before the last production of a rule calls nothing back. -/
theorem Steps.loud {m : NormalForm} (inRange : shard < n.shards.size) (steps : Steps n shard m)
    (has : m.Has b h) (loud : h.callback.isSilent = false) : n.Has b h := by
  induction steps with
  | refl => exact has
  | @step m r earlier free silent c ih =>
    have adds : m.Adds r c (m.addTo r c shard).1 (m.addTo r c shard).2 :=
      addTo_adds ((earlier.since inRange).size ▸ inRange) fun s target => by
        rw [free] at target
        cases target
    rcases adds.new b h has with old | ⟨_, rfl⟩
    · exact ih old
    · rw [Head.Request.head, silent] at loud
      cases loud

/-- A new head that calls something back is that of the rule, and has its symbol. -/
theorem addRule_loud {parts : List Part} {symbol : Symbol} (inRange : shard < n.shards.size)
    (own : ∀ s, request.target = some s → n.isUnshareable s = true) (nonempty : parts ≠ [])
    (added : n.addRule request parts shard = (after, some symbol)) (has : after.Has b h)
    (loud : h.callback.isSilent = false) :
    n.Has b h ∨ (h.callback = request.callback ∧ h.symbol = symbol) := by
  by_cases bare : request.target = none ∧ request.callback.isSilent = true ∧
      ∃ operand, parts = [.symbol operand]
  · obtain ⟨free, silent, operand, rfl⟩ := bare
    rw [addRule_bare free silent] at added
    obtain ⟨rfl, _⟩ := Prod.mk.inj added
    exact .inl has
  · obtain ⟨m, c, steps, result⟩ := addRule_eq_addTo n shard nonempty
      fun free silent operand eq => bare ⟨free, silent, operand, eq⟩
    have since := steps.since inRange
    have adds : m.Adds request c (m.addTo request c shard).1 (m.addTo request c shard).2 := by
      refine addTo_adds (since.size ▸ inRange) fun s target => ?_
      rw [isUnshareable, since.unshareable]
      exact own s target
    rw [result] at added
    obtain ⟨rfl, yielded⟩ := Prod.mk.inj added
    rcases adds.new b h has with old | ⟨_, rfl⟩
    · exact .inl (steps.loud inRange old loud)
    · exact .inr ⟨rfl, Option.some.inj yielded⟩

end

end NormalForm

namespace Grammar

namespace Progress

/-- Names are those of nonterminals that have the symbol, and every symbol that a nonterminal has
shows one. What has several rules shows its own. A head that calls something back has the symbol of a
rule with its callback; only an exclusion adds a symbol to it. -/
structure Bears (g : Grammar) (p : Progress) : Prop where
  borne : ∀ s name, p.normal.nameOf? s = some name →
    ∃ i n, g.nonterminals[i]? = some n ∧ n.name = name ∧ p.symbol? i = some s
  shown : ∀ i s, p.symbol? i = some s → ∃ name, p.normal.nameOf? s = some name ∧
    (1 < (g.alternatives i).length → ∀ n, g.nonterminals[i]? = some n → n.name = name)
  loud : ∀ b h, p.normal.Has b h → h.callback.isSilent = false → ∃ rule ∈ g.rules,
    p.symbol? rule.lhs = some h.symbol ∧ rule.options.callback.id = h.callback.id ∧
      (rule.excluded = none → rule.options.callback = h.callback)

section
variable {g : Grammar} {R : Reading Nat α} {p : Progress} {rule : Rule} {after : NormalForm}
  {symbol : Symbol}

theorem Owned.bears (formed : g.WellFormed) (owned : p.Owned g g.nonterminals.size) :
    p.Bears g := by
  refine ⟨owned.borne, fun i s found => ?_, fun b h has => absurd has (owned.not_has b h)⟩
  have inRange : i < g.nonterminals.size := by
    rcases owned.owner i s found with ⟨n, isNonterminal, _⟩ | ⟨rule, member, rfl⟩
    · exact (Array.getElem?_eq_some_iff.mp isNonterminal).1
    · exact (formed.rules rule member).lhs
  have isNonterminal := Array.getElem?_eq_getElem inRange
  refine ⟨_, owned.shown i _ s isNonterminal found, fun _ n alsoFound => ?_⟩
  rw [Option.some.inj (isNonterminal.symm.trans alsoFound)]

/-- The name of a symbol after its nonterminal's rule has been lowered. -/
theorem nameOf?_lower (formed : g.WellFormed) {n : Nonterminal}
    (found : g.nonterminals[rule.lhs]? = some n) (lowers : p.Lowers g R rule after symbol)
    (s : Symbol) : (p.lower g rule).normal.nameOf? s =
      if s = symbol then some ((p.normal.nameOf? symbol).getD n.name) else p.normal.nameOf? s := by
  have nonempty : n.name ≠ "" := formed.named n (Array.mem_of_getElem? found)
  have same (t : Symbol) : after.nameOf? t = p.normal.nameOf? t := by
    rw [NormalForm.nameOf?, lowers.realizes.keeps.names]
    rfl
  rw [lowers.result, found, Option.map_some, Option.getD_some, NormalForm.bind_nameOf? nonempty,
    same, same]

theorem Bears.lower (formed : g.WellFormed) (tidy : p.Tidy g) (member : rule ∈ g.rules)
    (own : ∀ s, p.symbol? rule.lhs = some s → p.normal.isUnshareable s = true)
    (lowers : p.Lowers g R rule after symbol) (bears : p.Bears g) : (p.lower g rule).Bears g := by
  have fits := formed.rules rule member
  have grows := grows_lower tidy fits lowers
  have symbols := symbol?_lower tidy fits lowers
  obtain ⟨n, found⟩ : ∃ n, g.nonterminals[rule.lhs]? = some n :=
    ⟨_, Array.getElem?_eq_getElem fits.lhs⟩
  have names := nameOf?_lower formed found lowers
  have stays {s : Symbol} {name : String} (isName : p.normal.nameOf? s = some name) :
      (p.lower g rule).normal.nameOf? s = some name := by
    rw [names]
    split
    · next same => rw [← same, isName, Option.getD_some]
    · exact isName
  refine ⟨fun s name isName => ?_, fun i s isSome => ?_, fun b h has loud => ?_⟩
  · have older (isOld : p.normal.nameOf? s = some name) :
        ∃ i n, g.nonterminals[i]? = some n ∧ n.name = name ∧
          (p.lower g rule).symbol? i = some s := by
      obtain ⟨i, m, isNonterminal, same, isSymbol⟩ := bears.borne s name isOld
      exact ⟨i, m, isNonterminal, same, grows.symbols i s isSymbol⟩
    rw [names] at isName
    split at isName
    · next same =>
      subst same
      cases isOld : p.normal.nameOf? s with
      | some other =>
        rw [isOld, Option.getD_some] at isName
        exact older (isOld.trans isName)
      | none =>
        rw [isOld, Option.getD_none] at isName
        exact ⟨rule.lhs, n, found, Option.some.inj isName, by rw [symbols, if_pos rfl]⟩
    · exact older isName
  · cases before : p.symbol? i with
    | some t =>
      obtain rfl := Option.some.inj ((grows.symbols i t before).symm.trans isSome)
      obtain ⟨name, isName, several⟩ := bears.shown i t before
      exact ⟨name, stays isName, several⟩
    | none =>
      rw [symbols, before] at isSome
      split at isSome
      · next here =>
        subst here
        obtain rfl := Option.some.inj isSome
        refine ⟨_, (names symbol).trans (if_pos rfl), fun several => ?_⟩
        exact absurd several (Nat.not_lt.mpr (tidy.single rule.lhs before))
      · cases isSome
  · have isHead : after.Has b h := by
      rw [lowers.result] at has
      exact has
    have inRange : rule.options.shard < p.normal.shards.size := tidy.shards ▸ fits.shard
    rcases NormalForm.addRule_loud inRange own (by simpa using fits.nonempty) lowers.added isHead loud
      with old | ⟨callback, isSymbol⟩
    · obtain ⟨other, isRule, isSymbol, id, callback⟩ := bears.loud b h old loud
      exact ⟨other, isRule, grows.symbols _ _ isSymbol, id, callback⟩
    · refine ⟨rule, member, ?_, ?_, fun none => ?_⟩
      · rw [symbols, if_pos rfl, isSymbol]
      · rw [callback, request_callback_id]
      · rw [callback, request_callback none]

/-- The state of a sweep whose symbols bear names. -/
structure Titled (g : Grammar) (R : Reading Nat α) (pending : List Rule) (p : Progress) : Prop
    extends Holds g R pending p, Bears g p

theorem Titled.lower {before rest : List Rule} (formed : g.WellFormed)
    (titled : p.Titled g R (before ++ rule :: rest)) (ready : p.isReady rule = true) :
    (p.lower g rule).Titled g R (before ++ rest) := by
  have isPending : rule ∈ before ++ rule :: rest := by simp
  have member : rule ∈ g.rules := Array.mem_toList_iff.mp (titled.sublist.subset isPending)
  have own := titled.own rule isPending
  obtain ⟨after, symbol, lowers⟩ := Progress.lowers (R := R) titled.toTidy (formed.rules rule member)
    ready own
  exact ⟨titled.toHolds.lower formed ready, titled.toBears.lower formed titled.toTidy member own lowers⟩

/-- With their names, the symbols of a grammar fit into signed words. -/
theorem Titled.few (titled : p.Titled g R [])
    (fit : (RuleSet.encode p.normal true).length < wordBound) : p.normal.symbolCount < 2 ^ 31 := by
  refine RuleSet.few_of_used fit fun s positive bound => ?_
  rcases titled.used s positive bound with heads | ⟨i, _, isSymbol⟩ | ⟨_, none, _⟩
  · exact .inl heads
  · obtain ⟨name, isName, _⟩ := titled.shown i s isSymbol
    exact .inr (.inr ⟨rfl, by rw [isName]; rfl⟩)
  · cases none

/-- A callback that the matcher meets, other than an exclusion, is that of a rule whose left-hand side
has the symbol of the head. -/
theorem Titled.exists_rule (formed : g.WellFormed) (titled : p.Titled g R []) {setting : Setting}
    (faithful : RuleSet.Faithful p.normal setting.rules)
    (inRange : ∀ i ∈ setting.shards, i < setting.rules.shardCount) {h : Head}
    (isHead : setting.HasHead h) (loud : h.callback.isSilent = false)
    (other : h.callback.id ≠ Builtin.exclusion.id) :
    ∃ rule ∈ g.rules, rule.options.callback = h.callback ∧ p.symbol? rule.lhs = some h.symbol := by
  obtain ⟨b, k, has, rfl⟩ := faithful.exists_of_hasHead inRange isHead
  obtain ⟨rule, member, isSymbol, id, callback⟩ := titled.loud b k has loud
  have none := (formed.rules rule member).excluded_eq_none (id ▸ other)
  exact ⟨rule, member, callback none, isSymbol⟩

/-- The symbol of a nonterminal shows the name of one that has it. -/
theorem Titled.exists_shown (formed : g.WellFormed) (titled : p.Titled g R []) {i : Nat} {s : Symbol}
    (isSymbol : p.symbol? i = some s) :
    ∃ own j shown, g.nonterminals[i]? = some own ∧ g.nonterminals[j]? = some shown ∧
      p.normal.symbol? own.name = some s ∧ p.normal.symbol? shown.name = some s ∧
      p.normal.nameOf? s = some shown.name ∧ (1 < (g.alternatives i).length → j = i) := by
  have inRange : i < g.nonterminals.size := by
    by_contra outside
    rw [symbol?, Array.getD_eq_getD_getElem?,
      Array.getElem?_eq_none (Nat.le_trans (Nat.le_of_eq titled.size) (Nat.not_lt.mp outside))]
      at isSymbol
    cases isSymbol
  have found := Array.getElem?_eq_getElem inRange
  obtain ⟨name, isName, several⟩ := titled.shown i s isSymbol
  obtain ⟨j, shown, alsoFound, rfl, isShown⟩ := titled.borne s name isName
  refine ⟨_, j, shown, found, alsoFound, (titled.named i _ found).trans isSymbol,
    (titled.named j _ alsoFound).trans isShown, isName, fun many => ?_⟩
  exact name_injective formed alsoFound found (several many _ found).symm

end

end Progress

variable {g : Grammar} {n : NormalForm}

/-- When a grammar has a normal form, its symbols bear names. -/
theorem normalize_titled (built : g.Built) (normal : g.normalize = .ok n) (R : Reading Nat α) :
    ∃ p : Progress, p.normal = n ∧ p.Titled g R [] := by
  have formed := built.wellFormed
  obtain ⟨p, owned, isNormal, none, _⟩ := normalize_eq_ok built normal
  have start : p.Titled g R g.rules.toList := ⟨owned.holds formed, owned.bears formed⟩
  have settled := Progress.settle_induction (P := fun p rules => p.Titled g R rules)
    (fun _ _ _ _ titled ready => titled.lower formed ready) start
  rw [none] at settled
  exact ⟨_, isNormal, settled⟩

/-- A grammar that can be compiled with its names has few symbols. -/
theorem symbolCount_lt {rules : RuleSet} (built : g.Built) (normal : g.normalize = .ok n)
    (compiled : g.compile true = .ok rules) (fit : rules.buffer.size < wordBound) :
    n.symbolCount < 2 ^ 31 := by
  obtain ⟨p, rfl, titled⟩ := normalize_titled built normal Leaf.reading
  obtain ⟨_, normal', isCompiled⟩ := compile_eq_ok compiled
  obtain rfl := Except.ok.inj (normal.symm.trans normal')
  refine titled.few ?_
  rwa [(RuleSet.ofBytes_eq_ok.mp isCompiled).1, List.size_toArray] at fit

/-- Nonterminals with one symbol generate the same. -/
theorem generates_congr (built : g.Built) (normal : g.normalize = .ok n) {i j : Nat}
    {m k : Nonterminal} (first : g.nonterminals[i]? = some m) (second : g.nonterminals[j]? = some k)
    {s : Symbol} (isFirst : n.symbol? m.name = some s) (isSecond : n.symbol? k.name = some s)
    (R : Reading Nat α) (w : List α) : g.Generates R i w ↔ g.Generates R j w := by
  obtain ⟨p, rfl, holds, _⟩ := normalize_holds built normal R
  have here := (holds.named i m first).symm.trans isFirst
  have there := (holds.named j k second).symm.trans isSecond
  exact (holds.generates_iff here w).trans (holds.generates_iff there w).symm

end Grammar

end Phrasebook
