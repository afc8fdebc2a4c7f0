import Phrasebook.Proofs.Grammar.Declaring
import Phrasebook.Proofs.Grammar.Renaming
import Phrasebook.Proofs.Grammar.Storage
import Phrasebook.Proofs.RuleSet.Listing

namespace Phrasebook.Grammar

/-- The label that a declaration binds to the name. -/
def Declaration.label? (name : String) : Declaration → Option String
  | .label tag other => if other = name then some tag else none
  | _ => none

/-- The label that was bound to the name last. -/
def lastLabel (ds : List Declaration) (name : String) : Option String :=
  ds.reverse.findSome? (·.label? name)

theorem lastLabel_append (ds : List Declaration) (d : Declaration) (name : String) :
    lastLabel (ds ++ [d]) name = (d.label? name).or (lastLabel ds name) := by
  rw [lastLabel, List.reverse_append, List.reverse_singleton, List.singleton_append,
    List.findSome?_cons]
  cases d.label? name <;> rfl

/-- The grammar after all the declarations, whichever of them succeed. -/
def declared (shards : List (List Locale)) (ds : List Declaration) : Grammar :=
  ds.foldl after (ofShards shards)

theorem declared_append (shards : List (List Locale)) (ds : List Declaration) (d : Declaration) :
    declared shards (ds ++ [d]) = (declared shards ds).after d := by
  rw [declared, List.foldl_append]
  rfl

theorem built_declared (shards : List (List Locale)) (ds : List Declaration) :
    (declared shards ds).Built := by
  induction ds using List.reverseRecOn with
  | nil => exact .ofShards shards
  | append_singleton ds d ih =>
    rw [declared_append]
    exact ih.after d

theorem Calls.unique {g : Grammar} {i j : Nat} {name : String} (calls : g.Calls i name)
    (formed : g.WellFormed) (calls' : g.Calls j name) : i = j := by
  obtain ⟨m, found, isName⟩ := Option.map_eq_some_iff.mp calls
  obtain ⟨n, found', isName'⟩ := Option.map_eq_some_iff.mp calls'
  exact Progress.name_injective formed found found' (isName.trans isName'.symm)

/-- Nonterminals without labels have been added. -/
def Widens (g h : Grammar) : Prop :=
  ∃ added, h.nonterminals.toList = g.nonterminals.toList ++ added ∧ ∀ n ∈ added, n.label = none

theorem Widens.refl (g : Grammar) : g.Widens g := ⟨[], by simp, by simp⟩

theorem Widens.trans {g h k : Grammar} (first : g.Widens h) (second : h.Widens k) : g.Widens k := by
  obtain ⟨some, eq, bare⟩ := first
  obtain ⟨more, eq', bare'⟩ := second
  refine ⟨some ++ more, by rw [eq', eq, List.append_assoc], fun n member => ?_⟩
  exact (List.mem_append.mp member).elim (bare n) (bare' n)

theorem Registers.widens {g h : Grammar} (registers : g.Registers h) : g.Widens h := by
  obtain ⟨added, grown, fresh⟩ := registers.nonterminals
  exact ⟨added, grown, fun n member => (fresh n member).1⟩

theorem addRule_widens {g : Grammar} (named : g.Named) (lhs : String) (rhs : List String)
    (options : RuleOptions) (excluded : Option Nat) :
    Ends (addRule lhs rhs options excluded) g (fun _ => g.Widens) g.Widens :=
  (addRule_ends named lhs rhs options excluded).weaken
    (fun _ h ends => (ends.2.registers.widens : g.Widens { h with rules := g.rules, lists := g.lists }))
    fun _ ends => ends.1.widens

/-- Only the declaration of a label labels nonterminals. -/
theorem declare_widens {g : Grammar} (named : g.Named) {d : Declaration}
    (other : ∀ tag name, d ≠ .label tag name) :
    Ends d.declare g (fun _ => g.Widens) g.Widens := by
  cases d with
  | nonterminal name =>
    exact (nonterminal_ends named name).bind (fun _ ends => ends.1.widens) fun _ _ ends =>
      .returns ends.1.widens
  | filter callback =>
    refine .check (fun _ => .refl g) fun _ => Ends.changes.weaken ?_ fun _ => id
    rintro _ _ rfl
    exact Widens.refl g
  | label tag name => exact absurd rfl (other tag name)
  | rule lhs rhs options => exact addRule_widens named lhs rhs options none
  | assertion lhs rhs negative options => exact addRule_widens named lhs rhs _ none
  | mapping lhs rhs value options => exact addRule_widens named lhs rhs _ none
  | typed lhs rhs tag options => exact addRule_widens named lhs rhs _ none
  | exclusion lhs rhs excluded options =>
    refine (nonterminal_ends named excluded).bind (fun _ ends => ends.1.widens) fun i h ends => ?_
    exact (addRule_widens (ends.1.named named) lhs rhs _ (some i)).weaken
      (fun _ _ => ends.1.widens.trans) fun _ => ends.1.widens.trans

theorem after_widens {g : Grammar} (named : g.Named) {d : Declaration}
    (other : ∀ tag name, d ≠ .label tag name) : g.Widens (g.after d) :=
  (declare_widens named other).after

/-- Binding a label is declaring the nonterminal and then labelling it. -/
theorem after_label {g : Grammar} (named : g.Named) (tag name : String) :
    (¬ IsName name ∧ g.after (.label tag name) = g.after (.nonterminal name)) ∨
      ∃ i, IsName name ∧ (g.after (.nonterminal name)).Calls i name ∧
        g.after (.label tag name) = { g.after (.nonterminal name) with
          nonterminals :=
            (g.after (.nonterminal name)).nonterminals.modify i ({ · with label := some tag }) } := by
  have ends := nonterminal_ends named name
  unfold Ends at ends
  have bound : g.after (.label tag name) = match nonterminal name g with
      | .ok i h =>
        { h with nonterminals := h.nonterminals.modify i ({ · with label := some tag }) }
      | .error _ h => h := by
    simp only [after, Declaration.declare, bindLabel, EStateM.run, bind, EStateM.bind]
    cases nonterminal name g <;> rfl
  have declares : g.after (.nonterminal name) = match nonterminal name g with
      | .ok _ h => h
      | .error _ h => h := by
    have run : (Declaration.nonterminal name).declare.run g =
        (nonterminal name >>= fun _ => pure ()) g := rfl
    simp only [after, run, bind, EStateM.bind]
    cases nonterminal name g <;> rfl
  rw [bound, declares]
  cases result : nonterminal name g with
  | ok i h =>
    rw [result] at ends
    exact .inr ⟨i, ends.2.2, ends.2.1, rfl⟩
  | error e h =>
    rw [result] at ends
    exact .inl ⟨ends.2, rfl⟩

/-- The nonterminals have the labels that are expected of them. -/
structure Wears (g : Grammar) (label? : String → Option String) : Prop where
  labels : ∀ n ∈ g.nonterminals, n.label = label? n.name
  known : ∀ name, IsName name → (label? name).isSome = true → ∃ n ∈ g.nonterminals, n.name = name

namespace Wears

variable {g h : Grammar} {label? : String → Option String}

theorem congr {other : String → Option String} (wears : g.Wears label?)
    (same : ∀ name, IsName name → other name = label? name) (named : g.Named) : g.Wears other := by
  refine ⟨fun n member => ?_, fun name isName isSome => ?_⟩
  · rw [same _ (named n member)]
    exact wears.labels n member
  · rw [same name isName] at isSome
    exact wears.known name isName isSome

theorem widens (wears : g.Wears label?) (widens : g.Widens h) (formed : h.WellFormed) (named : h.Named) :
    h.Wears label? := by
  obtain ⟨added, grown, bare⟩ := widens
  have member_iff (n : Nonterminal) : n ∈ h.nonterminals ↔ n ∈ g.nonterminals ∨ n ∈ added := by
    rw [← Array.mem_toList_iff, grown, List.mem_append, Array.mem_toList_iff]
  refine ⟨fun n member => ?_, fun name isName isSome => ?_⟩
  · rcases (member_iff n).mp member with old | new
    · exact wears.labels n old
    · rw [bare n new]
      by_contra expected
      obtain ⟨m, isOld, same⟩ := wears.known n.name (named n member)
        (Option.isSome_iff_ne_none.mpr (Ne.symm expected))
      have distinct := formed.distinct
      rw [grown, List.map_append] at distinct
      exact List.disjoint_of_nodup_append distinct
        (List.mem_map.mpr ⟨m, Array.mem_toList_iff.mpr isOld, same⟩) (List.mem_map_of_mem new)
  · obtain ⟨n, isOld, same⟩ := wears.known name isName isSome
    exact ⟨n, (member_iff n).mpr (.inl isOld), same⟩

/-- Labelling one nonterminal. -/
theorem modify (wears : g.Wears label?) (formed : g.WellFormed) {i : Nat} {tag name : String}
    (calls : g.Calls i name) :
    Wears { g with nonterminals := g.nonterminals.modify i ({ · with label := some tag }) } fun other =>
      ((Declaration.label tag name).label? other).or (label? other) := by
  obtain ⟨m, isNamed, rfl⟩ := Option.map_eq_some_iff.mp calls
  refine ⟨fun n member => ?_, fun other isName isSome => ?_⟩
  · obtain ⟨j, found⟩ := Array.mem_iff_getElem?.mp member
    rw [Array.getElem?_modify] at found
    split at found
    · next here =>
      rw [← here, isNamed] at found
      obtain rfl := Option.some.inj found
      simp [Declaration.label?]
    · next elsewhere =>
      have differs : m.name ≠ n.name := fun same =>
        elsewhere (Progress.name_injective formed isNamed found same)
      rw [Declaration.label?, if_neg differs]
      exact wears.labels n (Array.mem_of_getElem? found)
  · have stays (n : Nonterminal) (isOld : n ∈ g.nonterminals) :
        ∃ k ∈ g.nonterminals.modify i ({ · with label := some tag }), k.name = n.name := by
      obtain ⟨j, found⟩ := Array.mem_iff_getElem?.mp isOld
      have changed : (g.nonterminals.modify i ({ · with label := some tag }))[j]? =
          some (if i = j then { n with label := some tag } else n) := by
        rw [Array.getElem?_modify, found]
        split <;> rfl
      exact ⟨_, Array.mem_of_getElem? changed, by split <;> rfl⟩
    by_cases same : m.name = other
    · exact same ▸ stays m (Array.mem_of_getElem? isNamed)
    · rw [Declaration.label?, if_neg same, Option.none_or] at isSome
      obtain ⟨n, isOld, rfl⟩ := wears.known other isName isSome
      exact stays n isOld

/-- After one more declaration, its label comes before the labels so far. -/
theorem after (wears : g.Wears label?) (built : g.Built) (d : Declaration) :
    (g.after d).Wears fun name => (d.label? name).or (label? name) := by
  have widened {d : Declaration} (other : ∀ tag name, d ≠ .label tag name) :
      (g.after d).Wears label? :=
    wears.widens (after_widens built.named other) (built.after d).wellFormed (built.after d).named
  cases d with
  | label tag name =>
    have plain := widened (d := .nonterminal name) nofun
    rcases after_label built.named tag name with ⟨notName, same⟩ | ⟨i, _, calls, same⟩
    · rw [same]
      refine plain.congr (fun other isName => ?_) (built.after _).named
      rw [Declaration.label?, if_neg fun eq : name = other => notName (eq ▸ isName), Option.none_or]
    · rw [same]
      exact plain.modify (built.after _).wellFormed calls
  | _ => exact widened nofun

end Wears

/-- Every nonterminal has the label that was bound to its name last. -/
theorem wears_lastLabel (shards : List (List Locale)) (ds : List Declaration) :
    (declared shards ds).Wears (lastLabel ds) := by
  induction ds using List.reverseRecOn with
  | nil => exact ⟨by simp [declared, ofShards], fun name _ isSome => by cases isSome⟩
  | append_singleton ds d ih =>
    rw [declared_append, funext (lastLabel_append ds d)]
    exact ih.after (built_declared shards ds) d

/-- The nonterminal stands for spans with the label. Structural ones stand for something else. -/
def Labelled (g : Grammar) (i : Nat) (tag : String) : Prop :=
  ∃ m, g.nonterminals[i]? = some m ∧ Structural.ofName? m.name = none ∧ m.label = some tag

/-- It is the last such of the first `k`. -/
def LastLabelled (g : Grammar) (k : Nat) (tag : String) (i : Nat) : Prop :=
  i < k ∧ g.Labelled i tag ∧ ∀ j, i < j → j < k → ¬ g.Labelled j tag

theorem Labelled.isGiven {g : Grammar} {i : Nat} {tag : String} (labelled : g.Labelled i tag) :
    g.IsGiven i := by
  obtain ⟨m, found, _, isLabel⟩ := labelled
  exact ⟨m, found, .inr (by rw [isLabel]; rfl)⟩

namespace Progress

/-- The labels stand for the last nonterminals bound to them among the first `k`. -/
structure Labels (g : Grammar) (k : Nat) (p : Progress) : Prop where
  last : ∀ tag i, g.LastLabelled k tag i → p.normal.labels[tag]? = p.symbol? i
  unused : ∀ tag : String, (∀ i < k, ¬ g.Labelled i tag) → p.normal.labels[tag]? = none

section
variable {g : Grammar} {p q : Progress} {k : Nat}

theorem Labels.congr (holds : p.Labels g k) (labels : q.normal.labels = p.normal.labels)
    (symbols : ∀ i < k, g.IsGiven i → q.symbol? i = p.symbol? i) : q.Labels g k := by
  refine ⟨fun tag i last => ?_, fun tag none => ?_⟩
  · rw [labels, symbols i last.1 last.2.1.isGiven]
    exact holds.last tag i last
  · rw [labels]
    exact holds.unused tag none

/-- A nonterminal that stands for no label changes nothing. -/
theorem Labels.skip (holds : p.Labels g k) (other : ∀ tag, ¬ g.Labelled k tag) : p.Labels g (k + 1) := by
  refine ⟨?_, fun tag none => holds.unused tag fun i lt => none i (Nat.lt_succ_of_lt lt)⟩
  rintro tag i ⟨lt, labelled, last⟩
  refine holds.last tag i ⟨?_, labelled, fun j after before => ?_⟩
  · refine (Nat.lt_succ_iff_lt_or_eq.mp lt).resolve_right ?_
    rintro rfl
    exact other tag labelled
  · exact last j after (Nat.lt_succ_of_lt before)

/-- A nonterminal takes over its label. -/
theorem Labels.bind {tag : String} {s : Symbol} (holds : p.Labels g k) (labelled : g.Labelled k tag)
    (labels : q.normal.labels = p.normal.labels.insert tag s) (symbol : q.symbol? k = some s)
    (symbols : ∀ i < k, q.symbol? i = p.symbol? i) : q.Labels g (k + 1) := by
  have only {other : String} (isLabelled : g.Labelled k other) : other = tag := by
    obtain ⟨m, found, _, isLabel⟩ := labelled
    obtain ⟨m', found', _, isLabel'⟩ := isLabelled
    obtain rfl := Option.some.inj (found.symm.trans found')
    exact Option.some.inj (isLabel'.symm.trans isLabel)
  refine ⟨?_, fun other none => ?_⟩
  · rintro other i ⟨lt, isLabelled, last⟩
    rw [labels, getElem?_insert_eq]
    rcases Nat.lt_succ_iff_lt_or_eq.mp lt with lt | rfl
    · have differs : other ≠ tag := by
        rintro rfl
        exact last k lt (Nat.lt_succ_self k) labelled
      rw [if_neg differs, symbols i lt]
      exact holds.last other i ⟨lt, isLabelled, fun j after before =>
        last j after (Nat.lt_succ_of_lt before)⟩
    · rw [if_pos (only isLabelled), symbol]
  · rw [labels, getElem?_insert_eq, if_neg]
    · exact holds.unused other fun i lt => none i (Nat.lt_succ_of_lt lt)
    · rintro rfl
      exact none k (Nat.lt_succ_self k) labelled

theorem Labels.initial (g : Grammar) : (Progress.initial g).Labels g 0 :=
  ⟨fun _ _ last => absurd last.1 (Nat.not_lt_zero _),
    fun tag _ => by simp [Progress.initial, NormalForm.ofShards]⟩

theorem Labels.assignGiven {n : Nonterminal} (holds : p.Labels g k)
    (size : p.symbols.size = g.nonterminals.size) (found : g.nonterminals[k]? = some n)
    (step : p.assignGiven g k n = .ok q) : q.Labels g (k + 1) := by
  have inRange : k < p.symbols.size := size ▸ (Array.getElem?_eq_some_iff.mp found).1
  have symbol := symbol?_assign (p := p) n.name inRange k
  rw [if_pos rfl] at symbol
  have symbols (i : Nat) (lt : i < k) : (p.assign k n.name).1.symbol? i = p.symbol? i := by
    rw [symbol?_assign n.name inRange, if_neg (Nat.ne_of_lt lt)]
  have labelled_iff (tag : String) :
      g.Labelled k tag ↔ Structural.ofName? n.name = none ∧ n.label = some tag := by
    simp [Labelled, found]
  rcases assignGiven_cases step with ⟨kind, isStructural, _, rfl⟩ |
    ⟨label, isStructural, isLabel, _, rfl⟩ | ⟨_, isLabel, rfl⟩
  · have other (tag : String) : ¬ g.Labelled k tag := by simp [labelled_iff, isStructural]
    exact Labels.skip (holds.congr rfl fun i lt _ => symbols i lt) other
  · exact holds.bind ((labelled_iff label).mpr ⟨isStructural, isLabel⟩) rfl symbol symbols
  · exact holds.skip fun tag => by simp [labelled_iff, isLabel]

theorem Labels.assignOwn {n : Nonterminal} (listed : g.Listed)
    (holds : p.Labels g g.nonterminals.size) (owned : p.Owned g k)
    (found : g.nonterminals[k]? = some n) (step : p.assignOwn g k n = .ok q) :
    q.Labels g g.nonterminals.size := by
  rcases assignOwn_cases listed step with ⟨rfl, _⟩ | ⟨rfl, isNone, _⟩
  · exact holds
  · have inRange : k < p.symbols.size := owned.size ▸ (Array.getElem?_eq_some_iff.mp found).1
    refine holds.congr rfl fun i _ isGiven => ?_
    rw [symbol?_assign n.name inRange, if_neg]
    rintro rfl
    have isSome := owned.given i isGiven
    rw [isNone] at isSome
    cases isSome

theorem Labels.lower {R : Reading Nat α} {before rest : List Rule} {rule : Rule}
    (formed : g.WellFormed) (labels : p.Labels g g.nonterminals.size)
    (holds : p.Holds g R (before ++ rule :: rest)) (ready : p.isReady rule = true) :
    (p.lower g rule).Labels g g.nonterminals.size := by
  have isPending : rule ∈ before ++ rule :: rest := by simp
  have fits := formed.rules rule (Array.mem_toList_iff.mp (holds.sublist.subset isPending))
  obtain ⟨after, symbol, lowers⟩ :=
    lowers (R := R) holds.toTidy fits ready (holds.own rule isPending)
  refine labels.congr (congrArg NormalForm.Frame.labels lowers.frame) fun i _ isGiven => ?_
  obtain ⟨s, isSymbol, _⟩ := holds.given i isGiven
  rw [isSymbol, (grows_lower holds.toTidy fits lowers).symbols i s isSymbol]

end

end Progress

section
variable {g : Grammar} {n : NormalForm}

/-- The labels of a normal form stand for the last nonterminals that were bound to them. -/
theorem normalize_labels (built : g.Built) (normal : g.normalize = .ok n) :
    ∃ p : Progress, p.normal = n ∧ p.Holds g Leaf.reading [] ∧ p.Labels g g.nonterminals.size := by
  have formed := built.consistent
  obtain ⟨p₁, p₂, first, second, isNormal, none⟩ := normalize_rounds normal
  have given : p₁.Given g g.nonterminals.size ∧ p₁.Labels g g.nonterminals.size :=
    Progress.eachNonterminal_induction (fun k p => p.Given g k ∧ p.Labels g k) first
      ⟨.initial g, .initial g⟩ fun k m p q found holds step =>
        ⟨holds.1.step formed found step, holds.2.assignGiven holds.1.size found step⟩
  have owned : p₂.Owned g g.nonterminals.size ∧ p₂.Labels g g.nonterminals.size :=
    Progress.eachNonterminal_induction
      (fun k p => p.Owned g k ∧ p.Labels g g.nonterminals.size) second
      ⟨given.1.owned, given.2⟩ fun k m p q found holds step =>
        ⟨holds.1.step formed found step, holds.2.assignOwn formed.toListed holds.1 found step⟩
  have settled := Progress.settle_induction
    (P := fun p rules => p.Holds g Leaf.reading rules ∧ p.Labels g g.nonterminals.size)
    (fun _ _ _ _ holds ready =>
      have wellFormed := formed.toWellFormed
      ⟨holds.1.lower wellFormed ready, holds.2.lower wellFormed holds.1 ready⟩)
    ⟨owned.1.holds formed.toWellFormed, owned.2⟩
  rw [none] at settled
  exact ⟨_, isNormal, settled⟩

/-- A compiled grammar finds labels as its normal form has them, if none of them has a NUL. -/
theorem label?_of_compile {withNames : Bool} {r : RuleSet} (built : g.Built)
    (normal : g.normalize = .ok n) (compiled : g.compile withNames = .ok r)
    (few : n.symbolCount < 2 ^ 31) (fit : r.buffer.size < wordBound)
    (clean : ∀ tag ∈ n.labels, NulFree tag) (tag : String) : r.label? tag = n.labels[tag]? := by
  obtain ⟨p, rfl, holds, _⟩ := normalize_holds built normal Leaf.reading
  obtain ⟨n, normal', isCompiled⟩ := compile_eq_ok compiled
  obtain rfl := Except.ok.inj (normal.symm.trans normal')
  refine (RuleSet.Compiled.of_compile isCompiled fit holds.bounded few fun s =>
    holds.slot_le).label?_eq (fun name s isLabel => ⟨clean name ?_, holds.labels_le name s isLabel⟩) tag
  rw [Std.TreeMap.mem_iff_isSome_getElem?, isLabel]
  rfl

end

/-- Of the labels bound to a nonterminal that is not structural, the compiled grammar knows the last
one. It stands for the symbol of the nonterminal, unless another one that was declared later has the
same label. Whatever is no such label stands for nothing. -/
theorem label?_declared {shards : List (List Locale)} {ds : List Declaration} {n : NormalForm}
    {withNames : Bool} {r : RuleSet} (normal : (declared shards ds).normalize = .ok n)
    (compiled : (declared shards ds).compile withNames = .ok r) (few : n.symbolCount < 2 ^ 31)
    (fit : r.buffer.size < wordBound)
    (clean : ∀ name tag, IsName name → Structural.ofName? name = none →
      lastLabel ds name = some tag → NulFree tag) :
    (∀ name tag, IsName name → Structural.ofName? name = none → lastLabel ds name = some tag →
      ∃ i, (declared shards ds).Calls i name ∧
        ((∀ j other, i < j → (declared shards ds).Calls j other → Structural.ofName? other = none →
          lastLabel ds other ≠ some tag) → ∃ s, n.symbol? name = some s ∧ r.label? tag = some s)) ∧
    ∀ tag, (∀ name, IsName name → Structural.ofName? name = none → lastLabel ds name ≠ some tag) →
      r.label? tag = none := by
  have built := built_declared shards ds
  have wears := wears_lastLabel shards ds
  generalize declared shards ds = g at *
  obtain ⟨p, rfl, holds, labels⟩ := normalize_labels built normal
  have bare (tag : String) (unbound : ∀ name, IsName name → Structural.ofName? name = none →
      lastLabel ds name ≠ some tag) : p.normal.labels[tag]? = none := by
    refine labels.unused tag fun i _ labelled => ?_
    obtain ⟨m, found, plain, isTag⟩ := labelled
    have member := Array.mem_of_getElem? found
    exact unbound m.name (built.named m member) plain ((wears.labels m member).symm.trans isTag)
  have reads : ∀ tag, r.label? tag = p.normal.labels[tag]? := by
    refine label?_of_compile built normal compiled few fit fun tag isLabel => ?_
    by_contra dirty
    have none := bare tag fun name isName plain isLast => dirty (clean name tag isName plain isLast)
    rw [Std.TreeMap.mem_iff_isSome_getElem?, none] at isLabel
    cases isLabel
  refine ⟨fun name tag isName plain isLast => ?_, fun tag unbound => ?rest⟩
  case rest => exact (reads tag).trans (bare tag unbound)
  obtain ⟨m, member, rfl⟩ := wears.known name isName (by rw [isLast]; rfl)
  obtain ⟨i, found⟩ := Array.mem_iff_getElem?.mp member
  have labelled : g.Labelled i tag := ⟨m, found, plain, (wears.labels m member).trans isLast⟩
  refine ⟨i, by rw [Calls, found]; rfl, fun later => ?_⟩
  have last : g.LastLabelled g.nonterminals.size tag i := by
    refine ⟨(Array.getElem?_eq_some_iff.mp found).1, labelled, fun j after _ isLabelled => ?_⟩
    obtain ⟨other, found', plain', isTag⟩ := isLabelled
    refine later j other.name after (by rw [Calls, found']; rfl) plain' ?_
    exact (wears.labels other (Array.mem_of_getElem? found')).symm.trans isTag
  obtain ⟨s, isSymbol, _⟩ := holds.given i labelled.isGiven
  exact ⟨s, (holds.named i m found).trans isSymbol,
    (reads tag).trans ((labels.last tag i last).trans isSymbol)⟩

/-- What can be stored compiles. -/
theorem compile_of_fitsStorage {g : Grammar} {withNames : Bool} (built : g.Built)
    (fits : g.fitsStorage withNames = true) :
    ∃ n r, g.normalize = .ok n ∧ g.compile withNames = .ok r ∧ n.symbolCount < 2 ^ 31 ∧
      (∀ tag ∈ n.labels, NulFree tag) ∧ r.buffer.size < wordBound := by
  unfold fitsStorage at fits
  split at fits
  · next n normal =>
    simp only [Bool.and_eq_true, decide_eq_true_eq, List.all_eq_true, Bool.not_eq_true'] at fits
    obtain ⟨⟨few, clean⟩, fit⟩ := fits
    have clean' : ∀ tag ∈ n.labels, NulFree tag := fun tag member => by
      simpa [NulFree] using clean tag (Std.TreeMap.mem_keys.mpr member)
    obtain ⟨p, rfl, holds, _⟩ := normalize_holds built normal Leaf.reading
    obtain ⟨r, isCompiled, encoded⟩ := RuleSet.exists_compiled holds.bounded few
      (fun s => holds.slot_le) (holds.legible built.wellFormed clean') fit
    exact ⟨p.normal, r, normal, compile_of_normalize normal isCompiled, few, clean', encoded.fit⟩
  · cases fits

/-- A nonterminal that is bound to two labels, one after the other. -/
def twiceBound : List Declaration :=
  [.label "a" "<1>", .label "b" "<1>", .rule "<2>" ["<1>"] (.root 7)]

theorem declared_twiceBound : declared [] twiceBound =
    { shards := [[]]
      nonterminals := #[⟨"<1>", some "b"⟩, ⟨"<2>", none⟩]
      rules := #[⟨1, [.reference 0], .root 7, none⟩]
      lists := #[[], [0]] } := by
  unfold declared twiceBound after Declaration.declare add addRule
  rw [distinct_eq_eraseDups]
  with_unfolding_all rfl

theorem twiceBound_fitsStorage : (declared [] twiceBound).fitsStorage true = true := by
  rw [declared_twiceBound]
  unfold fitsStorage
  rw [RuleSet.encode_eq_listed]
  decide +kernel

theorem label?_declared_twiceBound : ∃ n r s, (declared [] twiceBound).normalize = .ok n ∧
    (declared [] twiceBound).compile true = .ok r ∧ n.symbol? "<1>" = some s ∧
    r.label? "b" = some s ∧ r.label? "c" = none := by
  obtain ⟨n, r, normal, compiled, few, _, fit⟩ :=
    compile_of_fitsStorage (built_declared _ _) twiceBound_fitsStorage
  have cases (name : String) : lastLabel twiceBound name = if "<1>" = name then some "b" else none := by
    by_cases same : "<1>" = name
    · simp [lastLabel, twiceBound, Declaration.label?, same]
    · simp [lastLabel, twiceBound, Declaration.label?, same]
  obtain ⟨bound, unbound⟩ := label?_declared normal compiled few fit fun name tag _ _ isLast => by
    rw [cases] at isLast
    split at isLast
    · obtain rfl := Option.some.inj isLast
      unfold NulFree
      decide
    · cases isLast
  have isName : IsName "<1>" := isName_toList.mp (by decide)
  obtain ⟨i, here, stands⟩ := bound "<1>" "b" isName (by decide +kernel) (by rw [cases, if_pos rfl])
  obtain ⟨s, isSymbol, isLabel⟩ := stands fun j other after calls _ isLast => by
    rw [cases] at isLast
    split at isLast
    · next same =>
      have formed := (built_declared [] twiceBound).wellFormed
      exact absurd (here.unique formed (same ▸ calls)) (Nat.ne_of_lt after)
    · cases isLast
  exact ⟨n, r, s, normal, compiled, isSymbol, isLabel, unbound "c" fun name _ _ => by
    rw [cases]
    split <;> simp⟩

/-- What can be stored compiles, and finds the labels of its normal form. -/
theorem exists_labels {g : Grammar} (built : g.Built) (fits : g.fitsStorage true = true) :
    ∃ n r, g.normalize = .ok n ∧ g.compile true = .ok r ∧ ∀ tag, r.label? tag = n.labels[tag]? := by
  obtain ⟨n, r, normal, compiled, few, clean, fit⟩ := compile_of_fitsStorage built fits
  exact ⟨n, r, normal, compiled, label?_of_compile built normal compiled few fit clean⟩

/-- A label is lost when its nonterminal is bound to another one. -/
theorem twiceBound_loses : (ofShards []).accepts (.label "a" "<1>") = true ∧
    ∃ n r, (declared [] twiceBound).normalize = .ok n ∧ (declared [] twiceBound).compile true = .ok r ∧
      n.symbol? "<1>" = some 1 ∧ r.label? "a" = none ∧ r.label? "b" = some 1 := by
  obtain ⟨n, r, normal, compiled, reads⟩ :=
    exists_labels (built_declared _ _) twiceBound_fitsStorage
  have accepted : (ofShards []).accepts (.label "a" "<1>") = true := by decide +kernel
  have found : (declared [] twiceBound).normalize.map
      (fun n => (n.symbol? "<1>", n.labels["a"]?, n.labels["b"]?)) = .ok (some 1, none, some 1) := by
    rw [declared_twiceBound]
    with_unfolding_all rfl
  rw [normal] at found
  obtain ⟨isSymbol, labels⟩ := Prod.mk.inj (Except.ok.inj found)
  obtain ⟨lost, kept⟩ := Prod.mk.inj labels
  exact ⟨accepted, n, r, normal, compiled, isSymbol, (reads "a").trans lost, (reads "b").trans kept⟩

/-- Two nonterminals that are bound to one label. -/
def sharedLabel : List Declaration :=
  [.label "a" "<1>", .label "a" "<2>", .rule "<3>" ["<1>", "<2>"] (.root 7)]

theorem declared_sharedLabel : declared [] sharedLabel =
    { shards := [[]]
      nonterminals := #[⟨"<1>", some "a"⟩, ⟨"<2>", some "a"⟩, ⟨"<3>", none⟩]
      rules := #[⟨2, [.reference 0, .reference 1], .root 7, none⟩]
      lists := #[[], [], [0]] } := by
  unfold declared sharedLabel after Declaration.declare add addRule
  rw [distinct_eq_eraseDups]
  with_unfolding_all rfl

/-- A label is lost when another nonterminal is bound to it. -/
theorem sharedLabel_loses :
    ((ofShards []).after (.label "a" "<1>")).accepts (.label "a" "<2>") = true ∧
    ∃ n r, (declared [] sharedLabel).normalize = .ok n ∧
      (declared [] sharedLabel).compile true = .ok r ∧ n.symbol? "<1>" = some 1 ∧
      n.symbol? "<2>" = some 2 ∧ r.label? "a" = some 2 := by
  have fits : (declared [] sharedLabel).fitsStorage true = true := by
    rw [declared_sharedLabel]
    unfold fitsStorage
    rw [RuleSet.encode_eq_listed]
    decide +kernel
  obtain ⟨n, r, normal, compiled, reads⟩ := exists_labels (built_declared _ _) fits
  have accepted : ((ofShards []).after (.label "a" "<1>")).accepts (.label "a" "<2>") = true := by
    decide +kernel
  have found : (declared [] sharedLabel).normalize.map
      (fun n => (n.symbol? "<1>", n.symbol? "<2>", n.labels["a"]?)) =
        .ok (some 1, some 2, some 2) := by
    rw [declared_sharedLabel]
    with_unfolding_all rfl
  rw [normal] at found
  obtain ⟨isFirst, others⟩ := Prod.mk.inj (Except.ok.inj found)
  obtain ⟨isSecond, isLabel⟩ := Prod.mk.inj others
  exact ⟨accepted, n, r, normal, compiled, isFirst, isSecond, (reads "a").trans isLabel⟩

/-- A structural nonterminal that is bound to a label. -/
def structuralLabel : List Declaration :=
  [.label "a" "<digits>", .rule "<1>" ["<digits>"] (.root 7)]

theorem declared_structuralLabel : declared [] structuralLabel =
    { shards := [[]]
      nonterminals := #[⟨"<digits>", some "a"⟩, ⟨"<1>", none⟩]
      rules := #[⟨1, [.reference 0], .root 7, none⟩]
      lists := #[[], [0]] } := by
  unfold declared structuralLabel after Declaration.declare add addRule
  rw [distinct_eq_eraseDups]
  with_unfolding_all rfl

/-- A label is lost when it is bound to a structural nonterminal. -/
theorem structuralLabel_loses : (ofShards []).accepts (.label "a" "<digits>") = true ∧
    ∃ n r, (declared [] structuralLabel).normalize = .ok n ∧
      (declared [] structuralLabel).compile true = .ok r ∧ n.symbol? "<digits>" = some 1 ∧
      r.label? "a" = none := by
  have fits : (declared [] structuralLabel).fitsStorage true = true := by
    rw [declared_structuralLabel]
    unfold fitsStorage
    rw [RuleSet.encode_eq_listed]
    decide +kernel
  obtain ⟨n, r, normal, compiled, reads⟩ := exists_labels (built_declared _ _) fits
  have accepted : (ofShards []).accepts (.label "a" "<digits>") = true := by decide +kernel
  have found : (declared [] structuralLabel).normalize.map
      (fun n => (n.symbol? "<digits>", n.labels["a"]?)) = .ok (some 1, none) := by
    rw [declared_structuralLabel]
    with_unfolding_all rfl
  rw [normal] at found
  obtain ⟨isSymbol, lost⟩ := Prod.mk.inj (Except.ok.inj found)
  exact ⟨accepted, n, r, normal, compiled, isSymbol, (reads "a").trans lost⟩

/-- A nonterminal that is bound to a label with a NUL. -/
def brokenLabel : List Declaration :=
  [.label "a\x00b" "<1>", .rule "<2>" ["<1>"] (.root 7)]

theorem declared_brokenLabel : declared [] brokenLabel =
    { shards := [[]]
      nonterminals := #[⟨"<1>", some "a\x00b"⟩, ⟨"<2>", none⟩]
      rules := #[⟨1, [.reference 0], .root 7, none⟩]
      lists := #[[], [0]] } := by
  unfold declared brokenLabel after Declaration.declare add addRule
  rw [distinct_eq_eraseDups]
  with_unfolding_all rfl

theorem brokenLabel_reads : (declared [] brokenLabel).normalize.toOption.any (fun n =>
    n.symbol? "<1>" == some 1 && (RuleSet.compile n true).toOption.any fun r =>
      r.label? "a\x00b" == none && r.label? "a" == some 1) = true := by
  rw [declared_brokenLabel]
  unfold RuleSet.compile
  rw [RuleSet.encode_eq_listed]
  decide +kernel

/-- Of a label with a NUL only what comes before it is stored, which was bound to nothing. -/
theorem brokenLabel_cut : (ofShards []).accepts (.label "a\x00b" "<1>") = true ∧
    (∀ name, lastLabel brokenLabel name ≠ some "a") ∧
    ∃ n r, (declared [] brokenLabel).normalize = .ok n ∧
      (declared [] brokenLabel).compile true = .ok r ∧ n.symbol? "<1>" = some 1 ∧
      r.label? "a\x00b" = none ∧ r.label? "a" = some 1 := by
  refine ⟨by decide +kernel, fun name => ?_, ?_⟩
  · by_cases same : "<1>" = name
    · simp [lastLabel, brokenLabel, Declaration.label?, same]
    · simp [lastLabel, brokenLabel, Declaration.label?, same]
  · obtain ⟨n, normal, check⟩ := RuleSet.exists_ok_of_any brokenLabel_reads
    obtain ⟨isSymbol, compiles⟩ := Bool.and_eq_true_iff.mp check
    obtain ⟨r, compiled, labels⟩ := RuleSet.exists_ok_of_any compiles
    obtain ⟨lost, found⟩ := Bool.and_eq_true_iff.mp labels
    exact ⟨n, r, normal, compile_of_normalize normal compiled, beq_iff_eq.mp isSymbol,
      beq_iff_eq.mp lost, beq_iff_eq.mp found⟩

end Phrasebook.Grammar
