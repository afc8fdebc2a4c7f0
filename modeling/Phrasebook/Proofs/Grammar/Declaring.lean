import Phrasebook.Proofs.Grammar.Spelling

namespace Phrasebook.Grammar

/-- The nonterminal at `index` goes by that name. -/
def Calls (g : Grammar) (index : Nat) (name : String) : Prop :=
  (g.nonterminals[index]?).map (·.name) = some name

/-- All nonterminals have proper names. -/
def Named (g : Grammar) : Prop := ∀ n ∈ g.nonterminals, IsName n.name

/-- Nonterminals without rules and labels have been added, and nothing else has changed. -/
structure Registers (g h : Grammar) : Prop where
  shards : h.shards = g.shards
  filters : h.filters = g.filters
  rules : h.rules = g.rules
  lists : ∀ i, h.rulesOf i = g.rulesOf i
  nonterminals : ∃ added, h.nonterminals.toList = g.nonterminals.toList ++ added ∧
    ∀ n ∈ added, n.label = none ∧ IsName n.name

namespace Registers

variable {g h k : Grammar}

theorem refl (g : Grammar) : g.Registers g :=
  ⟨rfl, rfl, rfl, fun _ => rfl, [], by simp, by simp⟩

theorem trans (first : g.Registers h) (second : h.Registers k) : g.Registers k := by
  obtain ⟨some, eq, fresh⟩ := first.nonterminals
  obtain ⟨more, eq', fresh'⟩ := second.nonterminals
  refine ⟨second.shards.trans first.shards, second.filters.trans first.filters,
    second.rules.trans first.rules, fun i => (second.lists i).trans (first.lists i), some ++ more,
    by rw [eq', eq, List.append_assoc], ?_⟩
  intro n member
  exact (List.mem_append.mp member).elim (fresh n) (fresh' n)

theorem named (registers : g.Registers h) (named : g.Named) : h.Named := by
  obtain ⟨added, eq, fresh⟩ := registers.nonterminals
  intro n member
  rw [← Array.mem_toList_iff, eq, List.mem_append] at member
  exact member.elim (fun old => named n (Array.mem_toList_iff.mp old)) fun new => (fresh n new).2

theorem getElem? (registers : g.Registers h) {i : Nat} {n : Nonterminal}
    (found : g.nonterminals[i]? = some n) : h.nonterminals[i]? = some n := by
  obtain ⟨added, eq, _⟩ := registers.nonterminals
  obtain ⟨lt, _⟩ := Array.getElem?_eq_some_iff.mp found
  rw [← Array.getElem?_toList, eq, List.getElem?_append_left (by simpa using lt),
    Array.getElem?_toList, found]

theorem calls (registers : g.Registers h) {i : Nat} {name : String} (calls : g.Calls i name) :
    h.Calls i name := by
  obtain ⟨n, found, isName⟩ := Option.map_eq_some_iff.mp calls
  exact Option.map_eq_some_iff.mpr ⟨n, registers.getElem? found, isName⟩

end Registers

/-- How a declaration ends: well, with a result, or with an error. Either way it leaves a grammar. -/
def Ends (op : Declare α) (g : Grammar) (well : α → Grammar → Prop) (badly : Grammar → Prop) : Prop :=
  match op g with
  | .ok a h => well a h
  | .error _ h => badly h

namespace Ends

variable {g : Grammar} {badly : Grammar → Prop}

theorem bind {x : Declare α} {f : α → Declare β} {well : α → Grammar → Prop}
    {well' : β → Grammar → Prop} {badly' : Grammar → Prop} (first : Ends x g well badly')
    (error : ∀ h, badly' h → badly h) (second : ∀ a h, well a h → Ends (f a) h well' badly) :
    Ends (x >>= f) g well' badly := by
  unfold Ends at first ⊢
  simp only [Bind.bind, EStateM.bind]
  cases result : x g with
  | error e h =>
    rw [result] at first
    exact error h first
  | ok a h =>
    rw [result] at first
    exact second a h first

theorem weaken {op : Declare α} {well well' : α → Grammar → Prop} {badly' : Grammar → Prop}
    (ends : Ends op g well badly) (ok : ∀ a h, well a h → well' a h) (error : ∀ h, badly h → badly' h) :
    Ends op g well' badly' := by
  unfold Ends at ends ⊢
  cases result : op g with
  | error e h =>
    rw [result] at ends
    exact error h ends
  | ok a h =>
    rw [result] at ends
    exact ok a h ends

theorem returns {a : α} {well : α → Grammar → Prop} (holds : well a g) :
    Ends (pure a : Declare α) g well badly := holds

theorem fails {e : Error} {well : α → Grammar → Prop} (holds : badly g) :
    Ends (throw e : Declare α) g well badly := holds

theorem reads : Ends (get : Declare Grammar) g (fun a h => a = g ∧ h = g) badly := ⟨rfl, rfl⟩

theorem changes {f : Grammar → Grammar} :
    Ends (modify f : Declare Unit) g (fun _ h => h = f g) badly := rfl

/-- A check that throws, and what comes after it. -/
theorem check {c : Prop} [Decidable c] {e : Error} {op : Declare α} {well : α → Grammar → Prop}
    (stops : c → badly g) (passes : ¬ c → Ends op g well badly) :
    Ends (if c then (throw e : Declare PUnit) >>= fun _ => op else op) g well badly := by
  by_cases h : c
  · simp only [h, ↓reduceIte]
    exact stops h
  · simp only [h, ↓reduceIte]
    exact passes h

/-- What holds after a declaration whether it succeeds or not. -/
theorem after {d : Declaration} {holds : Grammar → Prop}
    (ends : Ends d.declare g (fun _ => holds) holds) : holds (g.after d) := by
  unfold Ends at ends
  unfold Grammar.after EStateM.run
  cases result : d.declare g with
  | ok a h =>
    rw [result] at ends
    exact ends
  | error e h =>
    rw [result] at ends
    exact ends

end Ends

theorem nonterminal_ends {g : Grammar} (named : g.Named) (name : String) :
    Ends (nonterminal name) g (fun i h => g.Registers h ∧ h.Calls i name ∧ IsName name) fun h =>
      g.Registers h ∧ ¬ IsName name := by
  unfold Ends
  rw [nonterminal_apply]
  cases found : g.nonterminals.findIdx? (·.name == name) with
  | some i =>
    obtain ⟨lt, isName, _⟩ := Array.findIdx?_eq_some_iff_getElem.mp found
    have eq : g.nonterminals[i].name = name := by simpa using isName
    refine ⟨.refl g, ?_, eq ▸ named _ (Array.getElem_mem lt)⟩
    rw [Calls, Array.getElem?_eq_getElem lt, Option.map_some, eq]
  | none =>
    by_cases valid : isName name.toList = true
    · simp only [valid, ↓reduceIte]
      refine ⟨⟨rfl, rfl, rfl, rulesOf_push g _, [{ name }], by simp, ?_⟩, by simp [Calls],
        isName_toList.mp valid⟩
      simpa using isName_toList.mp valid
    · simp only [valid, Bool.false_eq_true, ↓reduceIte]
      exact ⟨.refl g, fun isName => valid (isName_toList.mpr isName)⟩

/-- The element of a rule that a written one stands for. -/
def Denotes (g : Grammar) : Written → Element → Prop
  | .literal text, e => e = .literal text
  | .name name, e => ∃ i, e = .reference i ∧ g.Calls i name

theorem Registers.denotes {g h : Grammar} (registers : g.Registers h) {w : Written} {e : Element}
    (denotes : g.Denotes w e) : h.Denotes w e := by
  cases w with
  | literal text => exact denotes
  | name name =>
    obtain ⟨i, eq, calls⟩ := denotes
    exact ⟨i, eq, registers.calls calls⟩

/-- `raw` is written for the element. -/
def Writes (g : Grammar) (raw : String) (e : Element × Bool) : Prop :=
  ∃ w : Written, w.Forms e.2 raw ∧ g.Denotes w e.1

theorem element_ends {g : Grammar} (named : g.Named) (lhs raw : String) :
    Ends (element lhs raw) g (fun e h => g.Registers h ∧ h.Writes raw e) fun h =>
      g.Registers h ∧ ∀ (w : Written) optional, ¬ w.Forms optional raw := by
  unfold element
  split
  · next flaw isRead =>
    refine .fails ⟨.refl g, fun w optional forms => ?_⟩
    rw [Written.read_eq_ok_iff.mpr forms] at isRead
    cases isRead
  · next text optional isRead =>
    exact .returns ⟨.refl g, _, Written.read_eq_ok_iff.mp isRead, rfl⟩
  · next name optional isRead =>
    have forms := Written.read_eq_ok_iff.mp isRead
    refine (nonterminal_ends named name).bind ?_ ?_
    · exact fun h ends => absurd forms.1 ends.2
    · exact fun i h ends => .returns ⟨ends.1, _, forms, i, rfl, ends.2.1⟩

theorem elements_ends {g : Grammar} (named : g.Named) (lhs : String) (rhs : List String) :
    Ends (rhs.mapM (element lhs)) g (fun es h => g.Registers h ∧ List.Forall₂ h.Writes rhs es)
      fun h => g.Registers h ∧ ∃ raw ∈ rhs, ∀ (w : Written) optional, ¬ w.Forms optional raw := by
  induction rhs generalizing g with
  | nil => exact .returns ⟨.refl g, .nil⟩
  | cons raw rest ih =>
    rw [List.mapM_cons]
    refine (element_ends named lhs raw).bind ?_ ?_
    · exact fun h ends => ⟨ends.1, raw, List.mem_cons_self, ends.2⟩
    · intro e h ends
      refine (ih (ends.1.named named)).bind ?_ ?_
      · rintro k ⟨registers, other, member, wrong⟩
        exact ⟨ends.1.trans registers, other, List.mem_cons_of_mem _ member, wrong⟩
      · intro es k later
        obtain ⟨w, forms, denotes⟩ := ends.2
        exact .returns ⟨ends.1.trans later.1, .cons ⟨w, forms, later.1.denotes denotes⟩ later.2⟩

/-- A rule that may be declared: it goes into a shard that there is, its left-hand side has a proper
name, and its elements are written as they should be. One of them is mandatory, and at most 12 are
optional. -/
structure Admits (g : Grammar) (lhs : String) (rhs : List String) (options : RuleOptions) : Prop where
  shard : options.shard < g.shards.length
  lhs : IsName lhs
  nonempty : rhs ≠ []
  rhs : ∃ elements : List (Written × Bool), List.Forall₂ (fun raw e => e.1.Forms e.2 raw) rhs elements ∧
    (∃ e ∈ elements, e.2 = false) ∧ elements.countP (·.2) ≤ 12

/-- The rules that a declaration adds: one for each selection of the elements, the full one first. -/
structure Expands (g : Grammar) (lhs : String) (rhs : List String) (options : RuleOptions)
    (excluded : Option Nat) (h : Grammar) (index : Nat) (elements : List (Element × Bool))
    (selections : List (List Element)) : Prop where
  calls : h.Calls index lhs
  writes : List.Forall₂ h.Writes rhs elements
  once : selections.Nodup
  full : selections.head? = some (elements.map (·.1))
  exact : ∀ kept, kept ∈ selections ↔ Keeps elements kept
  rules : h.rules.toList =
    g.rules.toList ++ selections.map fun rhs => { lhs := index, rhs, options, excluded }

/-- A grammar after the declaration of a rule. -/
structure Declares (g : Grammar) (lhs : String) (rhs : List String) (options : RuleOptions)
    (excluded : Option Nat) (h : Grammar) : Prop where
  registers : g.Registers { h with rules := g.rules, lists := g.lists }
  expands : ∃ index elements selections, g.Expands lhs rhs options excluded h index elements selections

/-- Elements are read in one way only, so it is known which of them are optional. -/
theorem optionals_eq {g : Grammar} {rhs : List String} {es : List (Element × Bool)}
    {elements : List (Written × Bool)} (writes : List.Forall₂ g.Writes rhs es)
    (forms : List.Forall₂ (fun raw e => e.1.Forms e.2 raw) rhs elements) :
    es.map (·.2) = elements.map (·.2) := by
  induction writes generalizing elements with
  | nil =>
    cases forms
    rfl
  | @cons raw e rhs es here _ ih =>
    cases forms with
    | cons here' later' =>
      obtain ⟨w, forms, _⟩ := here
      have both := (Written.read_eq_ok_iff.mpr forms).symm.trans (Written.read_eq_ok_iff.mpr here')
      have same := congrArg (·.2) (Except.ok.inj both)
      simp only [List.map_cons, ih later', List.cons.injEq, and_true]
      exact same

/-- What is written for elements can be read. -/
theorem exists_forms {g : Grammar} {rhs : List String} {es : List (Element × Bool)}
    (writes : List.Forall₂ g.Writes rhs es) :
    ∃ elements : List (Written × Bool),
      List.Forall₂ (fun raw e => e.1.Forms e.2 raw) rhs elements := by
  induction writes with
  | nil => exact ⟨[], .nil⟩
  | @cons raw e rhs es here _ ih =>
    obtain ⟨w, forms, _⟩ := here
    obtain ⟨elements, later⟩ := ih
    exact ⟨(w, e.2) :: elements, .cons forms later⟩

/-- How many elements are optional can be told from what they are read as. -/
theorem optionals_fit_iff {g : Grammar} {rhs : List String} {es : List (Element × Bool)}
    (writes : List.Forall₂ g.Writes rhs es) :
    (∃ elements : List (Written × Bool),
      List.Forall₂ (fun raw e => e.1.Forms e.2 raw) rhs elements ∧ (∃ e ∈ elements, e.2 = false) ∧
        elements.countP (·.2) ≤ 12) ↔
      es.countP (·.2) ≠ es.length ∧ es.countP (·.2) ≤ 12 := by
  have count {α : Type} (es : List (α × Bool)) : es.countP (·.2) = (es.map (·.2)).countP id := by
    rw [List.countP_map]
    rfl
  have mandatory {α : Type} (es : List (α × Bool)) :
      (∃ e ∈ es, e.2 = false) ↔ (es.map (·.2)).countP id ≠ (es.map (·.2)).length := by
    rw [ne_eq, List.countP_eq_length]
    simp
  rw [count es, ← List.length_map (·.2)]
  constructor
  · rintro ⟨elements, forms, some, few⟩
    rw [optionals_eq writes forms, ← mandatory, ← count]
    exact ⟨some, few⟩
  · obtain ⟨elements, forms⟩ := exists_forms writes
    rw [optionals_eq writes forms, ← mandatory, ← count]
    exact fun fit => ⟨elements, forms, fit⟩

theorem addRule_ends {g : Grammar} (named : g.Named) (lhs : String) (rhs : List String)
    (options : RuleOptions) (excluded : Option Nat) :
    Ends (addRule lhs rhs options excluded) g
      (fun _ h => g.Admits lhs rhs options ∧ g.Declares lhs rhs options excluded h)
      fun h => g.Registers h ∧ ¬ g.Admits lhs rhs options := by
  unfold addRule
  refine Ends.bind .reads (fun _ => id) ?_
  rintro start _ ⟨isStart, rfl⟩
  subst isStart
  refine .check (fun outside => ⟨.refl _, fun admits => ?_⟩) fun inside => ?_
  · exact absurd admits.shard (Nat.not_lt_of_le outside)
  refine (nonterminal_ends named lhs).bind ?_ ?_
  · exact fun h ends => ⟨ends.1, fun admits => ends.2 admits.lhs⟩
  rintro index h ⟨registers, calls, isName⟩
  refine .check (fun empty => ⟨registers, fun admits => ?_⟩) fun nonempty => ?_
  · exact admits.nonempty (by simpa using empty)
  refine (elements_ends (registers.named named) lhs rhs).bind ?_ ?_
  · rintro k ⟨registers', raw, member, wrong⟩
    refine ⟨registers.trans registers', fun admits => ?_⟩
    obtain ⟨elements, forms, _⟩ := admits.rhs
    obtain ⟨i, lt, rfl⟩ := List.mem_iff_getElem.mp member
    exact wrong _ _ (forms.get lt (forms.length_eq ▸ lt))
  rintro elements k ⟨registers', writes⟩
  have whole := registers.trans registers'
  refine .check (fun all => ⟨whole, fun admits => ?_⟩) fun notAll => ?_
  · exact ((optionals_fit_iff writes).mp admits.rhs).1 (beq_iff_eq.mp all)
  refine .check (fun many => ⟨whole, fun admits => ?_⟩) fun few => ?_
  · exact absurd many (Nat.not_lt_of_le ((optionals_fit_iff writes).mp admits.rhs).2)
  refine Ends.changes.weaken ?_ fun _ => id
  rintro _ _ rfl
  refine ⟨⟨Nat.lt_of_not_le inside, isName, by simpa using nonempty, ?_⟩, ?_, index, elements,
    distinct (variants elements), ?_⟩
  · exact (optionals_fit_iff writes).mpr ⟨mt beq_iff_eq.mpr notAll, Nat.le_of_not_lt few⟩
  · exact ⟨whole.shards, whole.filters, rfl, fun _ => rfl, whole.nonterminals⟩
  · exact ⟨registers'.calls calls, writes, nodup_distinct _,
      (head?_distinct _).trans (head?_variants elements),
      fun kept => mem_distinct.trans mem_variants_iff, by simp [whole.rules]⟩

/-- Declarations leave proper names, and those that fail leave nothing but new nonterminals. -/
theorem declare_ends {g : Grammar} (named : g.Named) (d : Declaration) :
    Ends d.declare g (fun _ h => h.Named) g.Registers := by
  have rule (lhs : String) (rhs : List String) (options : RuleOptions) (excluded : Option Nat)
      {g : Grammar} (named : g.Named) :
      Ends (addRule lhs rhs options excluded) g (fun _ h => h.Named) g.Registers :=
    (addRule_ends named lhs rhs options excluded).weaken
      (fun _ h ends => ends.2.registers.named named) fun h ends => ends.1
  cases d with
  | nonterminal name =>
    exact (nonterminal_ends named name).bind (fun h ends => ends.1) fun i h ends =>
      .returns (ends.1.named named)
  | filter callback =>
    refine .check (fun _ => .refl g) fun _ => Ends.changes.weaken ?_ fun _ => id
    rintro _ _ rfl
    exact named
  | label tag name =>
    refine (nonterminal_ends named name).bind (fun h ends => ends.1) fun i h ends =>
      Ends.changes.weaken ?_ fun _ => id
    rintro _ _ rfl n member
    obtain ⟨j, found⟩ := Array.mem_iff_getElem?.mp member
    rw [Array.getElem?_modify] at found
    have old : ∃ m ∈ h.nonterminals, m.name = n.name := by
      split at found
      · obtain ⟨m, isOld, rfl⟩ := Option.map_eq_some_iff.mp found
        exact ⟨m, Array.mem_of_getElem? isOld, rfl⟩
      · exact ⟨n, Array.mem_of_getElem? found, rfl⟩
    obtain ⟨m, isOld, eq⟩ := old
    exact eq ▸ ends.1.named named m isOld
  | rule lhs rhs options => exact rule lhs rhs options none named
  | assertion lhs rhs negative options => exact rule lhs rhs _ none named
  | mapping lhs rhs value options => exact rule lhs rhs _ none named
  | typed lhs rhs tag options => exact rule lhs rhs _ none named
  | exclusion lhs rhs excluded options =>
    refine (nonterminal_ends named excluded).bind (fun h ends => ends.1) fun i h ends => ?_
    exact (rule lhs rhs _ (some i) (ends.1.named named)).weaken (fun _ _ => id) fun k later =>
      ends.1.trans later

theorem Built.named {g : Grammar} (built : g.Built) : g.Named := by
  induction built with
  | ofShards shards => simp [Named, Grammar.ofShards]
  | @after g _ d ih =>
    exact ((declare_ends ih d).weaken (fun _ _ => id) fun h registers => registers.named ih).after

theorem Built.of_run {g h : Grammar} {d : Declaration} {a : Unit} (built : g.Built)
    (run : d.declare.run g = .ok a h) : h.Built := by
  have isAfter : g.after d = h := by rw [Grammar.after, run]
  exact isAfter ▸ built.after d

/-- The declaration succeeds. -/
def accepts (g : Grammar) (d : Declaration) : Bool :=
  match d.declare.run g with
  | .ok _ _ => true
  | .error _ _ => false

theorem run_of_accepts {g : Grammar} {d : Declaration} (accepted : g.accepts d = true) :
    d.declare.run g = .ok () (g.after d) := by
  unfold accepts at accepted
  unfold after
  cases result : d.declare.run g with
  | ok a h => rfl
  | error e h =>
    rw [result] at accepted
    cases accepted

/-- A rule can be declared exactly if its parts are written as they should be. It then becomes one
rule for each selection of its elements, numbered under its left-hand side. -/
theorem add_expands {g : Grammar} (built : g.Built) (lhs : String) (rhs : List String)
    (options : RuleOptions) :
    ((∃ h, (add lhs rhs options).run g = .ok () h) ↔ g.Admits lhs rhs options) ∧
      ∀ h, (add lhs rhs options).run g = .ok () h → ∃ index elements selections,
        g.Expands lhs rhs options none h index elements selections ∧
          ∀ i, h.rulesOf i = g.rulesOf i ++
            if i = index then List.range' g.rules.size selections.length else [] := by
  have ends := addRule_ends built.named lhs rhs options none
  unfold Ends at ends
  unfold add EStateM.run
  cases result : addRule lhs rhs options none g with
  | ok a k =>
    rw [result] at ends
    refine ⟨⟨fun _ => ends.1, fun _ => ⟨k, rfl⟩⟩, ?_⟩
    rintro h ⟨⟩
    obtain ⟨index, elements, selections, expands⟩ := ends.2.expands
    refine ⟨index, elements, selections, expands, fun i => ?_⟩
    have built' : k.Built := built.of_run (d := .rule lhs rhs options) result
    rw [built'.listed.numbers, built.listed.numbers,
      numbersOf_append index expands.rules (by simp), List.length_map]
  | error e k =>
    rw [result] at ends
    refine ⟨⟨?_, fun admits => absurd admits ends.2⟩, ?_⟩
    · rintro ⟨h, ⟨⟩⟩
    · rintro h ⟨⟩

/-- A grammar with one rule, whose elements have a literal twice. -/
def repeated : Grammar := (ofShards []).after (.rule "<3>" ["1?", "1?", "<2>"] {})

theorem add_expands_repeated :
    (add "<3>" ["1?", "1?", "<2>"] {}).run (ofShards []) = .ok () repeated ∧
      repeated.rules.toList.map (·.rhs) =
        [[.literal "1", .literal "1", .reference 1], [.literal "1", .reference 1], [.reference 1]] ∧
      (ofShards []).Admits "<3>" ["1?", "1?", "<2>"] {} ∧
      ∃ index elements selections,
        (ofShards []).Expands "<3>" ["1?", "1?", "<2>"] {} none repeated index elements selections := by
  have rules : repeated.rules.toList.map (·.rhs) =
      [[.literal "1", .literal "1", .reference 1], [.literal "1", .reference 1], [.reference 1]] := by
    unfold repeated after Declaration.declare add addRule
    rw [distinct_eq_eraseDups]
    decide +kernel
  have run : (add "<3>" ["1?", "1?", "<2>"] {}).run (ofShards []) = .ok () repeated := by
    refine run_of_accepts (d := .rule "<3>" ["1?", "1?", "<2>"] {}) ?_
    decide +kernel
  obtain ⟨declares, expands⟩ := add_expands (.ofShards []) "<3>" ["1?", "1?", "<2>"] {}
  obtain ⟨index, elements, selections, isExpansion, _⟩ := expands repeated run
  exact ⟨run, rules, declares.mp ⟨repeated, run⟩, index, elements, selections, isExpansion⟩

end Phrasebook.Grammar
