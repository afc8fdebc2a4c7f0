import Phrasebook.Grammar.Basic
import Phrasebook.Proofs.Text.NulFree

namespace Phrasebook

namespace Grammar

/-- A declaration that an author can make. -/
inductive Declaration
  | nonterminal (name : String)
  | filter (callback : UInt32)
  | label (tag name : String)
  | rule (lhs : String) (rhs : List String) (options : RuleOptions)
  | assertion (lhs : String) (rhs : List String) (negative : Bool) (options : RuleOptions)
  | mapping (lhs : String) (rhs : List String) (value : UInt64) (options : RuleOptions)
  | typed (lhs : String) (rhs : List String) (tag : UInt64) (options : RuleOptions)
  | exclusion (lhs : String) (rhs : List String) (excluded : String) (options : RuleOptions)

def Declaration.declare : Declaration → Declare Unit
  | .nonterminal name => discard (Grammar.nonterminal name)
  | .filter callback => Grammar.filter callback
  | .label tag name => bindLabel tag name
  | .rule lhs rhs options => add lhs rhs options
  | .assertion lhs rhs negative options => addAssertion lhs rhs negative options
  | .mapping lhs rhs value options => addMapping lhs rhs value options
  | .typed lhs rhs tag options => addTyped lhs rhs tag options
  | .exclusion lhs rhs excluded options => addExclusion lhs rhs excluded options

/-- The grammar after a declaration, also after one that failed. -/
def after (g : Grammar) (d : Declaration) : Grammar :=
  match d.declare.run g with
  | .ok _ g => g
  | .error _ g => g

/-- The grammars that declarations lead to. -/
inductive Built : Grammar → Prop
  | ofShards (shards : List (List Locale)) : Built (ofShards shards)
  | after {g : Grammar} (built : Built g) (d : Declaration) : Built (g.after d)

/-- A rule that refers only to what `g` declares. -/
structure RuleFits (g : Grammar) (rule : Rule) : Prop where
  nonempty : rule.rhs ≠ []
  lhs : rule.lhs < g.nonterminals.size
  references : ∀ i ∈ rule.references, i < g.nonterminals.size
  literals : ∀ text, .literal text ∈ rule.rhs → NulFree text
  shard : rule.options.shard < g.shards.length
  excluded : rule.excluded.isSome = true → rule.options.callback.id = Builtin.exclusion.id

theorem RuleFits.excluded_eq_none {g : Grammar} {rule : Rule} (fits : g.RuleFits rule)
    (other : rule.options.callback.id ≠ Builtin.exclusion.id) : rule.excluded = none := by
  cases excluded : rule.excluded with
  | none => rfl
  | some i => exact absurd (fits.excluded (by simp [excluded])) other

structure WellFormed (g : Grammar) : Prop where
  named : ∀ n ∈ g.nonterminals, n.name ≠ ""
  distinct : (g.nonterminals.toList.map (·.name)).Nodup
  clean : ∀ n ∈ g.nonterminals, NulFree n.name
  filters : ∀ b ∈ Builtin.filters, g.filters.contains b.id = true
  silent : g.filters.contains 0 = false
  rules : ∀ rule ∈ g.rules, g.RuleFits rule

/-- The numbers of the rules for one left-hand side. -/
def numbersOf (g : Grammar) (index : Nat) : List Nat :=
  (List.range g.rules.size).filter fun i => (g.rules[i]?).any (·.lhs == index)

/-- Each nonterminal has a list, and the list holds the numbers of its rules. -/
structure Listed (g : Grammar) : Prop where
  size : g.lists.size = g.nonterminals.size
  numbers : ∀ i, g.rulesOf i = g.numbersOf i

/-- New rules are numbered on, all under their left-hand side. -/
theorem numbersOf_append {g h : Grammar} (index : Nat) {added : List Rule}
    (rules : h.rules.toList = g.rules.toList ++ added) (lhs : ∀ rule ∈ added, rule.lhs = index)
    (i : Nat) :
    h.numbersOf i = g.numbersOf i ++
      if i = index then List.range' g.rules.size added.length else [] := by
  have size : h.rules.size = g.rules.size + added.length := by
    simpa using congrArg List.length rules
  have found (k : Nat) : h.rules[k]? = (g.rules.toList ++ added)[k]? := by
    rw [← rules, Array.getElem?_toList]
  have old : (List.range g.rules.size).filter (fun k => (h.rules[k]?).any (·.lhs == i)) =
      g.numbersOf i := by
    refine List.filter_congr fun k member => ?_
    rw [found, List.getElem?_append_left (by simpa using List.mem_range.mp member),
      Array.getElem?_toList]
  have new (k : Nat) (member : k ∈ List.range' g.rules.size added.length) :
      (h.rules[k]?).any (·.lhs == i) = (index == i) := by
    obtain ⟨low, high⟩ := List.mem_range'_1.mp member
    have inRange : k - g.rules.toList.length < added.length := by
      rw [Array.length_toList]
      omega
    rw [found, List.getElem?_append_right (by simpa using low), List.getElem?_eq_getElem inRange,
      Option.any_some, lhs _ (List.getElem_mem inRange)]
  have split : List.range (g.rules.size + added.length) =
      List.range g.rules.size ++ List.range' g.rules.size added.length := by
    rw [List.range_eq_range', List.range_eq_range', ← List.range'_append_1, Nat.zero_add]
  rw [numbersOf, size, split, List.filter_append, old, List.filter_congr new]
  congr 1
  by_cases here : i = index
  · simp [here]
  · simp [here, Ne.symm here]

/-- What declarations keep. -/
structure Consistent (g : Grammar) : Prop extends g.WellFormed, g.Listed

/-- Nonterminals are added and shards stay. -/
structure Grows (g h : Grammar) : Prop where
  shards : h.shards = g.shards
  size : g.nonterminals.size ≤ h.nonterminals.size

theorem Grows.refl (g : Grammar) : Grows g g := ⟨rfl, Nat.le_refl _⟩

theorem Grows.trans {g h k : Grammar} (first : Grows g h) (second : Grows h k) : Grows g k :=
  ⟨second.shards.trans first.shards, Nat.le_trans first.size second.size⟩

theorem RuleFits.grows {g h : Grammar} {rule : Rule} (grows : Grows g h) (fits : g.RuleFits rule) :
    h.RuleFits rule := by
  refine ⟨fits.nonempty, Nat.lt_of_lt_of_le fits.lhs grows.size, fun i member => ?_, fits.literals,
    ?_, fits.excluded⟩
  · exact Nat.lt_of_lt_of_le (fits.references i member) grows.size
  · rw [grows.shards]
    exact fits.shard

/-- From a consistent grammar that meets `P` a declaration leads to a consistent one, and to a
result that meets `Q` if it does not fail. -/
def Leads (P : Grammar → Prop) (op : Declare α) (Q : α → Grammar → Prop) : Prop :=
  ∀ g, g.Consistent → P g →
    match op g with
    | .ok a h => h.Consistent ∧ Grows g h ∧ Q a h
    | .error _ h => h.Consistent

namespace Leads

theorem bind {P : Grammar → Prop} {x : Declare α} {f : α → Declare β} {Q : α → Grammar → Prop}
    {R : β → Grammar → Prop} (first : Leads P x Q) (second : ∀ a, Leads (Q a) (f a) R) :
    Leads P (x >>= f) R := by
  intro g formed holds
  have one := first g formed holds
  simp only [Bind.bind, EStateM.bind]
  cases result : x g with
  | error e h =>
    rw [result] at one
    exact one
  | ok a h =>
    rw [result] at one
    obtain ⟨formed', grows, holds'⟩ := one
    have two := second a h formed' holds'
    dsimp only
    cases last : f a h with
    | error e k =>
      rw [last] at two
      exact two
    | ok b k =>
      rw [last] at two
      exact ⟨two.1, grows.trans two.2.1, two.2.2⟩

theorem fails (P : Grammar → Prop) (e : Error) (Q : α → Grammar → Prop) :
    Leads P (throw e : Declare α) Q :=
  fun _ formed _ => formed

theorem returns {P : Grammar → Prop} {a : α} {Q : α → Grammar → Prop} (h : ∀ g, P g → Q a g) :
    Leads P (pure a : Declare α) Q :=
  fun g formed holds => ⟨formed, .refl g, h g holds⟩

theorem weaken {P P' : Grammar → Prop} {op : Declare α} {Q Q' : α → Grammar → Prop}
    (leads : Leads P op Q) (before : ∀ g, P' g → P g) (after : ∀ a g, Q a g → Q' a g) :
    Leads P' op Q' := by
  intro g formed holds
  have := leads g formed (before g holds)
  cases result : op g with
  | error e h =>
    rw [result] at this
    exact this
  | ok a h =>
    rw [result] at this
    exact ⟨this.1, this.2.1, after a h this.2.2⟩

theorem reads (P : Grammar → Prop) : Leads P (get : Declare Grammar) fun a g => a = g ∧ P g :=
  fun g formed holds => ⟨formed, .refl g, rfl, holds⟩

theorem changes {P : Grammar → Prop} {f : Grammar → Grammar}
    (h : ∀ g, g.Consistent → P g → (f g).Consistent ∧ Grows g (f g)) :
    Leads P (modify f : Declare Unit) fun _ _ => True :=
  fun g formed holds => ⟨(h g formed holds).1, (h g formed holds).2, trivial⟩

/-- A check that throws, and what comes after it. -/
theorem check {P : Grammar → Prop} {c : Prop} [Decidable c] {e : Error} {op : Declare α}
    {Q : α → Grammar → Prop} (passes : ¬ c → Leads P op Q) :
    Leads P (if c then (throw e : Declare PUnit) >>= fun _ => op else op) Q := by
  by_cases h : c
  · simp only [h, ↓reduceIte]
    exact Leads.bind (.fails P e fun _ _ => False) fun _ _ _ => False.elim
  · simp only [h, ↓reduceIte]
    exact passes h

/-- What growth does not spoil is carried along. -/
theorem frame {P F : Grammar → Prop} {op : Declare α} {Q : α → Grammar → Prop}
    (leads : Leads P op Q) (stays : ∀ g h, Grows g h → F g → F h) :
    Leads (fun g => P g ∧ F g) op fun a g => Q a g ∧ F g := by
  intro g formed holds
  have := leads g formed holds.1
  cases result : op g with
  | error e h =>
    rw [result] at this
    exact this
  | ok a h =>
    rw [result] at this
    exact ⟨this.1, this.2.1, this.2.2, stays g h this.2.1 holds.2⟩

end Leads

/-- A name of a nonterminal is not empty. -/
theorem ne_empty_of_isName {name : String} (h : isName name.toList = true) : name ≠ "" := by
  rintro rfl
  simp [isName] at h

theorem nulFree_of_isName {name : String} (h : isName name.toList = true) : NulFree name := by
  unfold isName at h
  split at h
  · next rest eq =>
    split at h
    · next inner isReverse =>
      simp only [Bool.and_eq_true, List.all_eq_true, Bool.not_eq_true'] at h
      have shape : rest = inner.reverse ++ ['>'] := by
        rw [← List.reverse_reverse rest, isReverse, List.reverse_cons]
      intro isNul
      rw [eq, shape] at isNul
      simp only [List.mem_cons, List.mem_append, List.mem_reverse, List.not_mem_nil, or_false,
        Char.reduceEq, false_or] at isNul
      have forbidden := h.2 _ isNul
      simp [isForbidden] at forbidden
    · cases h
  · cases h

theorem nonterminal_apply (g : Grammar) (name : String) :
    nonterminal name g =
      match g.nonterminals.findIdx? (·.name == name) with
      | some index => .ok index g
      | none =>
        if isName name.toList then
          .ok g.nonterminals.size
            { g with nonterminals := g.nonterminals.push { name }, lists := g.lists.push [] }
        else .error (.invalidName name) g := by
  simp only [nonterminal, Bind.bind, EStateM.bind, get, getThe, MonadStateOf.get, EStateM.get]
  cases g.nonterminals.findIdx? (·.name == name) with
  | some index => rfl
  | none =>
    cases isName name.toList with
    | true => rfl
    | false => rfl

theorem WellFormed.push {g : Grammar} {name : String} (formed : g.WellFormed)
    (fresh : g.nonterminals.findIdx? (·.name == name) = none) (valid : isName name.toList = true) :
    ({ g with nonterminals := g.nonterminals.push { name }, lists := g.lists.push [] } :
      Grammar).WellFormed := by
  have new : ∀ n ∈ g.nonterminals, n.name ≠ name := by
    simpa using Array.findIdx?_eq_none_iff.mp fresh
  refine
    { formed with
      named := fun n member => ?named
      distinct := ?distinct
      clean := fun n member => ?clean
      rules := fun rule member => ?rules }
  case named =>
    rcases Array.mem_push.mp member with old | rfl
    · exact formed.named n old
    · exact ne_empty_of_isName valid
  case distinct =>
    simp only [Array.toList_push, List.map_append, List.map_cons, List.map_nil]
    refine List.nodup_append.mpr ⟨formed.distinct, by simp, fun a member b last => ?_⟩
    obtain ⟨n, isOld, rfl⟩ := List.mem_map.mp member
    rw [List.mem_singleton.mp last]
    exact new n (Array.mem_toList_iff.mp isOld)
  case clean =>
    rcases Array.mem_push.mp member with old | rfl
    · exact formed.clean n old
    · exact nulFree_of_isName valid
  case rules =>
    exact RuleFits.grows (g := g) ⟨rfl, by simp⟩ (formed.rules rule member)

/-- A new nonterminal has no rules. -/
theorem rulesOf_push (g : Grammar) (n : Nonterminal) (i : Nat) :
    ({ g with nonterminals := g.nonterminals.push n, lists := g.lists.push [] } :
      Grammar).rulesOf i = g.rulesOf i := by
  simp only [rulesOf, Array.getD_eq_getD_getElem?, Array.getElem?_push]
  split
  · next last => simp [last]
  · rfl

namespace Listed

variable {g : Grammar}

theorem push (listed : g.Listed) (n : Nonterminal) :
    ({ g with nonterminals := g.nonterminals.push n, lists := g.lists.push [] } :
      Grammar).Listed :=
  ⟨by simp [listed.size], fun i => (rulesOf_push g n i).trans (listed.numbers i)⟩

/-- New rules are listed under their left-hand side. -/
theorem append (listed : g.Listed) {index : Nat} (inRange : index < g.nonterminals.size)
    {added : List Rule} (lhs : ∀ rule ∈ added, rule.lhs = index) :
    ({ g with
      rules := g.rules ++ added
      lists := g.lists.modify index (· ++ List.range' g.rules.size added.length) } :
        Grammar).Listed := by
  refine ⟨by simp [listed.size], fun i => ?_⟩
  rw [numbersOf_append (g := g) index Array.toList_appendList lhs, ← listed.numbers]
  simp only [rulesOf, Array.getD_eq_getD_getElem?, Array.getElem?_modify]
  by_cases here : index = i
  · subst here
    rw [Array.getElem?_eq_getElem (listed.size.symm ▸ inRange)]
    simp
  · simp [here, Ne.symm here]

theorem congr {h : Grammar} (listed : g.Listed)
    (nonterminals : h.nonterminals.size = g.nonterminals.size) (rules : h.rules = g.rules)
    (lists : h.lists = g.lists) : h.Listed :=
  ⟨lists ▸ nonterminals ▸ listed.size, fun i => by
    rw [rulesOf, lists, numbersOf, rules]
    exact listed.numbers i⟩

end Listed

theorem leads_nonterminal {P : Grammar → Prop} (name : String)
    (stays : ∀ g h, Grows g h → P g → P h) :
    Leads P (nonterminal name) fun index g => index < g.nonterminals.size ∧ P g := by
  intro g formed holds
  rw [nonterminal_apply]
  cases found : g.nonterminals.findIdx? (·.name == name) with
  | some index =>
    exact ⟨formed, .refl g, (Array.findIdx?_eq_some_iff_getElem.mp found).1, holds⟩
  | none =>
    by_cases valid : isName name.toList = true
    · simp only [valid, ↓reduceIte]
      have grows : Grows g
          { g with nonterminals := g.nonterminals.push { name }, lists := g.lists.push [] } :=
        ⟨rfl, by simp⟩
      exact ⟨⟨formed.toWellFormed.push found valid, formed.toListed.push _⟩, grows, by simp,
        stays _ _ grows holds⟩
    · simp only [valid, Bool.false_eq_true, ↓reduceIte]
      exact formed

/-- Whatever does not touch nonterminals and rules keeps a grammar well-formed. -/
theorem WellFormed.congr {g h : Grammar} (formed : g.WellFormed) (shards : h.shards = g.shards)
    (nonterminals : h.nonterminals.map (·.name) = g.nonterminals.map (·.name))
    (filters : ∀ callback, g.filters.contains callback = true → h.filters.contains callback = true)
    (silent : h.filters.contains 0 = g.filters.contains 0)
    (rules : h.rules = g.rules) : h.WellFormed := by
  have size : h.nonterminals.size = g.nonterminals.size := by
    simpa using congrArg Array.size nonterminals
  have names : h.nonterminals.toList.map (·.name) = g.nonterminals.toList.map (·.name) := by
    simpa using congrArg Array.toList nonterminals
  have old (n : Nonterminal) (member : n ∈ h.nonterminals) : ∃ m ∈ g.nonterminals, m.name = n.name :=
    Array.mem_map.mp (nonterminals ▸ Array.mem_map_of_mem member)
  refine
    { named := fun n member => ?named
      distinct := names ▸ formed.distinct
      clean := fun n member => ?clean
      filters := fun b known => filters b.id (formed.filters b known)
      silent := silent.trans formed.silent
      rules := fun rule member => ?rules }
  case named =>
    obtain ⟨m, isOld, eq⟩ := old n member
    rw [← eq]
    exact formed.named m isOld
  case clean =>
    obtain ⟨m, isOld, eq⟩ := old n member
    rw [← eq]
    exact formed.clean m isOld
  case rules =>
    exact (formed.rules rule (rules ▸ member)).grows ⟨shards, Nat.le_of_eq size.symm⟩

/-- Elements refer to declared nonterminals only, and literals have no NUL. -/
def ElementFits (g : Grammar) : Element → Prop
  | .literal text => NulFree text
  | .reference index => index < g.nonterminals.size

theorem ElementFits.grows {g h : Grammar} {e : Element} (grows : Grows g h)
    (fits : g.ElementFits e) : h.ElementFits e := by
  cases e with
  | literal text => exact fits
  | reference index => exact Nat.lt_of_lt_of_le fits grows.size

theorem leads_element {P : Grammar → Prop} (lhs raw : String)
    (stays : ∀ g h, Grows g h → P g → P h) :
    Leads P (element lhs raw) fun e g => g.ElementFits e.1 ∧ P g := by
  unfold element
  split
  · exact .fails _ _ _
  · next text optional isLiteral =>
    exact .returns fun g holds => ⟨Written.nulFree_read isLiteral, holds⟩
  · next name optional _ =>
    exact (leads_nonterminal name stays).bind fun index => .returns fun g holds => holds

theorem leads_elements {P : Grammar → Prop} (lhs : String) (rhs : List String)
    (stays : ∀ g h, Grows g h → P g → P h) :
    Leads P (rhs.mapM (element lhs)) fun es g => (∀ e ∈ es, g.ElementFits e.1) ∧ P g := by
  induction rhs with
  | nil => exact .returns fun g holds => ⟨by simp, holds⟩
  | cons raw rest ih =>
    rw [List.mapM_cons]
    refine (leads_element lhs raw stays).bind fun e => ?_
    refine Leads.bind (Q := fun es g => ((∀ e ∈ es, g.ElementFits e.1) ∧ P g) ∧ g.ElementFits e.1)
      ?_ fun es => .returns fun g holds => ?_
    · refine (ih.frame fun g h grows => ElementFits.grows grows).weaken ?_ fun _ _ => id
      exact fun g holds => holds.symm
    · refine ⟨fun other member => ?_, holds.1.2⟩
      rcases List.mem_cons.mp member with rfl | member
      · exact holds.2
      · exact holds.1.1 other member

end Grammar

/-- A variant has elements of the full list only, and the mandatory ones among them. -/
theorem mem_variants {elements : List (α × Bool)} {variant : List α}
    (member : variant ∈ variants elements) :
    (∀ e ∈ variant, ∃ optional, (e, optional) ∈ elements) ∧
      ∀ e, (e, false) ∈ elements → e ∈ variant := by
  induction elements generalizing variant with
  | nil =>
    obtain rfl := List.mem_singleton.mp member
    simp
  | cons head rest ih =>
    obtain ⟨e, optional⟩ := head
    cases optional with
    | false =>
      obtain ⟨tail, isTail, rfl⟩ := List.mem_map.mp member
      obtain ⟨within, mandatory⟩ := ih isTail
      refine ⟨fun x isX => ?_, fun x isX => ?_⟩
      · rcases List.mem_cons.mp isX with rfl | isX
        · exact ⟨false, List.mem_cons_self⟩
        · exact (within x isX).imp fun _ h => List.mem_cons_of_mem _ h
      · rcases List.mem_cons.mp isX with same | isX
        · obtain ⟨rfl, _⟩ := Prod.mk.inj same
          exact List.mem_cons_self
        · exact List.mem_cons_of_mem _ (mandatory x isX)
    | true =>
      obtain ⟨tail, isTail, either⟩ := List.mem_flatMap.mp member
      obtain ⟨within, mandatory⟩ := ih isTail
      have kept (x : α) (isX : (x, false) ∈ (e, true) :: rest) : x ∈ tail := by
        rcases List.mem_cons.mp isX with same | isX
        · cases (Prod.mk.inj same).2
        · exact mandatory x isX
      have inside (x : α) (isX : x ∈ tail) : ∃ optional, (x, optional) ∈ (e, true) :: rest :=
        (within x isX).imp fun _ h => List.mem_cons_of_mem _ h
      simp only [List.mem_cons, List.not_mem_nil, or_false] at either
      rcases either with rfl | rfl
      · refine ⟨fun x isX => ?_, fun x isX => List.mem_cons_of_mem _ (kept x isX)⟩
        rcases List.mem_cons.mp isX with rfl | isX
        · exact ⟨true, List.mem_cons_self⟩
        · exact inside x isX
      · exact ⟨inside, kept⟩

section
variable [BEq α] [Hashable α] [LawfulBEq α] [LawfulHashable α]

theorem distinctFrom_eq (seen : Std.HashSet α) (kept items : List α) :
    distinctFrom seen kept items =
      kept.reverse ++ (items.filter (!seen.contains ·)).eraseDups := by
  induction items generalizing seen kept with
  | nil => simp [distinctFrom]
  | cons item rest ih =>
    rw [distinctFrom]
    split
    · next isSeen => rw [ih, List.filter_cons_of_neg (by simp [isSeen])]
    · next isNew =>
      have later : rest.filter (!(seen.insert item).contains ·) =
          (rest.filter (!seen.contains ·)).filter (!· == item) := by
        rw [List.filter_filter]
        refine List.filter_congr fun a _ => ?_
        rw [Std.HashSet.contains_insert, Bool.not_or, Bool.beq_comm]
      rw [ih, later, List.filter_cons_of_pos (by simpa using isNew), List.eraseDups_cons,
        List.reverse_cons, List.append_assoc]
      rfl

/-- The hash set does not show: of equals the first stays. -/
theorem distinct_eq_eraseDups : @distinct α _ _ = List.eraseDups := by
  funext items
  simp [distinct, distinctFrom_eq]

theorem mem_distinct {items : List α} {a : α} : a ∈ distinct items ↔ a ∈ items := by
  rw [distinct_eq_eraseDups, List.mem_eraseDups]

end

namespace Grammar

/-- The rules that one declaration adds. -/
theorem ruleFits_of_variant {g : Grammar} {index : Nat} {elements : List (Element × Bool)}
    {options : RuleOptions} {excluded : Option Nat} (lhs : index < g.nonterminals.size)
    (fits : ∀ e ∈ elements, g.ElementFits e.1) (shard : options.shard < g.shards.length)
    (isDeclared : ∀ i, excluded = some i → i < g.nonterminals.size)
    (isExclusion : excluded.isSome = true → options.callback.id = Builtin.exclusion.id)
    (mandatory : elements.countP (·.2) ≠ elements.length) {rhs : List Element}
    (member : rhs ∈ variants elements) :
    g.RuleFits { lhs := index, rhs, options, excluded } := by
  obtain ⟨within, kept⟩ := mem_variants member
  refine ⟨?_, lhs, fun i isReference => ?_, fun text isLiteral => ?_, shard, isExclusion⟩
  · obtain ⟨e, isElement, isMandatory⟩ : ∃ e ∈ elements, e.2 = false := by
      by_contra all
      refine mandatory (List.countP_eq_length.mpr fun e isElement => ?_)
      by_contra optional
      exact all ⟨e, isElement, by simpa using optional⟩
    exact List.ne_nil_of_mem (kept e.1 (isMandatory ▸ isElement))
  · rcases List.mem_append.mp isReference with isElement | isExcluded
    · obtain ⟨e, inRhs, eq⟩ := List.mem_filterMap.mp isElement
      obtain ⟨optional, isIn⟩ := within e inRhs
      have := fits _ isIn
      cases e with
      | literal text => cases eq
      | reference j =>
        obtain rfl := Option.some.inj eq
        exact this
    · exact isDeclared i (Option.mem_toList.mp isExcluded)
  · obtain ⟨optional, isIn⟩ := within _ isLiteral
    exact fits _ isIn

theorem leads_addRule (lhs : String) (rhs : List String) (options : RuleOptions)
    (excluded : Option Nat)
    (isExclusion : excluded.isSome = true → options.callback.id = Builtin.exclusion.id) :
    Leads (fun g => ∀ i, excluded = some i → i < g.nonterminals.size)
      (addRule lhs rhs options excluded) fun _ _ => True := by
  unfold addRule
  refine (Leads.reads _).bind fun start => ?_
  refine .check fun inRange => ?_
  have stays : ∀ g h, Grows g h →
      (options.shard < g.shards.length ∧ ∀ i, excluded = some i → i < g.nonterminals.size) →
      options.shard < h.shards.length ∧ ∀ i, excluded = some i → i < h.nonterminals.size := by
    intro g h grows holds
    refine ⟨grows.shards ▸ holds.1, fun i isExcluded => ?_⟩
    exact Nat.lt_of_lt_of_le (holds.2 i isExcluded) grows.size
  refine ((leads_nonterminal lhs stays).weaken ?_ fun _ _ => id).bind fun index => ?_
  · rintro g ⟨rfl, holds⟩
    exact ⟨by omega, holds⟩
  refine .check fun _ => ?_
  have stays' : ∀ g h, Grows g h → (index < g.nonterminals.size ∧ _) → index < h.nonterminals.size ∧ _ :=
    fun g h grows holds => ⟨Nat.lt_of_lt_of_le holds.1 grows.size, stays g h grows holds.2⟩
  refine (leads_elements lhs rhs stays').bind fun elements => ?_
  refine .check fun mandatory => .check fun _ => .changes fun g formed holds => ?_
  obtain ⟨fits, isDeclared, shard, isExcluded⟩ := holds
  refine ⟨⟨⟨formed.named, formed.distinct, formed.clean, formed.filters, formed.silent,
    fun rule member => ?_⟩, formed.toListed.append isDeclared (by simp)⟩, rfl, Nat.le_refl _⟩
  rw [← Array.mem_toList_iff, Array.toList_appendList, List.mem_append] at member
  rcases member with old | new
  · exact RuleFits.grows (g := g) ⟨rfl, Nat.le_refl _⟩
      (formed.rules rule (Array.mem_toList_iff.mp old))
  · obtain ⟨variant, isVariant, rfl⟩ := List.mem_map.mp new
    exact RuleFits.grows (g := g) ⟨rfl, Nat.le_refl _⟩ (ruleFits_of_variant isDeclared fits shard
      isExcluded isExclusion (by simpa using mandatory) (mem_distinct.mp isVariant))

theorem leads_bindLabel (label name : String) :
    Leads (fun _ => True) (bindLabel label name) fun _ _ => True := by
  refine (leads_nonterminal name fun _ _ _ => id).bind fun index => .changes fun g formed _ => ?_
  refine ⟨⟨formed.toWellFormed.congr rfl ?_ (fun _ => id) rfl rfl,
    formed.toListed.congr (by simp) rfl rfl⟩, rfl, by simp⟩
  apply Array.ext_getElem?
  intro i
  simp only [Array.getElem?_map, Array.getElem?_modify]
  split
  · cases g.nonterminals[i]? with
    | none => rfl
    | some n => rfl
  · rfl

theorem leads_declare (d : Declaration) :
    Leads (fun _ => True) d.declare fun _ _ => True := by
  have rule (lhs : String) (rhs : List String) (options : RuleOptions) :
      Leads (fun _ => True) (addRule lhs rhs options none) fun _ _ => True :=
    (leads_addRule lhs rhs options none (by simp)).weaken (by simp) fun _ _ => id
  cases d with
  | nonterminal name =>
    refine (leads_nonterminal name fun _ _ _ => id).bind fun _ => .returns fun _ _ => trivial
  | filter callback =>
    refine .check fun allowed => .changes fun g formed _ => ?_
    refine ⟨⟨formed.toWellFormed.congr rfl rfl (fun other isFilter => ?_) ?_ rfl,
      formed.toListed.congr rfl rfl rfl⟩, rfl, Nat.le_refl _⟩
    · rw [Std.TreeSet.contains_insert, isFilter, Bool.or_true]
    · have loud : callback ≠ 0 := by
        rintro rfl
        simp at allowed
      have differs : compare callback 0 ≠ .eq := fun h => loud (Std.LawfulEqCmp.eq_of_compare h)
      rw [Std.TreeSet.contains_insert]
      simp [differs]
  | label tag name => exact leads_bindLabel tag name
  | rule lhs rhs options => exact rule lhs rhs options
  | assertion lhs rhs negative options => exact rule lhs rhs _
  | mapping lhs rhs value options => exact rule lhs rhs _
  | typed lhs rhs tag options => exact rule lhs rhs _
  | exclusion lhs rhs excluded options =>
    refine (leads_nonterminal excluded fun _ _ _ => id).bind fun index => ?_
    refine (leads_addRule lhs rhs _ (some index) fun _ => rfl).weaken ?_ fun _ _ => id
    rintro g ⟨lt, _⟩ i ⟨⟩
    exact lt

/-- Every grammar that declarations lead to is well-formed, with the right lists. -/
theorem Built.consistent {g : Grammar} (built : g.Built) : g.Consistent := by
  induction built with
  | ofShards shards =>
    refine ⟨⟨by simp [Grammar.ofShards], by simp [Grammar.ofShards], by simp [Grammar.ofShards],
      fun b known => ?_, ?_, by simp [Grammar.ofShards]⟩, rfl, fun _ => rfl⟩
    · rw [Grammar.ofShards, Std.TreeSet.contains_ofList]
      exact List.contains_iff_mem.mpr (List.mem_map_of_mem known)
    · rw [Grammar.ofShards, Std.TreeSet.contains_ofList]
      decide
  | @after g _ d ih =>
    have leads := leads_declare d g ih trivial
    unfold Grammar.after EStateM.run
    cases result : d.declare g with
    | ok a h =>
      rw [result] at leads
      exact leads.1
    | error e h =>
      rw [result] at leads
      exact leads

theorem Built.wellFormed {g : Grammar} (built : g.Built) : g.WellFormed :=
  built.consistent.toWellFormed

theorem Built.listed {g : Grammar} (built : g.Built) : g.Listed := built.consistent.toListed

end Grammar

end Phrasebook
