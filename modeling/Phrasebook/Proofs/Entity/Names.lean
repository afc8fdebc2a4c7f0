import Phrasebook.Entity
import Phrasebook.Proofs.Derivation.Widest
import Phrasebook.Proofs.Grammar.Naming
import Phrasebook.Proofs.RuleSet.Listing
import Phrasebook.Proofs.Session.Evaluation

namespace Phrasebook

theorem dropWhile_of_notMem [BEq α] [LawfulBEq α] {c : α} {xs : List α} (other : c ∉ xs) :
    xs.dropWhile (· == c) = xs := by
  cases xs with
  | nil => rfl
  | cons x rest =>
    rw [List.dropWhile_cons_of_neg]
    intro same
    exact other (beq_iff_eq.mp same ▸ List.mem_cons_self)

/-- Only the angle brackets are taken off a name. -/
theorem bareName_eq {name : String} (isName : IsName name) : name = "<" ++ bareName name ++ ">" := by
  obtain ⟨inner, _, isText, allowed⟩ := isName
  have noBracket {c : Char} (bracket : isForbidden c = true) : c ∉ inner := by
    intro member
    rw [allowed c member] at bracket
    cases bracket
  have opened : name.toList.dropWhile (· == '<') = inner ++ ['>'] := by
    rw [isText, List.cons_append, List.dropWhile_cons_of_pos rfl]
    refine dropWhile_of_notMem fun member => ?_
    rcases List.mem_append.mp member with inside | last
    · exact noBracket rfl inside
    · cases List.mem_singleton.mp last
  have closed : ('>' :: inner.reverse).dropWhile (· == '>') = inner.reverse := by
    rw [List.dropWhile_cons_of_pos rfl]
    exact dropWhile_of_notMem (mt List.mem_reverse.mp (noBracket rfl))
  have bare : bareName name = String.ofList inner := by
    rw [bareName, opened, List.reverse_append, List.reverse_singleton, List.singleton_append, closed,
      List.reverse_reverse]
  rw [bare, ← String.toList_inj, isText]
  simp

/-- An entity is reported for a rule that has its number. It is called after the nonterminal whose name
the symbol of that rule shows: one with the same symbol, which generates the same, and the rule's own
nonterminal if that has several rules. -/
theorem Recognizer.recognize_names {g : Grammar} {n : NormalForm} {rules : RuleSet} (built : g.Built)
    (normal : g.normalize = .ok n) (compiled : g.compile true = .ok rules)
    (fit : rules.buffer.size < wordBound) (split : Words.Splitter) (text : String)
    (context : Context) (options : Options) (withNames : options.useNames = true) (e : Entity)
    (reported : e ∈ ({ rules, split } : Recognizer).recognize text context options) :
    ∃ rule ∈ g.rules, rule.options.callback = ⟨Builtin.rootRule.id, e.ruleId⟩ ∧
      ∃ own i shown s, g.nonterminals[rule.lhs]? = some own ∧ g.nonterminals[i]? = some shown ∧
        n.symbol? own.name = some s ∧ n.symbol? shown.name = some s ∧
        n.nameOf? s = some shown.name ∧ shown.name = "<" ++ e.rule ++ ">" ∧
        (∀ (α : Type) (R : Reading Nat α) w, g.Generates R i w ↔ g.Generates R rule.lhs w) ∧
        (1 < (g.alternatives rule.lhs).length → i = rule.lhs) := by
  have formed := built.wellFormed
  obtain ⟨p, isNormal, titled⟩ := Grammar.normalize_titled built normal Leaf.reading
  have few := Grammar.symbolCount_lt built normal compiled fit
  obtain ⟨m, normal', isCompiled⟩ := Grammar.compile_eq_ok compiled
  obtain rfl := Except.ok.inj (normal.symm.trans normal')
  subst isNormal
  have encodes := RuleSet.Compiled.of_compile isCompiled fit titled.bounded few
    fun s => titled.slot_le
  simp only [recognize, entities, entity?, List.mem_filterMap, Option.map_eq_some_iff] at reported
  obtain ⟨d, selected, root, found, rfl⟩ := reported
  have sound := Pass.visits_sound (Pass.visits_session
    (({ rules } : Recognizer).setting context options) (tokenize text split) context.labels)
  obtain ⟨_, isCandidate, _⟩ := Derivation.mem_deduplicate.mp (List.mem_filter.mp selected).1
  obtain ⟨m, h, isRoot, callback, yields⟩ :=
    sound.derivations d (Array.mem_toList_iff.mp (List.mem_of_getElem? isCandidate))
  obtain rfl := Option.some.inj (found.symm.trans isRoot)
  have inRange : ∀ i ∈ rules.selectShards context.locales, i < rules.shardCount :=
    fun i active => List.mem_range.mp (List.mem_filter.mp active).1
  have other : Builtin.rootRule.id ≠ Builtin.exclusion.id := by decide
  obtain ⟨rule, member, isCallback, isSymbol⟩ := titled.exists_rule formed encodes.faithful inRange
    yields.hasHead (by rw [callback]; rfl) (by rw [callback]; exact other)
  rw [yields.1] at isSymbol
  obtain ⟨own, i, shown, isOwn, isShown, ownSymbol, shownSymbol, isName, several⟩ :=
    titled.exists_shown formed isSymbol
  have debugName : rules.debugName? root.symbol = some shown.name := by
    rw [encodes.debugName?_eq fun s name isName => ?_, if_pos rfl, isName]
    obtain ⟨le, n, isNonterminal, rfl⟩ := titled.names s name isName
    exact ⟨formed.clean n isNonterminal, le⟩
  refine ⟨rule, member, isCallback.trans callback, own, i, shown, root.symbol, isOwn, isShown,
    ownSymbol, shownSymbol, isName, ?_, fun α R w => ?_, several⟩
  · have isNonterminal := built.named shown (Array.mem_of_getElem? isShown)
    have reads : nameOf { rules, split } options
        (({ rules, split } : Recognizer).run text context options).arena d = bareName shown.name := by
      simp only [nameOf, withNames, if_true, found, Option.bind_some, debugName]
    dsimp only
    rw [reads]
    exact bareName_eq isNonterminal
  · exact Grammar.generates_congr built normal isShown isOwn shownSymbol ownSymbol R w

/-- Two rules that find the same text. -/
def Grammar.alike : Grammar :=
  ((ofShards []).after (.rule "<1>" ["1"] (.root 7))).after (.rule "<2>" ["1"] (.root 8))

theorem Grammar.alike_eq : alike =
    { shards := [[]]
      nonterminals := #[{ name := "<1>" }, { name := "<2>" }]
      rules :=
        #[{ lhs := 0, rhs := [.literal "1"], options := .root 7 },
          { lhs := 1, rhs := [.literal "1"], options := .root 8 }]
      lists := #[[0], [1]] } := by
  unfold alike after Declaration.declare add addRule
  rw [distinct_eq_eraseDups]
  with_unfolding_all rfl

/-- The compiled grammar reports the rule under the name. -/
def Grammar.calls (g : Grammar) (text : String) (ruleId : UInt64) (name : String) : Bool :=
  match g.compile true with
  | .ok rules =>
    decide (rules.buffer.size < wordBound) &&
      (({ rules } : Recognizer).recognize text {} {}).any fun e => e.ruleId == ruleId && e.rule == name
  | .error _ => false

theorem Grammar.alike_calls : alike.calls "1" 8 "1" = true := by
  rw [alike_eq]
  unfold calls compile RuleSet.compile Recognizer.recognize Recognizer.entities Recognizer.entity?
    Recognizer.run Pass.run Pass.ofSession
  simp only [Pass.select_session, Pass.captures_session]
  rw [RuleSet.encode_eq_listed, Pass.session_eq_sessionIn 500]
  decide +kernel

/-- The second rule is reported, but called after the nonterminal of the first. -/
theorem Recognizer.recognize_names_alike :
    ∃ n rules, Grammar.alike.normalize = .ok n ∧ Grammar.alike.compile true = .ok rules ∧
      ∃ e ∈ ({ rules } : Recognizer).recognize "1" {} {}, e.ruleId = 8 ∧ e.rule = "1" ∧
        ∃ rule ∈ Grammar.alike.rules, rule.options.callback = ⟨Builtin.rootRule.id, 8⟩ ∧
          Grammar.alike.nonterminals[rule.lhs]? = some { name := "<2>" } ∧
          ∃ s, n.symbol? "<2>" = some s ∧ n.symbol? "<1>" = some s ∧ n.nameOf? s = some "<1>" := by
  have calls := Grammar.alike_calls
  unfold Grammar.calls at calls
  split at calls
  · next rules compiled =>
    simp only [Bool.and_eq_true, decide_eq_true_eq, List.any_eq_true, beq_iff_eq] at calls
    obtain ⟨fit, e, reported, isRule, isName⟩ := calls
    obtain ⟨n, normal, _⟩ := Grammar.compile_eq_ok compiled
    have built : Grammar.alike.Built := .after (.after (.ofShards _) _) _
    obtain ⟨rule, member, callback, own, i, shown, s, isOwn, _, ownSymbol, shownSymbol, isShown,
      named, _⟩ := recognize_names built normal compiled fit Words.split "1" {} {} rfl e reported
    rw [isRule] at callback
    rw [isName] at named
    have isSecond : rule.lhs = 1 := by
      rw [Grammar.alike_eq] at member
      simp only [List.mem_toArray, List.mem_cons, List.not_mem_nil, or_false] at member
      rcases member with rfl | rfl
      · cases callback
      · rfl
    have isTwo : Grammar.alike.nonterminals[rule.lhs]? = some { name := "<2>" } := by
      rw [isSecond, Grammar.alike_eq]
      rfl
    obtain rfl := Option.some.inj (isTwo.symm.trans isOwn)
    rw [named] at shownSymbol isShown
    exact ⟨n, rules, normal, compiled, e, reported, isRule, isName, rule, member, callback, isTwo, s,
      ownSymbol, shownSymbol, isShown⟩
  · cases calls

end Phrasebook
