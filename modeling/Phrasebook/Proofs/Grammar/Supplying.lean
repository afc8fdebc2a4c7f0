import Phrasebook.Proofs.Grammar.Labelling
import Phrasebook.Proofs.RuleSet.Listing
import Phrasebook.Proofs.RuleSet.Lookups
import Phrasebook.Proofs.Session.Evaluation
import Phrasebook.Proofs.Session.Feeding

namespace Phrasebook

open Session

namespace RuleSet.Encoded

variable {n : NormalForm} {withNames : Bool} {r : RuleSet}

/-- Whatever a label stands for in a buffer, one stands for in the normal form. -/
theorem exists_label (e : Encoded n withNames r)
    (small : ∀ (tag : String) s, n.labels[tag]? = some s → s ≤ n.symbolCount) {name : String}
    {s : Symbol} (found : r.label? name = some s) : ∃ tag : String, n.labels[tag]? = some s := by
  obtain ⟨offset, isOffset, isSymbol⟩ := Option.bind_eq_some_iff.mp found
  obtain ⟨i, inRange, rfl⟩ := RuleSet.search_inside isOffset
  obtain ⟨⟨tag, symbol⟩, member, _, isWord⟩ := exists_of_pairs e.labels_lie.2 e.labels_lie.1 inRange
  have isLabel := Std.TreeMap.mem_toList_iff_getElem?_eq_some.mp member
  have fits : symbol < wordBound := Nat.lt_of_lt_of_le (Nat.lt_succ_of_le (small tag symbol isLabel))
    e.limit_le
  rw [Nat.mod_eq_of_lt fits] at isWord
  obtain rfl := Option.some.inj (isSymbol.symm.trans isWord)
  exact ⟨tag, isLabel⟩

end RuleSet.Encoded

namespace Grammar

/-- If a label is bound at all, it is bound last somewhere. -/
theorem exists_lastLabelled {g : Grammar} {k : Nat} {tag : String}
    (labelled : ∃ i < k, g.Labelled i tag) : ∃ i, g.LastLabelled k tag i := by
  induction k with
  | zero =>
    obtain ⟨_, lt, _⟩ := labelled
    cases lt
  | succ k ih =>
    by_cases here : g.Labelled k tag
    · exact ⟨k, Nat.lt_succ_self k, here, fun j after before => by omega⟩
    · obtain ⟨i, lt, isLabelled⟩ := labelled
      have ne : i ≠ k := by
        rintro rfl
        exact here isLabelled
      obtain ⟨last, small, isLast, later⟩ := ih ⟨i, by omega, isLabelled⟩
      refine ⟨last, Nat.lt_succ_of_lt small, isLast, fun j after before => ?_⟩
      rcases Nat.lt_succ_iff_lt_or_eq.mp before with before | rfl
      · exact later j after before
      · exact here

namespace Progress

variable {g : Grammar} {p : Progress}

/-- A structural nonterminal has a symbol exactly if the grammar mentions it. -/
theorem Tidy.get_ne_zero_iff (tidy : p.Tidy g) {kind : Structural} (known : kind ∈ Structural.all) :
    p.normal.structural.get kind ≠ 0 ↔ ∃ m ∈ g.nonterminals, m.name = kind.name := by
  constructor
  · intro used
    by_contra unnamed
    push Not at unnamed
    exact used (tidy.get_eq_zero known unnamed)
  · rintro ⟨m, member, isName⟩
    obtain ⟨i, found⟩ := Array.mem_iff_getElem?.mp member
    have isKind : Structural.ofName? m.name = some kind := by
      rw [isName]
      exact Structural.ofName?_name known
    obtain ⟨s, isSymbol, positive⟩ := tidy.given i ⟨m, found, .inl (by rw [isKind]; rfl)⟩
    rw [tidy.structural kind known, ← isName, tidy.named i m found, isSymbol]
    exact Nat.ne_of_gt positive

/-- A label stands for a symbol of a nonterminal. -/
theorem Labels.pos (labels : p.Labels g g.nonterminals.size) (tidy : p.Tidy g) {tag : String}
    {s : Symbol} (isLabel : p.normal.labels[tag]? = some s) : 0 < s := by
  have labelled : ∃ i < g.nonterminals.size, g.Labelled i tag := by
    by_contra none
    push Not at none
    rw [labels.unused tag none] at isLabel
    cases isLabel
  obtain ⟨i, last⟩ := exists_lastLabelled labelled
  obtain ⟨t, isSymbol, positive⟩ := tidy.given i last.2.1.isGiven
  rw [labels.last tag i last, isSymbol] at isLabel
  exact Option.some.inj isLabel ▸ positive

end Progress

/-- In a compiled grammar just the structural nonterminals that it mentions have symbols, and a bound
label never stands for none. -/
theorem supplies_of_compile {g : Grammar} {n : NormalForm} {withNames : Bool} {rules : RuleSet}
    (built : g.Built) (normal : g.normalize = .ok n) (compiled : g.compile withNames = .ok rules)
    (few : n.symbolCount < 2 ^ 31) (fit : rules.buffer.size < wordBound) :
    (∀ kind ∈ Structural.all, rules.layout.structural.get kind ≠ 0 ↔
      ∃ m ∈ g.nonterminals, m.name = kind.name) ∧
    ∀ name, rules.label? name ≠ some 0 := by
  obtain ⟨p, rfl, holds, labels⟩ := normalize_labels built normal
  obtain ⟨n, normal', isCompiled⟩ := compile_eq_ok compiled
  obtain rfl := Except.ok.inj (normal.symm.trans normal')
  have encodes := RuleSet.Compiled.of_compile isCompiled fit holds.bounded few fun s => holds.slot_le
  constructor
  · intro kind known
    rw [encodes.structural_eq]
    exact holds.get_ne_zero_iff known
  · intro name found
    obtain ⟨tag, isLabel⟩ := encodes.exists_label holds.labels_le found
    exact Nat.lt_irrefl 0 (labels.pos holds.toTidy isLabel)

/-- What a text hands to a compiled grammar. The pieces and labels are arranged in one order, each of
them once, and the session takes what they hand over from the start of the text to its end. A label
hangs on the last piece that ends before it. If nothing is dropped, each symbol becomes one match
just as it is handed over, in this order, and heads yield all others. -/
theorem session_takes_handed {g : Grammar} {withNames : Bool} {rules : RuleSet} (built : g.Built)
    (compiled : g.compile withNames = .ok rules) (locales : List Locale) (limit : Nat)
    {tokens : List Token} (laid : Token.Laid tokens) (labels : List Label) :
    (∃ sources, Feed.Arranged tokens labels sources ∧
      Pass.session (.ofRules rules locales limit) tokens labels =
        (Feed.handed rules tokens sources).foldl
          (take (.ofRules rules locales limit) .collector) {} ∧
      ((Pass.session (.ofRules rules locales limit) tokens labels).stats.dropped = 0 →
        ∃ ids, (Pass.session (.ofRules rules locales limit) tokens labels).arena.Stands
          (.ofRules rules locales limit) tokens 0
          ((Feed.handed rules tokens sources).filterMap FeedItem.match?) ids)) ∧
    (∀ label, IsGreatest
      {n | n = 0 ∨ ∃ piece ∈ solidPieces tokens, piece.span.stop = n ∧ n ≤ label.span.start}
      (Feed.labelOffset (solidPieces tokens) label)) ∧
    ∀ n, g.normalize = .ok n → n.symbolCount < 2 ^ 31 → rules.buffer.size < wordBound →
      (∀ kind ∈ Structural.all, rules.layout.structural.get kind ≠ 0 ↔
        ∃ m ∈ g.nonterminals, m.name = kind.name) ∧
      ∀ name, rules.label? name ≠ some 0 := by
  have handed := Feed.handed_sources rules laid labels
  have session := Pass.session_eq_foldl (.ofRules rules locales limit) tokens labels
  refine ⟨⟨Feed.sources tokens labels, Feed.arranged_sources laid labels, ?_, ?_⟩,
    Feed.isGreatest_labelOffset _, fun n normal few fit =>
      supplies_of_compile built normal compiled few fit⟩
  · rw [session, handed]
    rfl
  · rw [session, handed]
    intro whole
    have sound := (Pass.sound_start (.ofRules rules locales limit) tokens labels).1
    exact (stands_foldl sound (Pass.feed_due rules tokens labels)).2.2 whole

/-- A grammar that asks for a label at the start of the text. -/
def labelFirst : Grammar :=
  ((ofShards []).after (.label "a" "<1>")).after (.rule "<2>" ["<^>", "<1>"] (.root 7))

theorem labelFirst_eq : labelFirst =
    { shards := [[]]
      nonterminals := #[⟨"<1>", some "a"⟩, ⟨"<2>", none⟩, ⟨"<^>", none⟩]
      rules := #[⟨1, [.reference 2, .reference 0], .root 7, none⟩]
      lists := #[[], [0], []] } := by
  unfold labelFirst after Declaration.declare add addRule
  rw [distinct_eq_eraseDups]
  with_unfolding_all rfl

/-- A pass drops nothing and leaves matches of the given symbols. -/
def leaves (g : Grammar) (tokens : List Token) (labels : List Label) (symbols : List Symbol) : Bool :=
  match g.compile false with
  | .ok rules =>
    let s := Pass.session (.ofRules rules [] 1000) tokens labels
    s.stats.dropped == 0 && s.arena.entries.toList.map (·.symbol) == symbols
  | .error _ => false

theorem labelFirst_leaves :
    labelFirst.leaves [⟨"1", ⟨0, 1⟩⟩] [⟨"a", ⟨0, 1⟩⟩] [2, 1, 3] = true := by
  rw [labelFirst_eq]
  unfold leaves compile RuleSet.compile
  rw [RuleSet.encode_eq_listed, Pass.session_eq_sessionIn 500]
  decide +kernel

theorem session_takes_handed_labelFirst :
    ∃ rules, labelFirst.compile false = .ok rules ∧ Token.Laid [⟨"1", ⟨0, 1⟩⟩] ∧
      (Pass.session (.ofRules rules [] 1000) [⟨"1", ⟨0, 1⟩⟩] [⟨"a", ⟨0, 1⟩⟩]).stats.dropped = 0 ∧
      (Pass.session (.ofRules rules [] 1000) [⟨"1", ⟨0, 1⟩⟩]
        [⟨"a", ⟨0, 1⟩⟩]).arena.entries.toList.map (·.symbol) = [2, 1, 3] ∧
      ∃ sources ids, Feed.Arranged [⟨"1", ⟨0, 1⟩⟩] [⟨"a", ⟨0, 1⟩⟩] sources ∧
        (Pass.session (.ofRules rules [] 1000) [⟨"1", ⟨0, 1⟩⟩] [⟨"a", ⟨0, 1⟩⟩]).arena.Stands
          (.ofRules rules [] 1000) [⟨"1", ⟨0, 1⟩⟩] 0
          ((Feed.handed rules [⟨"1", ⟨0, 1⟩⟩] sources).filterMap FeedItem.match?) ids := by
  have leaves := labelFirst_leaves
  unfold Grammar.leaves at leaves
  split at leaves
  · next rules compiled =>
    simp only [Bool.and_eq_true, beq_iff_eq] at leaves
    obtain ⟨whole, symbols⟩ := leaves
    have built : labelFirst.Built := .after (.after (.ofShards _) _) _
    have laid : Token.Laid [⟨"1", ⟨0, 1⟩⟩] := ⟨by decide, by decide⟩
    obtain ⟨⟨sources, arranged, _, stands⟩, _, _⟩ :=
      session_takes_handed built compiled [] 1000 laid [⟨"a", ⟨0, 1⟩⟩]
    obtain ⟨ids, stands⟩ := stands whole
    exact ⟨rules, compiled, laid, whole, symbols, sources, ids, arranged, stands⟩
  · cases leaves

end Grammar

end Phrasebook
