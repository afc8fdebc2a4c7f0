import Phrasebook.Proofs.Grammar.Supplying
import Phrasebook.Proofs.RuleSet.Listing
import Phrasebook.Proofs.Session.Evaluation
import Phrasebook.Proofs.Session.LeastChart

namespace Phrasebook

/-- What is reported before anything is dropped. -/
def Pass.reports (p : Pass) : List (UInt64 × Span) := p.candidates.map (·.report p.arena)

/-- What is reported, but for spans inside others of their rule. -/
def Pass.widestReports (p : Pass) : List (UInt64 × Span) :=
  (Derivation.deduplicate p.arena p.candidates).map (·.report p.arena)

/-- A head of a rule stands in one of the head sets. -/
theorem Setting.HasHead.mem_heads {setting : Setting} {h : Head} (isHead : setting.HasHead h) :
    ∃ set, h ∈ setting.rules.heads set := by
  rcases isHead with ⟨_, _, _, set, member, _⟩ | ⟨_, _, _, set, member, _⟩ |
    ⟨_, _, _, _, set, member, _⟩
  · exact ⟨set, member⟩
  · exact ⟨set, member⟩
  · exact ⟨set, member⟩

namespace Grammar

/-- No head of a compiled grammar excludes unless a rule does. -/
theorem heads_of_compile {g : Grammar} {withNames : Bool} {rules : RuleSet} (built : g.Built)
    (compiled : g.compile withNames = .ok rules) (fit : rules.buffer.size < wordBound)
    {callback : UInt32} (loud : callback ≠ ({} : Callback).id)
    (unused : ∀ rule ∈ g.rules, rule.options.callback.id ≠ callback) {set : Nat} {h : Head}
    (member : h ∈ rules.heads set) : h.callback.id ≠ callback := by
  obtain ⟨n, normal, isCompiled⟩ := compile_eq_ok compiled
  obtain ⟨p, rfl, holds, _⟩ := normalize_labels built normal
  rcases RuleSet.callback_of_mem_heads isCompiled fit member with plain | ⟨b, k, has, same⟩
  · rw [plain]
    exact loud.symm
  · rw [same]
    rcases holds.callbacks b k has with silent | ⟨rule, isRule, calls⟩
    · intro isThis
      simp only [Callback.isSilent, beq_iff_eq] at silent
      exact loud (isThis.symm.trans silent)
    · exact calls ▸ unused rule isRule

/-- A structural nonterminal that the grammar does not mention has no symbol. -/
theorem stop_of_compile {g : Grammar} {withNames : Bool} {rules : RuleSet} (built : g.Built)
    (compiled : g.compile withNames = .ok rules) (fit : rules.buffer.size < wordBound)
    (noStop : ∀ m ∈ g.nonterminals, m.name ≠ Structural.stop.name) :
    rules.layout.structural.stop = 0 := by
  obtain ⟨n, normal, isCompiled⟩ := compile_eq_ok compiled
  obtain ⟨p, rfl, holds, _⟩ := normalize_labels built normal
  obtain ⟨isBuffer, checked⟩ := RuleSet.ofBytes_eq_ok.mp isCompiled
  have laid : (RuleSet.Blocks.ofNormalForm p.normal withNames).Laid rules.buffer :=
    isBuffer ▸ RuleSet.Blocks.laid _
  have unused : p.normal.structural.get .stop = 0 := holds.get_eq_zero (by decide) noStop
  have slot := RuleSet.slot_eq laid fit (i := 1) (s := p.normal.structural.stop) rfl
  rw [checked.structural, RuleSet.Layout.slots, slot, show p.normal.structural.stop = 0 from unused]
  rfl

/-- Labels may be given in any order. Where a grammar has no exclusion and does not mention the end of
the text, two passes over one text that drop nothing, with the same labels in another order, report
the same spans for the same rules, and of these keep the same ones. -/
theorem reports_perm {g : Grammar} {withNames : Bool} {rules : RuleSet} (built : g.Built)
    (compiled : g.compile withNames = .ok rules) (fit : rules.buffer.size < wordBound)
    (unexcluded : ∀ rule ∈ g.rules, rule.options.callback.id ≠ Builtin.exclusion.id)
    (noStop : ∀ m ∈ g.nonterminals, m.name ≠ Structural.stop.name) (locales : List Locale)
    (limit : Nat) {tokens : List Token} (laid : Token.Laid tokens) {labels labels' : List Label}
    (perm : labels.Perm labels') (fitting : Feed.LabelsFit tokens labels)
    (whole : (Pass.run (.ofRules rules locales limit) tokens labels).stats.dropped = 0)
    (whole' : (Pass.run (.ofRules rules locales limit) tokens labels').stats.dropped = 0) :
    (∀ r, r ∈ (Pass.run (.ofRules rules locales limit) tokens labels).reports ↔
      r ∈ (Pass.run (.ofRules rules locales limit) tokens labels').reports) ∧
    (Pass.run (.ofRules rules locales limit) tokens labels).widestReports =
      (Pass.run (.ofRules rules locales limit) tokens labels').widestReports := by
  have heads (h : Head) (isHead : Setting.HasHead (.ofRules rules locales limit) h) :
      h.callback.id ≠ Builtin.exclusion.id := by
    obtain ⟨set, member⟩ := isHead.mem_heads
    exact heads_of_compile built compiled fit (by decide) unexcluded member
  have stop := stop_of_compile built compiled fit noStop
  have outcome : (Pass.session (.ofRules rules locales limit) tokens labels).outcome =
      (Pass.session (.ofRules rules locales limit) tokens labels').outcome :=
    Pass.outcome_eq_of_perm perm heads stop laid fitting whole whole'
  have mem_reports (labels : List Label) (r : UInt64 × Span) :
      r ∈ (Pass.run (.ofRules rules locales limit) tokens labels).reports ↔
        r ∈ (Pass.session (.ofRules rules locales limit) tokens labels).outcome.2 := by
    simp [Pass.reports, Pass.run, Pass.ofSession, Session.outcome]
  have same (r : UInt64 × Span) : r ∈ (Pass.run (.ofRules rules locales limit) tokens labels).reports ↔
      r ∈ (Pass.run (.ofRules rules locales limit) tokens labels').reports := by
    rw [mem_reports, mem_reports, outcome]
  exact ⟨same, Derivation.map_deduplicate_congr same⟩

/-- Two labels for one span, each with a rule of its own. -/
def labelPair : Grammar :=
  ((((ofShards []).after (.label "a" "<1>")).after (.label "b" "<2>")).after
    (.rule "<3>" ["<1>"] (.root 7))).after (.rule "<4>" ["<2>"] (.root 8))

theorem labelPair_eq : labelPair =
    { shards := [[]]
      nonterminals := #[⟨"<1>", some "a"⟩, ⟨"<2>", some "b"⟩, ⟨"<3>", none⟩, ⟨"<4>", none⟩]
      rules := #[⟨2, [.reference 0], .root 7, none⟩, ⟨3, [.reference 1], .root 8, none⟩]
      lists := #[[], [], [0], [1]] } := by
  unfold labelPair after Declaration.declare add addRule
  rw [distinct_eq_eraseDups]
  with_unfolding_all rfl

/-- Passes over one text drop nothing, and with these labels each reports this, in the order in which
it is found. -/
def reportsWhole (g : Grammar) (tokens : List Token)
    (runs : List (List Label × List (UInt64 × Span))) : Bool :=
  match g.compile false with
  | .ok rules =>
    decide (rules.buffer.size < wordBound) && runs.all fun (labels, reports) =>
      let p := Pass.run (.ofRules rules [] 1000) tokens labels
      p.stats.dropped == 0 && p.reports == reports
  | .error _ => false

theorem labelPair_reportsWhole :
    labelPair.reportsWhole [⟨"1", ⟨0, 1⟩⟩]
      [([⟨"a", ⟨0, 1⟩⟩, ⟨"b", ⟨0, 1⟩⟩], [(7, ⟨0, 1⟩), (8, ⟨0, 1⟩)]),
        ([⟨"b", ⟨0, 1⟩⟩, ⟨"a", ⟨0, 1⟩⟩], [(8, ⟨0, 1⟩), (7, ⟨0, 1⟩)])] = true := by
  rw [labelPair_eq]
  unfold reportsWhole compile RuleSet.compile Pass.run
  rw [RuleSet.encode_eq_listed, Pass.session_eq_sessionIn 500]
  decide +kernel

/-- The two labels are found in their order, and kept in the order of their rules. -/
theorem reports_perm_labelPair :
    ∃ rules, labelPair.compile false = .ok rules ∧
      (Pass.run (.ofRules rules [] 1000) [⟨"1", ⟨0, 1⟩⟩]
        [⟨"a", ⟨0, 1⟩⟩, ⟨"b", ⟨0, 1⟩⟩]).reports = [(7, ⟨0, 1⟩), (8, ⟨0, 1⟩)] ∧
      (Pass.run (.ofRules rules [] 1000) [⟨"1", ⟨0, 1⟩⟩]
        [⟨"b", ⟨0, 1⟩⟩, ⟨"a", ⟨0, 1⟩⟩]).reports = [(8, ⟨0, 1⟩), (7, ⟨0, 1⟩)] ∧
      (Pass.run (.ofRules rules [] 1000) [⟨"1", ⟨0, 1⟩⟩]
        [⟨"a", ⟨0, 1⟩⟩, ⟨"b", ⟨0, 1⟩⟩]).widestReports =
      (Pass.run (.ofRules rules [] 1000) [⟨"1", ⟨0, 1⟩⟩]
        [⟨"b", ⟨0, 1⟩⟩, ⟨"a", ⟨0, 1⟩⟩]).widestReports := by
  have whole := labelPair_reportsWhole
  unfold reportsWhole at whole
  split at whole
  · next rules compiled =>
    simp only [Bool.and_eq_true, decide_eq_true_eq, List.all_cons, List.all_nil, Bool.and_true,
      beq_iff_eq] at whole
    obtain ⟨fit, ⟨whole, isFirst⟩, whole', isSecond⟩ := whole
    have built : labelPair.Built := .after (.after (.after (.after (.ofShards _) _) _) _) _
    have laid : Token.Laid [⟨"1", ⟨0, 1⟩⟩] := ⟨by decide, by decide⟩
    have fitting : Feed.LabelsFit [⟨"1", ⟨0, 1⟩⟩] [⟨"a", ⟨0, 1⟩⟩, ⟨"b", ⟨0, 1⟩⟩] := by
      have ends : Feed.textEnd [⟨"1", ⟨0, 1⟩⟩] = 1 := by decide +kernel
      simp [Feed.LabelsFit, ends]
    have unexcluded : ∀ rule ∈ labelPair.rules,
        rule.options.callback.id ≠ Builtin.exclusion.id := by
      simp [labelPair_eq, RuleOptions.root, Builtin.id]
    have noStop : ∀ m ∈ labelPair.nonterminals, m.name ≠ Structural.stop.name := by
      simp [labelPair_eq, Structural.name]
    have kept := (reports_perm built compiled fit unexcluded noStop [] 1000 laid (.swap _ _ _)
      fitting whole whole').2
    exact ⟨rules, compiled, isFirst, isSecond, kept⟩
  · cases whole

end Grammar

end Phrasebook
