import Phrasebook.Proofs.Grammar.Recognition
import Phrasebook.Proofs.Session.Queueing

namespace Phrasebook

/-- Compiling a grammar keeps the built-in filters. -/
theorem Grammar.isFilter_builtin {g : Grammar} {withNames : Bool} {rules : RuleSet} (built : g.Built)
    (compiled : g.compile withNames = .ok rules) (fit : rules.buffer.size < wordBound)
    (b : Builtin) (known : b ∈ Builtin.filters) : rules.isFilter b.id = true := by
  obtain ⟨n, normal, isCompiled⟩ := compile_eq_ok compiled
  obtain ⟨p, rfl, holds, _⟩ := normalize_holds built normal g.reading
  obtain ⟨isBuffer, checked⟩ := RuleSet.ofBytes_eq_ok.mp isCompiled
  have laid : (RuleSet.Blocks.ofNormalForm p.normal withNames).Laid rules.buffer := by
    rw [isBuffer]
    exact RuleSet.Blocks.laid _
  rw [RuleSet.isFilter_eq laid (laid.fits fit checked.toReads), holds.filters]
  exact built.wellFormed.filters b known

/-- Every state that a pass goes through has a history, and with every history each match has been
queued once at most, no more matches have been propagated than there are, and the chart is linked
up from those that have been. -/
theorem Pass.chart_linked {g : Grammar} {withNames : Bool} {rules : RuleSet} (built : g.Built)
    (compiled : g.compile withNames = .ok rules) (fit : rules.buffer.size < wordBound)
    (locales : List Locale) (limit : Nat) (tokens : List Token) (labels : List Label) (a : Machine) :
    (Machine.Reaches (.ofRules rules locales limit) .collector
        (start (.ofRules rules locales limit) tokens labels) a →
      ∃ h, Machine.Records (.ofRules rules locales limit) .collector
        (start (.ofRules rules locales limit) tokens labels) a h) ∧
    ∀ h, Machine.Records (.ofRules rules locales limit) .collector
        (start (.ofRules rules locales limit) tokens labels) a h → a.Charted h :=
  ⟨fun reach => reach.exists_records, fun _ records =>
    records.charted (Grammar.isFilter_builtin built compiled fit) rfl rfl⟩

theorem Pass.chart_linked_oneTwo :
    ∃ rules, Grammar.oneTwo.compile false = .ok rules ∧
      ∃ h, Machine.Charted
        ⟨session (.ofRules rules [] 1000) (tokenize "1 2") [], []⟩ h := by
  have runs := Grammar.oneTwo_runsWhole
  unfold Grammar.runsWhole at runs
  split at runs
  · next rules compiled =>
    simp only [Bool.and_eq_true, decide_eq_true_eq] at runs
    have built : Grammar.oneTwo.Built := .after (.ofShards []) _
    obtain ⟨hasHistory, charted⟩ := chart_linked built compiled runs.1.1 [] 1000 (tokenize "1 2") []
      ⟨session (.ofRules rules [] 1000) (tokenize "1 2") [], []⟩
    obtain ⟨h, records⟩ := hasHistory (reaches_session _ _ _)
    exact ⟨rules, compiled, h, charted h records⟩
  · cases runs

end Phrasebook
