import Phrasebook.Proofs.Grammar.Recognition
import Phrasebook.Proofs.RuleSet.Listing
import Phrasebook.Proofs.RuleSet.Lossless

namespace Phrasebook

namespace Grammar

/-- What a grammar names can be written and read back. -/
theorem Progress.Tidy.legible {g : Grammar} {p : Progress} (formed : g.WellFormed)
    (tidy : p.Tidy g) (clean : ∀ name ∈ p.normal.labels, NulFree name) :
    RuleSet.Legible p.normal := by
  refine ⟨fun name s isLabel => ⟨clean name ?_, tidy.labels_le name s isLabel⟩,
    fun s name isName => ?_⟩
  · rw [Std.TreeMap.mem_iff_isSome_getElem?, isLabel]
    rfl
  · obtain ⟨le, n, isNonterminal, rfl⟩ := tidy.names s name isName
    exact ⟨formed.clean n isNonterminal, le⟩

/-- The normal form of every grammar can be stored, and storing it loses nothing, as long as labels
have no NUL and symbols and offsets fit in their fields. -/
theorem normalize_lossless {g : Grammar} {n : NormalForm} (built : g.Built)
    (normal : g.normalize = .ok n) (few : n.symbolCount < 2 ^ 31)
    (clean : ∀ name ∈ n.labels, NulFree name) (withNames : Bool)
    (fit : (RuleSet.encode n withNames).length < wordBound) :
    ∃ r, RuleSet.compile n withNames = .ok r ∧ RuleSet.Lossless n withNames r := by
  obtain ⟨p, rfl, holds, _⟩ := normalize_holds built normal g.reading
  have legible := holds.legible built.wellFormed clean
  obtain ⟨r, compiled, isCompiled⟩ :=
    RuleSet.exists_compiled holds.bounded few (fun s => holds.slot_le) legible fit
  exact ⟨r, compiled, isCompiled.lossless legible⟩

/-- A grammar with a shard for a locale and a label. -/
def oneLabel : Grammar :=
  ((ofShards [[], [.german]]).after (.label "l" "<2>")).after
    (.rule "<1>" ["1", "<2>"] { RuleOptions.root 7 with shard := 1, gap := -2 })

/-- The normal form exists and stays within the limits of what is stored. -/
def fitsStorage (g : Grammar) (withNames : Bool) : Bool :=
  match g.normalize with
  | .ok n =>
    decide (n.symbolCount < 2 ^ 31) && n.labels.keys.all (!·.toList.contains '\x00') &&
      decide ((RuleSet.encode n withNames).length < wordBound)
  | .error _ => false

theorem oneLabel_fitsStorage : oneLabel.fitsStorage true = true := by
  unfold fitsStorage oneLabel after Declaration.declare add addRule
  rw [distinct_eq_eraseDups, RuleSet.encode_eq_listed]
  decide +kernel

theorem normalize_lossless_oneLabel :
    ∃ n, oneLabel.normalize = .ok n ∧ ∃ r, RuleSet.compile n true = .ok r ∧
      RuleSet.Lossless n true r := by
  have fits := oneLabel_fitsStorage
  unfold fitsStorage at fits
  split at fits
  · next n normal =>
    simp only [Bool.and_eq_true, decide_eq_true_eq, List.all_eq_true, Bool.not_eq_true'] at fits
    obtain ⟨⟨few, clean⟩, fit⟩ := fits
    have built : oneLabel.Built := .after (.after (.ofShards _) _) _
    refine ⟨n, normal, normalize_lossless built normal few (fun name member => ?_) true fit⟩
    simpa [NulFree] using clean name (Std.TreeMap.mem_keys.mpr member)
  · cases fits

end Grammar

end Phrasebook
