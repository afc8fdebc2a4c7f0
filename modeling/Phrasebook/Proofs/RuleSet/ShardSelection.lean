import Mathlib
import Phrasebook.RuleSet.Basic

namespace Phrasebook

namespace Locale

section
variable {a b c : Locale}

theorem supports_iff :
    a.supports b = true ↔ (a.language = "*" ∨ a.language = b.language) ∧
      (∀ part, a.script = some part → b.script = some part) ∧
      ∀ part, a.region = some part → b.region = some part := by
  have said (part other : Option String) : (part.isNone || part == other) = true ↔
      ∀ x, part = some x → other = some x := by
    cases part with
    | none => simp
    | some x =>
      rw [Option.isNone_some, Bool.false_or, beq_iff_eq]
      constructor
      · rintro rfl y isPart
        exact isPart
      · intro agrees
        exact (agrees x rfl).symm
  rw [supports, Bool.and_eq_true, Bool.and_eq_true, said, said, Bool.or_eq_true, isWildcard,
    beq_iff_eq, beq_iff_eq, and_assoc]

theorem supports_refl (a : Locale) : a.supports a = true :=
  supports_iff.mpr ⟨.inr rfl, fun _ => id, fun _ => id⟩

theorem supports_trans (ab : a.supports b = true) (bc : b.supports c = true) :
    a.supports c = true := by
  obtain ⟨language, script, region⟩ := supports_iff.mp ab
  obtain ⟨language', script', region'⟩ := supports_iff.mp bc
  apply supports_iff.mpr
  refine ⟨?_, fun part said => script' part (script part said),
    fun part said => region' part (region part said)⟩
  by_cases wildcard : a.language = "*"
  · exact .inl wildcard
  · have same : a.language = b.language := language.resolve_left wildcard
    exact .inr (same.trans (language'.resolve_left (same ▸ wildcard)))

theorem supports_antisymm (ab : a.supports b = true) (ba : b.supports a = true) : a = b := by
  obtain ⟨language, script, region⟩ := supports_iff.mp ab
  obtain ⟨language', script', region'⟩ := supports_iff.mp ba
  have sameLanguage : a.language = b.language := by
    rcases language with wildcard | same
    · rcases language' with wildcard' | same
      · exact wildcard.trans wildcard'.symm
      · exact same.symm
    · exact same
  have sameScript : a.script = b.script := Option.ext fun part => ⟨script part, script' part⟩
  have sameRegion : a.region = b.region := Option.ext fun part => ⟨region part, region' part⟩
  exact Locale.ext sameLanguage sameScript sameRegion

end

theorem anySupports_iff {tags texts : List Locale} :
    anySupports tags texts = true ↔
      tags = [] ∨ ∃ tag ∈ tags, ∃ text ∈ texts, tag.supports text = true := by
  simp [anySupports]

/-- Rules that take part still do when each locale of the text makes way for one that it
supports. -/
theorem anySupports_mono {tags texts others : List Locale}
    (narrowed : ∀ text ∈ texts, ∃ other ∈ others, text.supports other = true)
    (active : anySupports tags texts = true) : anySupports tags others = true := by
  apply anySupports_iff.mpr
  rcases anySupports_iff.mp active with untagged | ⟨tag, isTag, text, isText, supports⟩
  · exact .inl untagged
  · obtain ⟨other, isOther, narrower⟩ := narrowed text isText
    exact .inr ⟨tag, isTag, other, isOther, supports_trans supports narrower⟩

end Locale

namespace RuleSet

section
variable {r : RuleSet} {texts others : List Locale}

theorem mem_selectShards {shard : Nat} :
    shard ∈ r.selectShards texts ↔
      shard < r.shardCount ∧ Locale.anySupports (r.shardLocales shard) texts = true := by
  rw [selectShards, List.mem_filter, List.mem_range]

theorem pairwise_selectShards : (r.selectShards texts).Pairwise (· < ·) :=
  List.pairwise_lt_range.filter _

theorem selectShards_mono
    (narrowed : ∀ text ∈ texts, ∃ other ∈ others, text.supports other = true) :
    r.selectShards texts ⊆ r.selectShards others := by
  intro shard selected
  obtain ⟨inRange, active⟩ := mem_selectShards.mp selected
  exact mem_selectShards.mpr ⟨inRange, Locale.anySupports_mono narrowed active⟩

end

/-- Support is a partial order, and the selected shards grow along it and with the locales of the
text. They come in order, and shards without tags are always among them. -/
theorem selectShards_follows_supports :
    (∀ a : Locale, a.supports a = true) ∧
    (∀ a b : Locale, a.supports b = true → b.supports a = true → a = b) ∧
    (∀ a b c : Locale, a.supports b = true → b.supports c = true → a.supports c = true) ∧
    ∀ r : RuleSet,
      (∀ before text other after, text.supports other = true →
        r.selectShards (before ++ text :: after) ⊆ r.selectShards (before ++ other :: after)) ∧
      (∀ texts more, texts ⊆ more → r.selectShards texts ⊆ r.selectShards more) ∧
      ∀ texts, (r.selectShards texts).Pairwise (· < ·) ∧
        ∀ shard < r.shardCount, r.shardLocales shard = [] → shard ∈ r.selectShards texts := by
  refine ⟨Locale.supports_refl, fun _ _ => Locale.supports_antisymm,
    fun _ _ _ => Locale.supports_trans, fun r => ⟨?_, ?_, ?_⟩⟩
  · intro before text other after narrower
    apply selectShards_mono
    intro locale member
    by_cases replaced : locale = text
    · exact ⟨other, by simp, replaced ▸ narrower⟩
    · refine ⟨locale, ?_, Locale.supports_refl locale⟩
      simpa [replaced] using Or.imp_right Or.inr (List.mem_append.mp member)
  · intro texts more included
    apply selectShards_mono
    intro locale member
    exact ⟨locale, included member, Locale.supports_refl locale⟩
  · intro texts
    refine ⟨pairwise_selectShards, fun shard inRange untagged => ?_⟩
    exact mem_selectShards.mpr ⟨inRange, Locale.anySupports_iff.mpr (.inl untagged)⟩

/-- Four shards: one for every text, one for German, one for Switzerland and one for French. -/
def tagged : RuleSet where
  buffer := #[]
  layout :=
    { hasNames := false
      symbolCount := 0
      terminals := {}
      strings := {}
      records := {}
      sets := {}
      filters := {}
      labels := {}
      names := {}
      structural := {}
      shards := [{}, { locales := [.german] },
        { locales := [{ language := "*", region := some "CH" }] },
        { locales := [{ language := "fr" }] }] }

/-- German text loses no shard when it turns out to be Swiss, or to have French in it. -/
theorem selectShards_follows_supports_tagged :
    ({ language := "*" } : Locale).supports { language := "zh", script := "Hant", region := "TW" } ∧
      tagged.selectShards [{ language := "de" }] = [0, 1] ∧
      tagged.selectShards [{ language := "de", region := "CH" }] = [0, 1, 2] ∧
      tagged.selectShards [{ language := "de" }] ⊆
        tagged.selectShards [{ language := "de", region := "CH" }] ∧
      tagged.selectShards [{ language := "de" }] ⊆
        tagged.selectShards [{ language := "fr" }, { language := "de" }] ∧
      0 ∈ tagged.selectShards [{ language := "fr" }] := by
  obtain ⟨_, _, trans, selection⟩ := selectShards_follows_supports
  obtain ⟨replaced, added, listed⟩ := selection tagged
  have chinese : ({ language := "*" } : Locale).supports
      { language := "zh", script := "Hant", region := "TW" } :=
    trans _ { language := "zh", script := "Hant" } _ (by decide) (by decide)
  exact ⟨chinese, by decide, by decide, replaced [] _ _ [] (by decide), added _ _ (by simp),
    (listed _).2 0 (by decide) rfl⟩

end RuleSet

end Phrasebook
