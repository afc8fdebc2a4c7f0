import Phrasebook.Locale
import Phrasebook.Proofs.Text.NulFree

namespace Phrasebook

section
variable {isMark : Char → Bool} {part : List Char}

theorem splitAt_of_solid (solid : ∀ c ∈ part, isMark c = false) : splitAt isMark part = [part] := by
  induction part with
  | nil => rfl
  | cons c rest ih =>
    obtain ⟨here, later⟩ := List.forall_mem_cons.mp solid
    rw [splitAt, ih later, here]
    rfl

theorem splitAt_append (solid : ∀ c ∈ part, isMark c = false) {mark : Char}
    (isMarked : isMark mark = true) (rest : List Char) :
    splitAt isMark (part ++ mark :: rest) = part :: splitAt isMark rest := by
  induction part with
  | nil =>
    rw [List.nil_append, splitAt, isMarked]
    rfl
  | cons c others ih =>
    obtain ⟨here, later⟩ := List.forall_mem_cons.mp solid
    rw [List.cons_append, splitAt, ih later, here]
    rfl

end

theorem splitAt_intercalate {isMark : Char → Bool} {mark : Char} (isMarked : isMark mark = true)
    {first : List Char} {rest : List (List Char)}
    (solid : ∀ part ∈ first :: rest, ∀ c ∈ part, isMark c = false) :
    splitAt isMark ([mark].intercalate (first :: rest)) = first :: rest := by
  induction rest generalizing first with
  | nil =>
    rw [List.intercalate_singleton]
    exact splitAt_of_solid (solid first List.mem_cons_self)
  | cons next rest ih =>
    rw [List.intercalate_cons_cons, List.append_assoc, List.singleton_append,
      splitAt_append (solid first List.mem_cons_self) isMarked,
      ih fun part member => solid part (List.mem_cons_of_mem _ member)]

theorem mem_intercalate {mark c : Char} {parts : List (List Char)}
    (member : c ∈ [mark].intercalate parts) : c = mark ∨ ∃ part ∈ parts, c ∈ part := by
  induction parts with
  | nil => cases member
  | cons first rest ih =>
    cases rest with
    | nil =>
      rw [List.intercalate_singleton] at member
      exact .inr ⟨first, List.mem_cons_self, member⟩
    | cons next rest =>
      rw [List.intercalate_cons_cons, List.append_assoc, List.mem_append, List.singleton_append,
        List.mem_cons] at member
      rcases member with here | rfl | later
      · exact .inr ⟨first, List.mem_cons_self, here⟩
      · exact .inl rfl
      · rcases ih later with isMark | ⟨part, isPart, inPart⟩
        · exact .inl isMark
        · exact .inr ⟨part, List.mem_cons_of_mem _ isPart, inPart⟩

theorem Unicode.trimBlanks_of_solid {text : List Char} (solid : ∀ c ∈ text, isBlank c = false) :
    trimBlanks text = text := by
  have keeps {part : List Char} (solid : ∀ c ∈ part, isBlank c = false) :
      part.dropWhile isBlank = part := by
    cases part with
    | nil => rfl
    | cons c rest => rw [List.dropWhile_cons, solid c List.mem_cons_self]; rfl
  rw [trimBlanks, keeps solid, keeps (by simpa using solid), List.reverse_reverse]

theorem Unicode.trimBlanks_cons {c : Char} (solid : isBlank c = false) (rest : List Char) :
    ∃ tail, trimBlanks (c :: rest) = c :: tail := by
  rw [trimBlanks, List.dropWhile_cons_of_neg (by simp [solid]), List.reverse_cons,
    List.dropWhile_append]
  split_ifs
  · exact ⟨[], by simp [solid]⟩
  · exact ⟨_, by rw [List.reverse_append]; rfl⟩

namespace Locale

/-- What the parts of a tag are made of. -/
def isTagChar (c : Char) : Bool := c.isAlpha || c.isDigit || c == '*'

section
variable {c : Char}

theorem isTagChar_range (h : isTagChar c = true) :
    (65 ≤ c.toNat ∧ c.toNat ≤ 90) ∨ (97 ≤ c.toNat ∧ c.toNat ≤ 122) ∨
      (48 ≤ c.toNat ∧ c.toNat ≤ 57) ∨ c.toNat = 42 := by
  simp only [isTagChar, Char.isAlpha, Char.isUpper, Char.isLower, Char.isDigit, Bool.or_eq_true,
    Bool.and_eq_true, decide_eq_true_eq, beq_iff_eq, ge_iff_le, UInt32.le_iff_toNat_le] at h
  rcases h with ((h | h) | h) | rfl
  · exact .inl h
  · exact .inr (.inl h)
  · exact .inr (.inr (.inl h))
  · exact .inr (.inr (.inr rfl))

theorem isSeparator_of_isTagChar (h : isTagChar c = true) : isSeparator c = false := by
  have range := isTagChar_range h
  simp only [isSeparator, Bool.or_eq_false_iff, beq_eq_false_iff_ne, ne_eq]
  constructor
  · rintro rfl
    simp at range
  · rintro rfl
    simp at range

theorem isBlank_of_isTagChar (h : isTagChar c = true) : Unicode.isBlank c = false := by
  have range := isTagChar_range h
  unfold Unicode.isBlank
  generalize c.toNat = n at range
  simp only [Bool.or_eq_false_iff, Bool.and_eq_false_iff, decide_eq_false_iff_not,
    beq_eq_false_iff_ne]
  omega

theorem ne_nul_of_isTagChar (h : isTagChar c = true) : c ≠ '\x00' := by
  rintro rfl
  cases h

end

/-- The parts are well formed and in canonical letter case. -/
structure Tag.Canonical (l : Tag) : Prop where
  language : isLanguage l.language.toList = true ∧
    l.language.toList.map Char.toLower = l.language.toList
  script : ∀ part, l.script = some part →
    isScript part.toList = true ∧ capitalise part.toList = part.toList
  region : ∀ part, l.region = some part →
    isRegion part.toList = true ∧ part.toList.map Char.toUpper = part.toList

section
variable {part : List Char}

theorem isLanguage_lower (h : isLanguage part = true) : isLanguage (part.map Char.toLower) = true := by
  unfold isLanguage at h ⊢
  by_cases star : part = ['*']
  · subst star
    rfl
  · simp only [beq_eq_false_iff_ne.mpr star, Bool.false_or, Bool.and_eq_true, List.all_eq_true] at h
    simp only [Bool.or_eq_true, Bool.and_eq_true, List.length_map, List.all_map, List.all_eq_true,
      Function.comp, Char.isAlpha_toLower_eq_isAlpha]
    exact .inr (by simpa using h)

theorem isScript_capitalise (h : isScript part = true) : isScript (capitalise part) = true := by
  unfold isScript at h ⊢
  cases part with
  | nil => cases h
  | cons c rest =>
    simpa [capitalise, Char.isAlpha_toLower_eq_isAlpha, Char.isAlpha_toUpper_eq_isAlpha] using h

theorem toUpper_of_isDigit {c : Char} (h : c.isDigit = true) : c.toUpper = c := by
  apply Char.toUpper_eq_of_not_isLower
  simp only [Char.isDigit, Char.isLower, Bool.and_eq_true, decide_eq_true_eq, ge_iff_le,
    UInt32.le_iff_toNat_le, Char.reduceVal, UInt32.reduceToNat] at h ⊢
  omega

theorem isRegion_upper (h : isRegion part = true) : isRegion (part.map Char.toUpper) = true := by
  unfold isRegion at h ⊢
  simp only [Bool.or_eq_true, Bool.and_eq_true, List.all_eq_true] at h
  rcases h with ⟨length, letters⟩ | ⟨length, digits⟩
  · have alpha : (part.map Char.toUpper).all Char.isAlpha = true := by
      simpa [Char.isAlpha_toUpper_eq_isAlpha] using letters
    rw [List.length_map, length, alpha]
    rfl
  · have same : part.map Char.toUpper = part := by
      refine (List.map_congr_left fun c member => ?_).trans (List.map_id part)
      exact toUpper_of_isDigit (digits c member)
    rw [same, List.all_eq_true.mpr digits, length]
    simp

theorem capitalise_capitalise (part : List Char) : capitalise (capitalise part) = capitalise part := by
  cases part with
  | nil => rfl
  | cons c rest => simp [capitalise, Char.toLower_toLower_eq_toLower]

theorem Tag.canonical_ofParts {language : List Char} {script region : Option (List Char)}
    (isLanguage : isLanguage language = true) (isScript : ∀ part ∈ script, isScript part = true)
    (isRegion : ∀ part ∈ region, isRegion part = true) :
    (ofParts language script region).Canonical := by
  refine ⟨?_, ?_, ?_⟩
  · simp only [ofParts, String.toList_ofList, List.map_map]
    refine ⟨isLanguage_lower isLanguage, List.map_congr_left fun c _ => ?_⟩
    exact Char.toLower_toLower_eq_toLower c
  · intro part found
    obtain ⟨raw, isRaw, rfl⟩ := Option.map_eq_some_iff.mp found
    rw [String.toList_ofList]
    exact ⟨isScript_capitalise (isScript raw isRaw), capitalise_capitalise raw⟩
  · intro part found
    obtain ⟨raw, isRaw, rfl⟩ := Option.map_eq_some_iff.mp found
    rw [String.toList_ofList, List.map_map]
    refine ⟨isRegion_upper (isRegion raw isRaw), List.map_congr_left fun c _ => ?_⟩
    exact Char.toUpper_toUpper_eq_toUpper c

end

theorem not_isScript_of_isRegion {part : List Char} (h : isRegion part = true) :
    isScript part = false := by
  simp only [isRegion, Bool.or_eq_true, Bool.and_eq_true, beq_iff_eq] at h
  simp only [isScript, Bool.and_eq_false_iff, beq_eq_false_iff_ne]
  omega

/-- The parts that make a tag, and the tag that they make. -/
theorem Tag.readParts_eq_some_iff {parts : List (List Char)} {l : Tag} :
    readParts parts = some l ↔
      ∃ language script region, isLanguage language = true ∧
        (∀ part ∈ script, isScript part = true) ∧ (∀ part ∈ region, isRegion part = true) ∧
        parts = language :: (script.toList ++ region.toList) ∧
        l = ofParts language script region := by
  constructor
  · intro found
    unfold readParts at found
    split at found
    · split at found
      · next language isLanguage =>
        exact ⟨language, none, none, isLanguage, by simp, by simp, rfl,
          (Option.some.inj found).symm⟩
      · cases found
    · next language part =>
      split_ifs at found with notLanguage isScript isRegion
      · exact ⟨language, some part, none, by simpa using notLanguage, by simpa using isScript,
          by simp, rfl, (Option.some.inj found).symm⟩
      · exact ⟨language, none, some part, by simpa using notLanguage, by simp,
          by simpa using isRegion, rfl, (Option.some.inj found).symm⟩
    · next language script region =>
      split at found
      · next all =>
        simp only [Bool.and_eq_true] at all
        exact ⟨language, some script, some region, all.1.1, by simpa using all.1.2,
          by simpa using all.2, rfl, (Option.some.inj found).symm⟩
      · cases found
    · cases found
  · rintro ⟨language, script, region, isLanguage, isScript, isRegion, rfl, rfl⟩
    cases script with
    | none =>
      cases region with
      | none => simp [readParts, isLanguage]
      | some region =>
        have isRegion := isRegion region rfl
        simp [readParts, isLanguage, not_isScript_of_isRegion isRegion, isRegion]
    | some script =>
      have isScript := isScript script rfl
      cases region with
      | none => simp [readParts, isLanguage, isScript]
      | some region => simp [readParts, isLanguage, isScript, isRegion region rfl]

theorem toTag_inj {l m : Locale} : l.toTag = m.toTag ↔ l = m := by
  cases l
  cases m
  simp

theorem readParts_eq_some_iff {parts : List (List Char)} {l : Locale} :
    readParts parts = some l ↔ Tag.readParts parts = some l.toTag := by
  simp [readParts, ← toTag_inj, Option.map_eq_some_iff]

/-- What is read is what the trimmed tag says. -/
theorem read_eq_ok_iff {tag : String} {l : Locale} :
    read tag = .ok l ↔
      Tag.readParts (splitAt isSeparator (Unicode.trimBlanks tag.toList)) = some l.toTag := by
  rw [← readParts_eq_some_iff]
  unfold read
  cases trimmed : Unicode.trimBlanks tag.toList with
  | nil =>
    constructor
    · intro h; cases h
    · intro h; cases h
  | cons c rest =>
    dsimp only [List.isEmpty_cons]
    rw [if_neg Bool.false_ne_true]
    split
    · next locale isParts => rw [isParts]; simp
    · next none => rw [none]; simp

/-- No tag begins with `-`. -/
theorem read_dash (text : List Char) : ∃ e, read (String.ofList ('-' :: text)) = .error e := by
  cases found : read (String.ofList ('-' :: text)) with
  | error e => exact ⟨e, rfl⟩
  | ok l =>
    obtain ⟨tail, trimmed⟩ := Unicode.trimBlanks_cons (c := '-') rfl text
    rw [read_eq_ok_iff, String.toList_ofList, trimmed, Tag.readParts_eq_some_iff] at found
    obtain ⟨language, script, region, isLanguage, _, _, parts, _⟩ := found
    obtain ⟨rfl, _⟩ := List.cons.inj parts
    cases isLanguage

theorem readList_dash {tags : String} {text : List Char} (dash : tags.toList = '-' :: text) :
    ∃ e, readList tags = .error e := by
  obtain ⟨part, parts, split⟩ : ∃ part parts,
      splitAt (· == ',') ('-' :: text) = ('-' :: part) :: parts := by
    cases later : splitAt (· == ',') text with
    | nil => exact ⟨[], [], by rw [splitAt, later]; rfl⟩
    | cons part parts => exact ⟨part, parts, by rw [splitAt, later]; rfl⟩
  obtain ⟨tail, trimmed⟩ := Unicode.trimBlanks_cons (c := '-') rfl part
  obtain ⟨e, failed⟩ := read_dash tail
  exists e
  rw [readList, dash, split, List.map_cons, trimmed, List.filter_cons_of_pos rfl, List.mapM_cons,
    failed]
  rfl

/-- What is read is canonical. -/
theorem canonical (l : Locale) : l.toTag.Canonical := by
  obtain ⟨parts, isRead⟩ := l.isRead
  obtain ⟨language, script, region, isLanguage, isScript, isRegion, _, isTag⟩ :=
    Tag.readParts_eq_some_iff.mp isRead
  exact isTag ▸ Tag.canonical_ofParts isLanguage isScript isRegion

theorem isTagChar_of_isLanguage {part : List Char} (h : isLanguage part = true) :
    ∀ c ∈ part, isTagChar c = true := by
  intro c member
  simp only [isLanguage, Bool.or_eq_true, Bool.and_eq_true, beq_iff_eq, List.all_eq_true] at h
  rcases h with rfl | ⟨_, letters⟩
  · simp [isTagChar, List.mem_singleton.mp member]
  · simp [isTagChar, letters c member]

theorem isTagChar_of_isScript {part : List Char} (h : isScript part = true) :
    ∀ c ∈ part, isTagChar c = true := by
  intro c member
  simp only [isScript, Bool.and_eq_true, List.all_eq_true] at h
  simp [isTagChar, h.2 c member]

theorem isTagChar_of_isRegion {part : List Char} (h : isRegion part = true) :
    ∀ c ∈ part, isTagChar c = true := by
  intro c member
  simp only [isRegion, Bool.or_eq_true, Bool.and_eq_true, List.all_eq_true] at h
  rcases h with ⟨_, letters⟩ | ⟨_, digits⟩
  · simp [isTagChar, letters c member]
  · simp [isTagChar, digits c member]

section
variable (l : Locale)

theorem solid_parts : ∀ part ∈ l.parts, ∀ c ∈ part.toList, isTagChar c = true := by
  intro part member
  simp only [Tag.parts, List.mem_cons, List.mem_append, Option.mem_toList] at member
  rcases member with rfl | isScript | isRegion
  · exact isTagChar_of_isLanguage l.canonical.language.1
  · exact isTagChar_of_isScript (l.canonical.script part isScript).1
  · exact isTagChar_of_isRegion (l.canonical.region part isRegion).1

/-- A tag is its parts with dashes between them. -/
theorem toList_display : l.display.toList = ['-'].intercalate (l.parts.map String.toList) :=
  String.toList_intercalate

theorem readParts_parts : Tag.readParts (l.parts.map String.toList) = some l.toTag := by
  have canonical := l.canonical
  apply Tag.readParts_eq_some_iff.mpr
  refine ⟨l.language.toList, l.script.map String.toList, l.region.map String.toList,
    canonical.language.1, ?_, ?_, by simp [Tag.parts, Option.toList_map], ?_⟩
  · intro part isPart
    obtain ⟨script, isScript, rfl⟩ := Option.map_eq_some_iff.mp isPart
    exact (canonical.script script isScript).1
  · intro part isPart
    obtain ⟨region, isRegion, rfl⟩ := Option.map_eq_some_iff.mp isPart
    exact (canonical.region region isRegion).1
  · have same {part : String} {f : List Char → List Char} (fixed : f part.toList = part.toList) :
        String.ofList (f part.toList) = part := by
      rw [fixed, String.ofList_toList]
    obtain ⟨⟨language, script, region⟩, _⟩ := l
    obtain ⟨⟨_, lower⟩, titled, upper⟩ := canonical
    rw [Tag.ofParts, same lower, Option.map_map, Option.map_map, Tag.mk.injEq]
    refine ⟨rfl, ?_, ?_⟩
    · exact Option.map_id'.symm.trans
        (Option.map_congr fun part isPart => (same (titled part isPart).2).symm)
    · exact Option.map_id'.symm.trans
        (Option.map_congr fun part isPart => (same (upper part isPart).2).symm)

theorem solid_display {c : Char} (member : c ∈ l.display.toList) :
    c = '-' ∨ isTagChar c = true := by
  rw [toList_display] at member
  rcases mem_intercalate member with dash | ⟨part, isPart, inPart⟩
  · exact .inl dash
  · obtain ⟨shown, isShown, rfl⟩ := List.mem_map.mp isPart
    exact .inr (l.solid_parts shown isShown c inPart)

/-- The tag that a locale shows is read back. -/
theorem read_display : read l.display = .ok l := by
  have trimmed : Unicode.trimBlanks l.display.toList = l.display.toList := by
    apply Unicode.trimBlanks_of_solid
    intro c member
    rcases l.solid_display member with rfl | isTagChar
    · rfl
    · exact isBlank_of_isTagChar isTagChar
  have split : splitAt isSeparator l.display.toList = l.parts.map String.toList := by
    rw [toList_display]
    refine splitAt_intercalate rfl fun part member c inPart => ?_
    have isPart : part ∈ l.parts.map String.toList := member
    obtain ⟨shown, isShown, rfl⟩ := List.mem_map.mp isPart
    exact isSeparator_of_isTagChar (l.solid_parts shown isShown c inPart)
  rw [read_eq_ok_iff, trimmed, split]
  exact l.readParts_parts

theorem nulFree_display : NulFree l.display := by
  intro member
  rcases l.solid_display member with dash | isTagChar
  · cases dash
  · exact ne_nul_of_isTagChar isTagChar rfl

end

end Locale

end Phrasebook
