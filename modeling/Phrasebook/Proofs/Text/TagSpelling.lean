import Phrasebook.Proofs.RuleSet.Verified
import Phrasebook.Proofs.Text.LocaleTags

namespace Phrasebook

namespace Locale

/-- The parts of a tag with `-` or `_` between each two. -/
inductive Joined : List (List Char) → List Char → Prop
  | last (part : List Char) : Joined [part] part
  | next (part : List Char) {tail : List Char} {rest : List (List Char)} {mark : Char}
      (separates : mark = '-' ∨ mark = '_') (later : Joined rest tail) :
      Joined (part :: rest) (part ++ mark :: tail)

/-- So many characters, all of one sort. -/
def Consists (length : Nat) (sort : Char → Bool) (part : List Char) : Prop :=
  part.length = length ∧ ∀ c ∈ part, sort c = true

/-- A language, then perhaps a script, then perhaps a region. -/
def IsTag (text : List Char) : Prop :=
  ∃ (language : List Char) (script region : Option (List Char)),
    (language = ['*'] ∨ Consists 2 Char.isAlpha language ∨ Consists 3 Char.isAlpha language) ∧
    (∀ part ∈ script, Consists 4 Char.isAlpha part) ∧
    (∀ part ∈ region, Consists 2 Char.isAlpha part ∨ Consists 3 Char.isDigit part) ∧
    Joined (language :: (script.toList ++ region.toList)) text

section
variable {part : List Char}

theorem isLanguage_iff : isLanguage part = true ↔
    part = ['*'] ∨ Consists 2 Char.isAlpha part ∨ Consists 3 Char.isAlpha part := by
  simp [isLanguage, Consists, or_and_right]

theorem isScript_iff : isScript part = true ↔ Consists 4 Char.isAlpha part := by
  simp [isScript, Consists]

theorem isRegion_iff : isRegion part = true ↔
    Consists 2 Char.isAlpha part ∨ Consists 3 Char.isDigit part := by
  simp [isRegion, Consists]

theorem isSeparator_iff {c : Char} : isSeparator c = true ↔ c = '-' ∨ c = '_' := by
  simp [isSeparator]

end

/-- Splitting a text yields parts that it joins. -/
theorem joined_splitAt (text : List Char) : Joined (splitAt isSeparator text) text := by
  induction text with
  | nil => exact .last []
  | cons c rest ih =>
    rw [splitAt]
    split
    · next separates => exact .next [] (isSeparator_iff.mp separates) ih
    · split
      · next none =>
        rw [none] at ih
        cases ih
      · next part parts found =>
        rw [found] at ih
        cases ih with
        | last => exact .last _
        | next _ separates later => exact .next (c :: part) separates later

/-- Joined parts are found again if none of them holds a separator. -/
theorem Joined.splitAt_eq {parts : List (List Char)} {text : List Char} (joined : Joined parts text)
    (solid : ∀ part ∈ parts, ∀ c ∈ part, isSeparator c = false) :
    splitAt isSeparator text = parts := by
  induction joined with
  | last part => exact splitAt_of_solid (solid part List.mem_cons_self)
  | next _ separates later ih =>
    obtain ⟨here, others⟩ := List.forall_mem_cons.mp solid
    rw [splitAt_append here (isSeparator_iff.mpr separates), ih others]

/-- Some locale is read from exactly those texts that have the form of a tag when trimmed. -/
theorem exists_read_iff {tag : String} :
    (∃ l, read tag = .ok l) ↔ IsTag (Unicode.trimBlanks tag.toList) := by
  constructor
  · intro ⟨_, isRead⟩
    obtain ⟨language, script, region, isLanguage, isScript, isRegion, parts, _⟩ :=
      Tag.readParts_eq_some_iff.mp (read_eq_ok_iff.mp isRead)
    refine ⟨language, script, region, isLanguage_iff.mp isLanguage, ?_, ?_, ?_⟩
    · intro part member
      exact isScript_iff.mp (isScript part member)
    · intro part member
      exact isRegion_iff.mp (isRegion part member)
    · rw [← parts]
      exact joined_splitAt _
  · intro ⟨language, script, region, isLanguage, isScript, isRegion, joined⟩
    rw [← isLanguage_iff] at isLanguage
    simp only [← isScript_iff, ← isRegion_iff] at isScript isRegion
    have split : splitAt isSeparator (Unicode.trimBlanks tag.toList) =
        language :: (script.toList ++ region.toList) := by
      apply joined.splitAt_eq
      intro part member c inPart
      apply isSeparator_of_isTagChar
      simp only [List.mem_cons, List.mem_append, Option.mem_toList] at member
      rcases member with rfl | member | member
      · exact isTagChar_of_isLanguage isLanguage c inPart
      · exact isTagChar_of_isScript (isScript part member) c inPart
      · exact isTagChar_of_isRegion (isRegion part member) c inPart
    have isTag := Tag.readParts_eq_some_iff.mpr
      ⟨language, script, region, isLanguage, isScript, isRegion, split, rfl⟩
    exact ⟨⟨_, _, isTag⟩, read_eq_ok_iff.mpr isTag⟩

/-- The same but for the case of a letter, or both separators. -/
def Alike (c d : Char) : Prop :=
  c.toLower = d.toLower ∨ ((c = '-' ∨ c = '_') ∧ (d = '-' ∨ d = '_'))

/-- The other text is the tag in any letter case and with any separators, with blanks around it. -/
def Respelled (tag other : String) : Prop :=
  ∃ before middle after, other.toList = before ++ middle ++ after ∧
    (∀ c ∈ before ++ after, Unicode.isBlank c = true) ∧ List.Forall₂ Alike tag.toList middle

/-- What spellings of a tag have in common. -/
def fold (c : Char) : Char := if isSeparator c then '-' else c.toLower

section
variable {c : Char}

theorem toLower_of_not_isAlpha (other : c.isAlpha = false) : c.toLower = c := by
  apply Char.toLower_eq_of_not_isUpper
  intro upper
  simp [Char.isAlpha, upper] at other

/-- What holds of no letter does not depend on case. -/
theorem of_toLower {p : Char → Bool} (noLetter : ∀ c, c.isAlpha = true → p c = false) (c : Char) :
    p c.toLower = p c := by
  by_cases letter : c.isAlpha = true
  · rw [noLetter c letter, noLetter]
    rw [Char.isAlpha_toLower_eq_isAlpha, letter]
  · rw [toLower_of_not_isAlpha (Bool.eq_false_iff.mpr letter)]

theorem isTagChar_of_isAlpha (letter : c.isAlpha = true) : isTagChar c = true := by
  simp [isTagChar, letter]

theorem isDigit_toLower (c : Char) : c.toLower.isDigit = c.isDigit := by
  apply of_toLower
  intro d letter
  rw [Bool.eq_false_iff]
  intro digit
  simp only [Char.isAlpha, Char.isUpper, Char.isLower, Char.isDigit, Bool.or_eq_true,
    Bool.and_eq_true, decide_eq_true_eq, ge_iff_le, UInt32.le_iff_toNat_le, Char.reduceVal,
    UInt32.reduceToNat] at letter digit
  omega

theorem isSeparator_toLower (c : Char) : isSeparator c.toLower = isSeparator c :=
  of_toLower (fun _ letter => isSeparator_of_isTagChar (isTagChar_of_isAlpha letter)) c

theorem isSeparator_fold (c : Char) : isSeparator (fold c) = isSeparator c := by
  unfold fold
  split
  · next separates => rw [separates]; rfl
  · exact isSeparator_toLower c

theorem isBlank_fold (c : Char) : Unicode.isBlank (fold c) = Unicode.isBlank c := by
  unfold fold
  split
  · next separates => rcases isSeparator_iff.mp separates with rfl | rfl <;> rfl
  · exact of_toLower (fun _ letter => isBlank_of_isTagChar (isTagChar_of_isAlpha letter)) c

theorem fold_eq_of_alike {d : Char} (alike : Alike c d) : fold c = fold d := by
  rcases alike with lower | ⟨left, right⟩
  · have separates : isSeparator c = isSeparator d := by
      rw [← isSeparator_toLower c, lower, isSeparator_toLower]
    rw [fold, fold, separates, lower]
  · rw [fold, fold, if_pos (isSeparator_iff.mpr left), if_pos (isSeparator_iff.mpr right)]

end

theorem map_fold_eq_of_alike {text other : List Char} (alike : List.Forall₂ Alike text other) :
    text.map fold = other.map fold := by
  induction alike with
  | nil => rfl
  | cons here _ ih => rw [List.map_cons, List.map_cons, fold_eq_of_alike here, ih]

theorem trimBlanks_map_fold (text : List Char) :
    Unicode.trimBlanks (text.map fold) = (Unicode.trimBlanks text).map fold := by
  have keeps (text : List Char) :
      (text.map fold).dropWhile Unicode.isBlank = (text.dropWhile Unicode.isBlank).map fold := by
    rw [List.dropWhile_map]
    congr 2
    exact funext isBlank_fold
  rw [Unicode.trimBlanks, keeps, ← List.map_reverse, keeps, ← List.map_reverse]
  rfl

/-- Blanks around a text are cut off. -/
theorem trimBlanks_surrounded {before middle after : List Char}
    (blank : ∀ c ∈ before ++ after, Unicode.isBlank c = true) :
    Unicode.trimBlanks (before ++ middle ++ after) = Unicode.trimBlanks middle := by
  obtain ⟨front, back⟩ := List.forall_mem_append.mp blank
  rw [Unicode.trimBlanks, Unicode.trimBlanks, List.append_assoc, List.dropWhile_append_of_pos front,
    List.dropWhile_append]
  by_cases none : (middle.dropWhile Unicode.isBlank).isEmpty = true
  · rw [if_pos none, List.isEmpty_iff.mp none, List.dropWhile_eq_nil_iff.mpr back]
  · rw [if_neg none, List.reverse_append, List.dropWhile_append_of_pos]
    intro c member
    exact back c (List.mem_reverse.mp member)

/-- Folding a text lowers its parts. -/
theorem splitAt_map_fold (text : List Char) :
    splitAt isSeparator (text.map fold) =
      (splitAt isSeparator text).map (·.map Char.toLower) := by
  induction text with
  | nil => rfl
  | cons c rest ih =>
    rw [List.map_cons, splitAt, splitAt, isSeparator_fold, ih]
    by_cases separates : isSeparator c = true
    · rw [if_pos separates, if_pos separates]
      rfl
    · rw [if_neg separates, if_neg separates]
      have lower : fold c = c.toLower := if_neg separates
      cases splitAt isSeparator rest with
      | nil => simp [lower]
      | cons part parts => simp [lower]

section
variable (part : List Char)

theorem isLanguage_map_toLower : isLanguage (part.map Char.toLower) = isLanguage part := by
  have star (c : Char) : (c.toLower == '*') = (c == '*') := by
    apply of_toLower (p := (· == '*'))
    intro d letter
    rw [beq_eq_false_iff_ne]
    rintro rfl
    cases letter
  have wildcard : (part.map Char.toLower == ['*']) = (part == ['*']) := by
    cases part with
    | nil => rfl
    | cons c rest => cases rest <;> simp [List.cons_beq_cons, star]
  simp [isLanguage, wildcard, Function.comp_def, Char.isAlpha_toLower_eq_isAlpha]

theorem isScript_map_toLower : isScript (part.map Char.toLower) = isScript part := by
  simp [isScript, Function.comp_def, Char.isAlpha_toLower_eq_isAlpha]

theorem isRegion_map_toLower : isRegion (part.map Char.toLower) = isRegion part := by
  simp [isRegion, Function.comp_def, Char.isAlpha_toLower_eq_isAlpha, isDigit_toLower]

theorem capitalise_map_toLower : capitalise (part.map Char.toLower) = capitalise part := by
  cases part with
  | nil => rfl
  | cons c rest =>
    simp [capitalise, Char.toUpper_toLower_eq_toUpper, Char.toLower_toLower_eq_toLower]

end

theorem ofParts_map_toLower (language : List Char) (script region : Option (List Char)) :
    Tag.ofParts (language.map Char.toLower) (script.map (·.map Char.toLower))
        (region.map (·.map Char.toLower)) = Tag.ofParts language script region := by
  simp [Tag.ofParts, Function.comp_def, capitalise_map_toLower, Char.toUpper_toLower_eq_toUpper,
    Char.toLower_toLower_eq_toLower]

/-- Parts make the same locale in lower case. -/
theorem readParts_map_toLower (parts : List (List Char)) :
    Tag.readParts (parts.map (·.map Char.toLower)) = Tag.readParts parts := by
  match parts with
  | [] => rfl
  | [language] =>
    have same := ofParts_map_toLower language none none
    simp only [Option.map_none] at same
    simp only [List.map_cons, List.map_nil, Tag.readParts, isLanguage_map_toLower, same]
  | [language, part] =>
    have titled := ofParts_map_toLower language (some part) none
    have placed := ofParts_map_toLower language none (some part)
    simp only [Option.map_none, Option.map_some] at titled placed
    simp only [List.map_cons, List.map_nil, Tag.readParts, isLanguage_map_toLower,
      isScript_map_toLower, isRegion_map_toLower, titled, placed]
  | [language, script, region] =>
    have same := ofParts_map_toLower language (some script) (some region)
    simp only [Option.map_some] at same
    simp only [List.map_cons, List.map_nil, Tag.readParts, isLanguage_map_toLower,
      isScript_map_toLower, isRegion_map_toLower, same]
  | _ :: _ :: _ :: _ :: _ => rfl

/-- What is read from a tag is read from any spelling of it. -/
theorem read_respelled {tag other : String} (respelled : Respelled tag other) {l : Locale}
    (found : read tag = .ok l) : read other = .ok l := by
  obtain ⟨before, middle, after, whole, blank, alike⟩ := respelled
  have parts (text : List Char) :
      Tag.readParts (splitAt isSeparator (text.map fold)) =
        Tag.readParts (splitAt isSeparator text) := by
    rw [splitAt_map_fold, readParts_map_toLower]
  rw [read_eq_ok_iff] at found ⊢
  rw [whole, trimBlanks_surrounded blank, ← parts, ← trimBlanks_map_fold,
    ← map_fold_eq_of_alike alike, trimBlanks_map_fold, parts, found]

/-- The tags that locales show, put in a list, are found one by one. -/
theorem splitAt_display (locales : List Locale) :
    ((splitAt (· == ',') (",".intercalate (locales.map display)).toList).map
      Unicode.trimBlanks).filter (!·.isEmpty) = locales.map (·.display.toList) := by
  have solid {l : Locale} {c : Char} (inTag : c ∈ l.display.toList) :
      (c == ',') = false ∧ Unicode.isBlank c = false := by
    rcases l.solid_display inTag with rfl | isTagChar
    · exact ⟨rfl, rfl⟩
    · refine ⟨beq_false_of_ne ?_, isBlank_of_isTagChar isTagChar⟩
      rintro rfl
      cases isTagChar
  have split : splitAt (· == ',') (",".intercalate (locales.map display)).toList =
      if locales = [] then [[]] else locales.map (·.display.toList) := by
    rw [String.toList_intercalate, List.map_map]
    cases locales with
    | nil => rfl
    | cons first rest =>
      apply @splitAt_intercalate _ ',' rfl
      intro part member c inPart
      have isShown : part ∈ (first :: rest).map (String.toList ∘ display) := member
      obtain ⟨l, _, rfl⟩ := List.mem_map.mp isShown
      exact (solid inPart).1
  have trimmed (l : Locale) : Unicode.trimBlanks l.display.toList = l.display.toList :=
    Unicode.trimBlanks_of_solid fun c inTag => (solid inTag).2
  have nonempty (l : Locale) : l.display.toList.isEmpty = false := by
    rw [List.isEmpty_eq_false_iff]
    intro empty
    have found := l.read_display
    rw [String.toList_eq_nil_iff.mp empty] at found
    cases found
  rw [split]
  split_ifs with none
  · rw [none]
    rfl
  · rw [List.map_map, List.filter_eq_self.mpr]
    · apply List.map_congr_left
      exact fun l _ => trimmed l
    · intro part member
      obtain ⟨l, _, rfl⟩ := List.mem_map.mp member
      simp [trimmed, nonempty]

/-- A list of tags that locales show is read back. -/
theorem readList_display (locales : List Locale) :
    readList (",".intercalate (locales.map display)) = .ok locales := by
  rw [readList, splitAt_display, RuleSet.Layout.mapM_eq_ok, List.forall₂_map_left_iff,
    List.forall₂_same]
  intro l _
  rw [String.ofList_toList]
  exact l.read_display

/-- Reading undoes showing, spellings of a tag are read alike, and exactly the texts of the form of
a tag are read. -/
theorem tags_read_back :
    (∀ tag l, read tag = .ok l →
      read l.display = .ok l ∧ ∀ other, Respelled tag other → read other = .ok l) ∧
    (∀ tag, (∃ l, read tag = .ok l) ↔ IsTag (Unicode.trimBlanks tag.toList)) ∧
    ∀ locales : List Locale, readList (",".intercalate (locales.map display)) = .ok locales :=
  ⟨fun _ l found => ⟨l.read_display, fun _ respelled => read_respelled respelled found⟩,
    fun _ => exists_read_iff, readList_display⟩

/-- Chinese in traditional script, as written on Taiwan. -/
def taiwanese : Locale := { language := "zh", script := "Hant", region := "TW" }

theorem read_hant : read "\u00a0zh_hant_tw" = .ok taiwanese :=
  read_eq_ok_iff.mpr (by decide +kernel)

theorem respelled_hant : Respelled "\u00a0zh_hant_tw" " \u00a0ZH-hANT_Tw\n" := by
  refine ⟨[' '], "\u00a0ZH-hANT_Tw".toList, ['\n'], by decide +kernel, List.all_eq_true.mp rfl, ?_⟩
  simp [Alike]

theorem tags_read_back_hant :
    read "\u00a0zh_hant_tw" = .ok taiwanese ∧ read "zh-Hant-TW" = .ok taiwanese ∧
      read " \u00a0ZH-hANT_Tw\n" = .ok taiwanese ∧ IsTag "zh_hant_tw".toList ∧
      readList "zh-Hant-TW,*,es-419" =
        .ok [taiwanese, { language := "*" }, { language := "es", region := "419" }] := by
  obtain ⟨back, accepted, listed⟩ := tags_read_back
  obtain ⟨shown, spelled⟩ := back _ _ read_hant
  have trimmed : Unicode.trimBlanks "\u00a0zh_hant_tw".toList = "zh_hant_tw".toList := by
    decide +kernel
  have isTag : IsTag "zh_hant_tw".toList := trimmed ▸ (accepted _).mp ⟨_, read_hant⟩
  exact ⟨read_hant, shown, spelled _ respelled_hant, isTag,
    listed [taiwanese, { language := "*" }, { language := "es", region := "419" }]⟩

end Locale

end Phrasebook
