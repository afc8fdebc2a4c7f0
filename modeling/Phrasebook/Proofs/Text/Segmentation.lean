import Mathlib
import Phrasebook.Pass
import Phrasebook.Proofs.Session.Evaluation
import Phrasebook.Proofs.Text.KindRuns
import Phrasebook.Proofs.Text.LetterCase
import Phrasebook.Proofs.Text.WordBounds
import Phrasebook.RuleSet.Encode

/-!
Which cuts between tokens leave no trace. A text may be cut at every place but within a run of
letters or of digits: all other cuts fall between two pieces or within blanks, which are left out.
Word boundaries spare the runs of ASCII letters and digits, so an ASCII text may as well be handed
over as one token.
-/

namespace Phrasebook

open Unicode

section
variable {c : Char}

theorem toNat_of_isAlpha (letter : c.isAlpha = true) :
    (65 ≤ c.toNat ∧ c.toNat ≤ 90) ∨ (97 ≤ c.toNat ∧ c.toNat ≤ 122) := by
  simpa [Char.isAlpha, Char.isUpper, Char.isLower, UInt32.le_iff_toNat_le] using letter

theorem toNat_of_isDigit (digit : c.isDigit = true) : 48 ≤ c.toNat ∧ c.toNat ≤ 57 := by
  simpa [Char.isDigit, UInt32.le_iff_toNat_le] using digit

theorem isAlpha_of_isDigit (digit : c.isDigit = true) : c.isAlpha = false := by
  have range := toNat_of_isDigit digit
  rw [Bool.eq_false_iff]
  intro letter
  have other := toNat_of_isAlpha letter
  omega

theorem Unicode.WordBreak.ofChar_of_isAlpha (letter : c.isAlpha = true) :
    WordBreak.ofChar c = .letter := by
  have ascii : c.toNat < 128 := by
    have range := toNat_of_isAlpha letter
    omega
  simp [WordBreak.ofChar, WordBreak.ofAscii, ascii, letter]

theorem Unicode.WordBreak.ofChar_of_isDigit (digit : c.isDigit = true) :
    WordBreak.ofChar c = .numeric := by
  have ascii : c.toNat < 128 := by
    have range := toNat_of_isDigit digit
    omega
  simp [WordBreak.ofChar, WordBreak.ofAscii, ascii, digit, isAlpha_of_isDigit digit]

theorem Unicode.ascending_pictographic : pictographic.Ascending := by decide +kernel

/-- No ASCII character takes part in emoji sequences. -/
theorem Unicode.not_pictographic_of_ascii (ascii : c.toNat < 128) :
    pictographic.contains c = false := by
  rw [Bool.eq_false_iff]
  intro member
  have above : CodeSet.Covers [128, 0x110000] c.toNat :=
    CodeSet.covers_of_remaining (by decide +kernel)
      ((CodeSet.contains_iff_covers ascending_pictographic c).mp member)
  simp only [CodeSet.Covers, or_false] at above
  omega

theorem Kind.isAlpha_of_letter (ascii : c.toNat < 128) (letter : ofChar c = .letter) :
    c.isAlpha = true := by
  unfold ofChar at letter
  split_ifs at letter with digit blank member
  have covers : CodeSet.Covers [0x30, 0x3a, 0x41, 0x5b, 0x61, 0x7b, 128, 0x110000] c.toNat :=
    CodeSet.covers_of_remaining (by decide +kernel)
      ((CodeSet.contains_iff_covers ascending_alphanumeric c).mp member)
  simp only [Char.isDigit, ge_iff_le, UInt32.le_iff_toNat_le, Bool.and_eq_true, decide_eq_true_eq,
    UInt32.reduceToNat, Char.reduceVal, Char.toNat_val] at digit
  simp only [CodeSet.Covers, or_false] at covers
  simp only [Char.isAlpha, Char.isUpper, Char.isLower, Bool.or_eq_true, Bool.and_eq_true,
    decide_eq_true_eq, ge_iff_le, UInt32.le_iff_toNat_le, UInt32.reduceToNat, Char.reduceVal,
    Char.toNat_val]
  omega

theorem Kind.ofChar_eq_blank_iff : ofChar c = .blank ↔ isBlank c = true := by
  unfold ofChar
  constructor
  · intro kind
    split_ifs at kind with digit blank
    exact blank
  · intro blank
    have notDigit : c.isDigit = false := by
      rw [Bool.eq_false_iff]
      intro digit
      have range := toNat_of_isDigit digit
      simp only [isBlank, Bool.or_eq_true, Bool.and_eq_true, decide_eq_true_eq, beq_iff_eq] at blank
      omega
    simp [notDigit, blank]

end

namespace Words

/-- The two are not both ASCII letters and not both digits. -/
def Breakable (a b : Char) : Prop :=
  ¬(a.isAlpha = true ∧ b.isAlpha = true) ∧ ¬(a.isDigit = true ∧ b.isDigit = true)

/-- Words that are not empty, with no break between two ASCII letters or two digits. -/
structure Spare (words : List (List Char)) : Prop where
  solid : [] ∉ words
  breaks : words.IsChain fun v w => ∀ a ∈ v.getLast?, ∀ b ∈ w.head?, Breakable a b

namespace Joint

/-- A word that ends in `c` is known to end in a letter or a digit when `c` is one. -/
structure EndsIn (joint : Joint) (c : Char) : Prop where
  letter : c.isAlpha = true → joint = .letter
  digit : c.isDigit = true → joint = .numeric

theorem endsIn_start (c : Char) : (start c).EndsIn c where
  letter := by
    intro letter
    rw [start, WordBreak.ofChar_of_isAlpha letter]
    rfl
  digit := by
    intro digit
    rw [start, WordBreak.ofChar_of_isDigit digit]
    rfl

theorem accept_letter {joint next : Joint} {c : Char} {rest : List Char}
    (accepted : joint.accept .letter c rest = some next) : next = .letter := by
  cases joint <;> simp_all [accept]

theorem accept_numeric {joint next : Joint} {c : Char} {rest : List Char}
    (accepted : joint.accept .numeric c rest = some next) : next = .numeric := by
  cases joint <;> simp_all [accept]

section
variable {joint next : Joint} {last c : Char} {rest : List Char}

/-- An ASCII character joins in its role only, unless it ends a line. -/
theorem extend_eq_accept {role : WordBreak} (ascii : c.toNat < 128) (other : c ≠ '\n')
    (isRole : WordBreak.ofChar c = role) (solid : role ≠ .attached) :
    joint.extend last c rest = joint.accept role c rest := by
  unfold extend
  split
  · rw [beq_false_of_ne other]
    cases role <;> rfl
  · cases role <;> rfl
  · rw [not_pictographic_of_ascii ascii, isRole, Bool.and_false]
    cases role with
    | attached => exact absurd rfl solid
    | _ => rfl

theorem extend_letter (letter : c.isAlpha = true) :
    joint.extend last c rest = joint.accept .letter c rest := by
  have range := toNat_of_isAlpha letter
  apply extend_eq_accept (by omega) _ (WordBreak.ofChar_of_isAlpha letter) (by decide)
  rintro rfl
  cases letter

theorem extend_numeric (digit : c.isDigit = true) :
    joint.extend last c rest = joint.accept .numeric c rest := by
  have range := toNat_of_isDigit digit
  apply extend_eq_accept (by omega) _ (WordBreak.ofChar_of_isDigit digit) (by decide)
  rintro rfl
  cases digit

theorem endsIn_extend (extended : joint.extend last c rest = some next) : next.EndsIn c where
  letter := by
    intro letter
    rw [extend_letter letter] at extended
    exact accept_letter extended
  digit := by
    intro digit
    rw [extend_numeric digit] at extended
    exact accept_numeric extended

/-- A letter goes on with a letter, and a digit with a digit. -/
theorem EndsIn.breakable (ends : joint.EndsIn last) (stuck : joint.extend last c rest = none) :
    Breakable last c := by
  constructor
  · intro ⟨before, letter⟩
    rw [extend_letter letter, ends.letter before] at stuck
    cases stuck
  · intro ⟨before, digit⟩
    rw [extend_numeric digit, ends.digit before] at stuck
    cases stuck

end

end Joint

theorem spare_concat_iff {words : List (List Char)} {word : List Char} :
    Spare (words ++ [word]) ↔ Spare words ∧ word ≠ [] ∧
      ∀ v ∈ words.getLast?, ∀ a ∈ v.getLast?, ∀ b ∈ word.head?, Breakable a b := by
  constructor
  · intro ⟨solid, breaks⟩
    obtain ⟨before, _, seam⟩ := List.isChain_append.mp breaks
    simp only [List.mem_append, List.mem_singleton, not_or] at solid
    exact ⟨⟨solid.1, before⟩, Ne.symm solid.2, by simpa using seam⟩
  · intro ⟨⟨solid, breaks⟩, nonempty, seam⟩
    refine ⟨by simpa using ⟨solid, nonempty⟩, List.isChain_append.mpr ?_⟩
    exact ⟨breaks, .singleton _, by simpa using seam⟩

/-- Cutting breaks nowhere within a run of ASCII letters or digits. The words before and the one
under way are listed backwards. -/
theorem spare_cut {done : List (List Char)} {joint : Joint} {last : Char} {before rest : List Char}
    (ends : joint.EndsIn last) (spare : Spare (done.reverse ++ [(last :: before).reverse])) :
    Spare (cut done joint last (last :: before) rest) := by
  induction rest generalizing done joint last before with
  | nil => simpa [cut] using spare
  | cons c rest ih =>
    rw [cut]
    split
    · next extended =>
      apply ih (Joint.endsIn_extend extended)
      obtain ⟨words, nonempty, seam⟩ := spare_concat_iff.mp spare
      have head : (c :: last :: before).reverse.head? = (last :: before).reverse.head? := by
        rw [List.reverse_cons, List.head?_append_of_ne_nil _ nonempty]
      exact spare_concat_iff.mpr ⟨words, by simp, head ▸ seam⟩
    · next stuck =>
      apply ih (Joint.endsIn_start c)
      rw [List.reverse_cons]
      refine spare_concat_iff.mpr ⟨spare, by simp, ?_⟩
      simpa using ends.breakable stuck

theorem spare_split (text : List Char) : Spare (split text) := by
  cases text with
  | nil => exact ⟨List.not_mem_nil, .nil⟩
  | cons c rest =>
    apply spare_cut (Joint.endsIn_start c)
    exact ⟨by simp, .singleton _⟩

end Words

namespace Token

/-- What is left of a text at `start` when it is cut by kind and blanks are dropped. -/
def solids (start : Nat) (text : List Char) : List Token :=
  (layOut start (text.splitBy Kind.holdsTogether)).filter (!·.isBlank)

theorem layOut_append (start : Nat) (words others : List (List Char)) :
    layOut start (words ++ others) =
      layOut start words ++ layOut (start + words.flatten.length) others := by
  induction words generalizing start with
  | nil => simp [layOut]
  | cons word rest ih => simp [layOut, ih, Nat.add_assoc]

/-- A cut where nothing holds together leaves no trace. -/
theorem solids_append_of_torn {start : Nat} {a b : List Char}
    (torn : ∀ x ∈ a.getLast?, ∀ y ∈ b.head?, Kind.holdsTogether x y = false) :
    solids start (a ++ b) = solids start a ++ solids (start + a.length) b := by
  rw [solids, List.splitBy_append torn, layOut_append, List.filter_append, List.flatten_splitBy]
  rfl

theorem solids_of_blank {start : Nat} {text : List Char}
    (blank : ∀ c ∈ text, Unicode.isBlank c = true) : solids start text = [] := by
  apply List.filter_eq_nil_iff.mpr
  intro t member
  obtain ⟨before, after, whole, _⟩ := cut_layOut member
  rw [List.flatten_splitBy] at whole
  have isBlank : t.isBlank = true := by
    apply List.all_eq_true.mpr
    intro c inside
    apply blank
    simp [whole, inside]
  simp [isBlank]

/-- Blanks in front of a text only move it. -/
theorem solids_blank_append {start : Nat} {blanks text : List Char}
    (blank : ∀ c ∈ blanks, Unicode.isBlank c = true) :
    solids start (blanks ++ text) = solids (start + blanks.length) text := by
  induction text generalizing start blanks with
  | nil =>
    rw [List.append_nil, solids_of_blank blank]
    rfl
  | cons c rest ih =>
    by_cases isBlank : Unicode.isBlank c = true
    · have longer : ∀ d ∈ blanks ++ [c], Unicode.isBlank d = true := by
        simpa [or_imp, forall_and] using ⟨blank, isBlank⟩
      have single : ∀ d ∈ [c], Unicode.isBlank d = true := by simpa using isBlank
      calc solids start (blanks ++ c :: rest)
          = solids start (blanks ++ [c] ++ rest) := by rw [List.append_assoc, List.singleton_append]
        _ = solids (start + (blanks ++ [c]).length) rest := ih longer
        _ = solids (start + blanks.length + [c].length) rest := by
          rw [List.length_append, Nat.add_assoc]
        _ = solids (start + blanks.length) (c :: rest) := (ih single).symm
    · rw [solids_append_of_torn, solids_of_blank blank, List.nil_append]
      intro x isLast y isHead
      rw [← Bool.not_eq_true]
      intro together
      obtain ⟨same, _⟩ := Kind.holdsTogether_eq_true.mp together
      rw [Kind.ofChar_eq_blank_iff.mpr (blank x (List.mem_of_getLast? isLast))] at same
      obtain rfl : c = y := by simpa using isHead
      exact isBlank (Kind.ofChar_eq_blank_iff.mp same.symm)

/-- A cut leaves no trace if only blanks hold together across it. -/
theorem solids_append {start : Nat} {a b : List Char}
    (parted : ∀ x ∈ a.getLast?, ∀ y ∈ b.head?, Kind.holdsTogether x y = true →
      Unicode.isBlank y = true) :
    solids start (a ++ b) = solids start a ++ solids (start + a.length) b := by
  induction a using List.reverseRecOn generalizing b with
  | nil => rfl
  | append_singleton a c ih =>
    by_cases isBlank : Unicode.isBlank c = true
    · have single : ∀ d ∈ [c], Unicode.isBlank d = true := by simpa using isBlank
      have before (rest : List Char) :
          solids start (a ++ c :: rest) = solids start a ++ solids (start + a.length) (c :: rest) :=
        ih fun x _ y isHead _ => by
          obtain rfl : c = y := by simpa using isHead
          exact isBlank
      have alone : solids start (a ++ [c]) = solids start a := by
        rw [before, solids_of_blank single, List.append_nil]
      have moved : solids (start + a.length) (c :: b) = solids (start + (a ++ [c]).length) b := by
        rw [List.length_append, ← Nat.add_assoc]
        exact solids_blank_append single
      rw [alone, ← moved, ← before, List.append_assoc, List.singleton_append]
    · apply solids_append_of_torn
      intro x isLast y isHead
      rw [← Bool.not_eq_true]
      intro together
      obtain ⟨same, _⟩ := Kind.holdsTogether_eq_true.mp together
      rw [Kind.ofChar_eq_blank_iff.mpr (parted x isLast y isHead together)] at same
      obtain rfl : c = x := by simpa using isLast
      exact isBlank (Kind.ofChar_eq_blank_iff.mp same)

end Token

/-- Words laid side by side have the solid pieces of the text that they make up, if only blanks hold
together across their borders. -/
theorem solidPieces_layOut {start : Nat} {words : List (List Char)} (solid : [] ∉ words)
    (parted : words.IsChain fun v w => ∀ x ∈ v.getLast?, ∀ y ∈ w.head?,
      Kind.holdsTogether x y = true → isBlank y = true) :
    solidPieces (Token.layOut start words) = Token.solids start words.flatten := by
  induction words generalizing start with
  | nil => rfl
  | cons word rest ih =>
    obtain ⟨seam, later⟩ := List.isChain_cons.mp parted
    have tail : solidPieces (Token.layOut (start + word.length) rest) =
        Token.solids (start + word.length) rest.flatten :=
      ih (List.not_mem_of_not_mem_cons solid) later
    rw [List.flatten_cons, Token.solids_append, ← tail]
    · simp [solidPieces, Token.layOut, Token.pieces, Token.solids]
    · intro x isLast y isHead
      cases rest with
      | nil => cases isHead
      | cons next rest =>
        have nonempty : next ≠ [] := by
          rintro rfl
          simp at solid
        rw [List.flatten_cons, List.head?_append_of_ne_nil _ nonempty] at isHead
        exact seam next rfl x isLast y isHead

/-- ASCII characters that may come to stand in different words hold together only as blanks. -/
theorem Kind.isBlank_of_breakable {a b : Char} (ascii : a.toNat < 128) (ascii' : b.toNat < 128)
    (breakable : Words.Breakable a b) (together : holdsTogether a b = true) : isBlank b = true := by
  obtain ⟨same, other⟩ := holdsTogether_eq_true.mp together
  cases kind : ofChar b with
  | digit =>
    rw [kind] at same
    exact absurd ⟨(Makeup.kind_eq_digit_iff a).mp same, (Makeup.kind_eq_digit_iff b).mp kind⟩
      breakable.2
  | letter =>
    rw [kind] at same
    exact absurd ⟨isAlpha_of_letter ascii same, isAlpha_of_letter ascii' kind⟩ breakable.1
  | punctuation => exact absurd kind other
  | blank => exact ofChar_eq_blank_iff.mp kind

/-- However an ASCII text is cut into words that spare its runs of letters and of digits, the solid
pieces are the same. -/
theorem solidPieces_of_spare {words : List (List Char)} (spare : Words.Spare words)
    (ascii : ∀ c ∈ words.flatten, c.toNat < 128) :
    solidPieces (Token.layOut 0 words) = Token.solids 0 words.flatten := by
  apply solidPieces_layOut spare.solid
  apply spare.breaks.imp_of_mem_imp
  intro v w isLeft isRight breakable x isLast y isHead
  have inLeft : x ∈ words.flatten :=
    List.mem_flatten.mpr ⟨v, isLeft, List.mem_of_getLast? isLast⟩
  have inRight : y ∈ words.flatten := List.mem_flatten.mpr ⟨w, isRight, List.mem_of_head? isHead⟩
  exact Kind.isBlank_of_breakable (ascii x inLeft) (ascii y inRight) (breakable x isLast y isHead)

/-- The words of an ASCII text have the same solid pieces as the whole text. -/
theorem solidPieces_tokenize {split : Words.Splitter} {text : String}
    (ascii : ∀ c ∈ text.toList, c.toNat < 128)
    (whole : (split text.toList).flatten = text.toList) (spare : Words.Spare (split text.toList)) :
    solidPieces (tokenize text split) = solidPieces [⟨text, ⟨0, text.length⟩⟩] := by
  rw [tokenize, solidPieces_of_spare spare]
  · rw [whole]
    simp [solidPieces, Token.pieces, Token.solids]
  · rwa [whole]

/-- The matcher sees nothing of tokens but their solid pieces. -/
theorem Pass.session_congr {setting : Setting} {tokens others : List Token} {labels : List Label}
    (same : solidPieces tokens = solidPieces others) :
    session setting tokens labels = session setting others labels := by
  simp only [session, Session.read, Feed.items, same]

/-- An ASCII text handed over as one token yields the same matches, candidates and derivations as
its words, and takes the same steps. The words need only make up the text and spare its runs of
letters and of digits. -/
theorem Pass.run_whole (setting : Setting) (labels : List Label) (text : String)
    (ascii : ∀ c ∈ text.toList, c.toNat < 128) (split : Words.Splitter)
    (whole : (split text.toList).flatten = text.toList)
    (spare : Words.Spare (split text.toList)) :
    (run setting (tokenize text split) labels).arena =
        (run setting [⟨text, ⟨0, text.length⟩⟩] labels).arena ∧
      (run setting (tokenize text split) labels).candidates =
        (run setting [⟨text, ⟨0, text.length⟩⟩] labels).candidates ∧
      (run setting (tokenize text split) labels).derivations =
        (run setting [⟨text, ⟨0, text.length⟩⟩] labels).derivations ∧
      (run setting (tokenize text split) labels).stats =
        (run setting [⟨text, ⟨0, text.length⟩⟩] labels).stats := by
  have same : session setting (tokenize text split) labels =
      session setting [⟨text, ⟨0, text.length⟩⟩] labels :=
    session_congr (solidPieces_tokenize ascii whole spare)
  simp only [run, ofSession, same, and_self]

/-- Every piece is a 1, and two of them side by side are a 2, which is reported. -/
def RuleSet.adjoining : RuleSet where
  buffer := (words [2, 5, 7, 0, 0, 0xffffffff, 20, 1, 0, 1, 1, 1, 0]).toArray
  layout :=
    { hasNames := false
      symbolCount := 2
      terminals := {}
      strings := {}
      records := ⟨0, 1⟩
      sets := ⟨24, 1⟩
      filters := {}
      labels := {}
      names := {}
      structural := { token := 1 }
      shards := [{ buckets := ⟨32, 1⟩, binary := ⟨40, 1⟩ }] }

/-- The words break between the blanks and leave the first number whole; pieces do the opposite. -/
theorem Pass.run_whole_adjoining :
    (tokenize "1.5\t 2").map (·.value) = ["1.5", "\t", " ", "2"] ∧
      (∀ c ∈ "1.5\t 2".toList, c.toNat < 128) ∧
      (run (.ofRules .adjoining [] 1000) (tokenize "1.5\t 2") []).arena =
        (run (.ofRules .adjoining [] 1000) [⟨"1.5\t 2", ⟨0, 6⟩⟩] []).arena ∧
      (run (.ofRules .adjoining [] 1000) (tokenize "1.5\t 2") []).derivations =
        [⟨7, 2⟩, ⟨7, 4⟩] := by
  have derivations : (run (.ofRules .adjoining [] 1000) [⟨"1.5\t 2", ⟨0, 6⟩⟩] []).derivations =
      [⟨7, 2⟩, ⟨7, 4⟩] := by
    simp only [run, ofSession, select_session]
    rw [session_eq_sessionIn 500]
    decide +kernel
  have ascii : ∀ c ∈ "1.5\t 2".toList, c.toNat < 128 := by simp
  have length : "1.5\t 2".length = 6 := rfl
  have whole := run_whole (.ofRules .adjoining [] 1000) [] "1.5\t 2" ascii Words.split
    (Words.flatten_split _) (Words.spare_split _)
  rw [length] at whole
  obtain ⟨arena, _, selected, _⟩ := whole
  exact ⟨by decide +kernel, ascii, arena, selected.trans derivations⟩

end Phrasebook
