import Mathlib
import Phrasebook.Token

namespace Phrasebook

namespace Unicode.CodeSet

/-- The code point lies in one of the ranges that the flips bound. The last one may be open. -/
def Covers : (flips : List Nat) → Nat → Prop
  | [], _ => False
  | [start], n => start ≤ n
  | start :: stop :: rest, n => (start ≤ n ∧ n < stop) ∨ Covers rest n

/-- The flips are in order, so that search finds its way. -/
def Ascending (s : CodeSet) : Prop := s.flips.toList.IsChain (· < ·)

instance (s : CodeSet) : Decidable s.Ascending := inferInstanceAs (Decidable (List.IsChain _ _))

theorem Ascending.pairwise {s : CodeSet} (ascending : s.Ascending) :
    s.flips.toList.Pairwise (· < ·) :=
  List.isChain_iff_pairwise.mp ascending

/-- Search ends between the flips that are passed and those that lie above. -/
theorem firstAbove_spec {s : CodeSet} (ascending : s.Ascending) (n lo hi : Nat) (le : lo ≤ hi)
    (fits : hi ≤ s.flips.size) (passed : ∀ i < lo, s.flips.getD i 0 ≤ n)
    (above : ∀ i, hi ≤ i → i < s.flips.size → n < s.flips.getD i 0) :
    s.firstAbove n lo hi ≤ s.flips.size ∧
      (∀ i < s.firstAbove n lo hi, s.flips.getD i 0 ≤ n) ∧
      ∀ i, s.firstAbove n lo hi ≤ i → i < s.flips.size → n < s.flips.getD i 0 := by
  have ordered {i j : Nat} (lt : i < j) (inRange : j < s.flips.size) :
      s.flips.getD i 0 < s.flips.getD j 0 := by
    have small : i < s.flips.size := Nat.lt_trans lt inRange
    have pair := List.pairwise_iff_getElem.mp ascending.pairwise i j (by simpa) (by simpa) lt
    simpa [Array.getD, small, inRange] using pair
  fun_induction firstAbove s n lo hi with
  | case1 lo hi room mid isPassed ih =>
    have bound : mid < hi := by omega
    apply ih (by omega) fits _ above
    intro i small
    rcases Nat.lt_or_eq_of_le (Nat.le_of_lt_succ small) with before | rfl
    · exact Nat.le_trans (Nat.le_of_lt (ordered before (by omega))) isPassed
    · exact isPassed
  | case2 lo hi room mid isAbove ih =>
    have bound : lo ≤ mid ∧ mid < hi := by omega
    apply ih bound.1 (by omega) passed
    intro i large inRange
    rcases Nat.lt_or_eq_of_le large with after | rfl
    · exact Nat.lt_trans (Nat.lt_of_not_le isAbove) (ordered after inRange)
    · exact Nat.lt_of_not_le isAbove
  | case3 lo hi done =>
    exact ⟨by omega, passed, fun i large inRange => above i (by omega) inRange⟩

/-- Search counts the flips that are passed. -/
theorem firstAbove_eq_countP {s : CodeSet} (ascending : s.Ascending) (n : Nat) :
    s.firstAbove n 0 s.flips.size = s.flips.toList.countP (· ≤ n) := by
  obtain ⟨fits, passed, above⟩ := firstAbove_spec ascending n 0 s.flips.size (Nat.zero_le _)
    (Nat.le_refl _) (by simp) (by omega)
  generalize s.firstAbove n 0 s.flips.size = k at *
  have front : (s.flips.toList.take k).countP (· ≤ n) = k := by
    rw [List.countP_eq_length.mpr]
    · simpa using fits
    · intro flip member
      obtain ⟨i, inRange, rfl⟩ := List.mem_iff_getElem.mp member
      have small : i < k := by simp at inRange; omega
      simpa [Array.getD, Nat.lt_of_lt_of_le small fits] using passed i small
  have back : (s.flips.toList.drop k).countP (· ≤ n) = 0 := by
    apply List.countP_eq_zero.mpr
    intro flip member
    obtain ⟨i, inRange, rfl⟩ := List.mem_iff_getElem.mp member
    have large : k + i < s.flips.size := by simp at inRange; omega
    simpa [Array.getD, large] using above (k + i) (Nat.le_add_right _ _) large
  rw [← List.take_append_drop k s.flips.toList, List.countP_append, front, back, Nat.add_zero]

/-- An odd number of flips is passed exactly within the ranges. -/
theorem odd_countP_iff {flips : List Nat} (ascending : flips.Pairwise (· < ·)) (n : Nat) :
    flips.countP (· ≤ n) % 2 = 1 ↔ Covers flips n := by
  match flips with
  | [] => simp [Covers]
  | [start] =>
    by_cases passed : start ≤ n <;> simp [Covers, passed]
  | start :: stop :: rest =>
    obtain ⟨first, ascending⟩ := List.pairwise_cons.mp ascending
    obtain ⟨second, ascending⟩ := List.pairwise_cons.mp ascending
    have order : start < stop := first stop List.mem_cons_self
    have ih := odd_countP_iff ascending n
    rw [Covers, List.countP_cons, List.countP_cons]
    by_cases passed : stop ≤ n
    · rw [← ih]
      simp only [decide_eq_true_eq, passed, Nat.le_trans (Nat.le_of_lt order) passed, if_true]
      omega
    · have none : rest.countP (· ≤ n) = 0 := by
        apply List.countP_eq_zero.mpr
        intro flip member
        have := second flip member
        simp only [decide_eq_true_eq]
        omega
      rw [none] at ih ⊢
      have notLater : ¬ Covers rest n := fun covers => by simpa using ih.mpr covers
      by_cases begun : start ≤ n
      · simp [begun, passed, Nat.lt_of_not_le passed]
      · simp [begun, passed, notLater]

theorem contains_iff_covers {s : CodeSet} (ascending : s.Ascending) (c : Char) :
    s.contains c = true ↔ Covers s.flips.toList c.toNat := by
  rw [contains, firstAbove_eq_countP ascending, beq_iff_eq, odd_countP_iff ascending.pairwise]

/-- Leaves out the first ranges as long as they lie in `[start, stop)`. -/
def skipWithin (start stop : Nat) : List Nat → List Nat
  | low :: high :: rest =>
    if start ≤ low ∧ high ≤ stop then skipWithin start stop rest else low :: high :: rest
  | flips => flips

/-- What is left of some ranges when those within `outer` are left out, in one pass over both. -/
def remaining (flips : List Nat) : (outer : List Nat) → List Nat
  | start :: stop :: rest => remaining (skipWithin start stop flips) rest
  | _ => flips

theorem covers_skipWithin {start stop n : Nat} {flips : List Nat} (covers : Covers flips n) :
    (start ≤ n ∧ n < stop) ∨ Covers (skipWithin start stop flips) n := by
  fun_induction skipWithin start stop flips with
  | case1 low high rest within ih =>
    rcases covers with here | later
    · exact .inl (by omega)
    · exact ih later
  | case2 => exact .inr covers
  | case3 => exact .inr covers

theorem covers_of_remaining {flips outer : List Nat} (none : remaining flips outer = []) {n : Nat}
    (covers : Covers flips n) : Covers outer n := by
  fun_induction remaining flips outer with
  | case1 flips start stop rest ih =>
    rcases covers_skipWithin covers with here | later
    · exact .inl here
    · exact .inr (ih none later)
  | case2 flips outer =>
    rw [none] at covers
    cases covers

theorem contains_of_remaining {s t : CodeSet} (ascending : s.Ascending) (ascending' : t.Ascending)
    (none : remaining s.flips.toList t.flips.toList = []) {c : Char}
    (member : s.contains c = true) : t.contains c = true :=
  (contains_iff_covers ascending' c).mpr
    (covers_of_remaining none ((contains_iff_covers ascending c).mp member))

end Unicode.CodeSet

namespace Unicode

theorem ascending_uppercase : uppercase.Ascending := by decide +kernel

theorem ascending_lowercase : lowercase.Ascending := by decide +kernel

theorem ascending_alphanumeric : alphanumeric.Ascending := by decide +kernel

theorem alphanumeric_of_uppercase {c : Char} (upper : uppercase.contains c = true) :
    alphanumeric.contains c = true :=
  CodeSet.contains_of_remaining ascending_uppercase ascending_alphanumeric (by decide +kernel) upper

theorem alphanumeric_of_lowercase {c : Char} (lower : lowercase.contains c = true) :
    alphanumeric.contains c = true :=
  CodeSet.contains_of_remaining ascending_lowercase ascending_alphanumeric (by decide +kernel) lower

/-- The ranges between the digits and the blanks. -/
def between : List Nat :=
  [0, 9, 14, 0x20, 0x21, 0x30, 0x3a, 0x85, 0x86, 0xa0, 0xa1, 0x1680, 0x1681, 0x2000, 0x200b, 0x2028,
    0x202a, 0x202f, 0x2030, 0x205f, 0x2060, 0x3000, 0x3001, 0x110000]

theorem not_digit_of_between {c : Char} (covers : CodeSet.Covers between c.toNat) :
    c.isDigit = false ∧ isBlank c = false := by
  have digit : c.isDigit = true ↔ 48 ≤ c.toNat ∧ c.toNat ≤ 57 := by
    simp [Char.isDigit, UInt32.le_iff_toNat_le]
  rw [Bool.eq_false_iff, Bool.eq_false_iff, ne_eq, digit, isBlank]
  simp only [between, CodeSet.Covers, or_false] at covers
  simp only [ne_eq, Bool.or_eq_true, Bool.and_eq_true, decide_eq_true_eq, beq_iff_eq]
  omega

theorem between_of_uppercase {c : Char} (upper : uppercase.contains c = true) :
    CodeSet.Covers between c.toNat :=
  CodeSet.covers_of_remaining (by decide +kernel)
    ((CodeSet.contains_iff_covers ascending_uppercase c).mp upper)

theorem between_of_lowercase {c : Char} (lower : lowercase.contains c = true) :
    CodeSet.Covers between c.toNat :=
  CodeSet.covers_of_remaining (by decide +kernel)
    ((CodeSet.contains_iff_covers ascending_lowercase c).mp lower)

end Unicode

open Unicode

/-- Whatever has a case is a letter. -/
theorem Kind.ofChar_of_cased {c : Char}
    (cased : uppercase.contains c = true ∨ lowercase.contains c = true) : ofChar c = .letter := by
  have covers : CodeSet.Covers between c.toNat := cased.elim between_of_uppercase between_of_lowercase
  obtain ⟨notDigit, notBlank⟩ := not_digit_of_between covers
  have isLetter : alphanumeric.contains c = true :=
    cased.elim alphanumeric_of_uppercase alphanumeric_of_lowercase
  simp [ofChar, notDigit, notBlank, isLetter]

namespace Makeup

attribute [ext] Makeup

theorem uppercase_ofChar (c : Char) : (ofChar c).uppercase = Unicode.uppercase.contains c := by
  cases upper : Unicode.uppercase.contains c with
  | true => simp [ofChar, Kind.ofChar_of_cased (.inl upper), upper]
  | false => unfold ofChar; split <;> simp [upper]

theorem lowercase_ofChar (c : Char) : (ofChar c).lowercase = Unicode.lowercase.contains c := by
  cases lower : Unicode.lowercase.contains c with
  | true => simp [ofChar, Kind.ofChar_of_cased (.inr lower), lower]
  | false => unfold ofChar; split <;> simp [lower]

/-- What a text has, one of its characters has. -/
theorem ofText_eq_any (has : Makeup → Bool) (union : ∀ a b, has (a.union b) = (has a || has b))
    (empty : has {} = false) (text : String) :
    has (ofText text) = text.toList.any fun c => has (ofChar c) := by
  have fold (chars : List Char) (found : Makeup) :
      has (chars.foldl (fun found c => found.union (ofChar c)) found) =
        (has found || chars.any fun c => has (ofChar c)) := by
    induction chars generalizing found with
    | nil => simp
    | cons c rest ih => rw [List.foldl_cons, ih, union, List.any_cons, Bool.or_assoc]
  rw [ofText, fold, empty, Bool.false_or]

theorem isUppercase_ofText (text : String) :
    (ofText text).isUppercase =
      (text.toList.any Unicode.uppercase.contains &&
        !text.toList.any Unicode.lowercase.contains) := by
  have upper := ofText_eq_any (·.uppercase) (fun _ _ => rfl) rfl text
  have lower := ofText_eq_any (·.lowercase) (fun _ _ => rfl) rfl text
  have letter := ofText_eq_any (·.letter) (fun _ _ => rfl) rfl text
  simp only [uppercase_ofChar, lowercase_ofChar] at upper lower
  rw [isUppercase, letter, upper, lower]
  cases found : text.toList.any Unicode.uppercase.contains with
  | false => simp
  | true =>
    obtain ⟨c, member, isUpper⟩ := List.any_eq_true.mp found
    have isLetter : text.toList.any (fun c => (ofChar c).letter) = true := by
      apply List.any_eq_true.mpr
      refine ⟨c, member, ?_⟩
      rw [ofChar, Kind.ofChar_of_cased (.inl isUpper)]
    rw [isLetter, Bool.and_true]

theorem kind_eq_digit_iff (c : Char) : Kind.ofChar c = .digit ↔ c.isDigit = true := by
  unfold Kind.ofChar
  split
  · next digit => simp [digit]
  · next other => split_ifs <;> simp [other]

/-- A text that is not empty is a run of digits if all its characters are digits. -/
theorem isDigits_ofText {text : String} (solid : text.toList ≠ []) :
    (ofText text).isDigits = text.toList.all Char.isDigit := by
  rw [Bool.eq_iff_iff, isDigits, beq_iff_eq, List.all_eq_true]
  constructor
  · intro digits c member
    have absent (has : Makeup → Bool) (union : ∀ a b, has (a.union b) = (has a || has b))
        (empty : has {} = false) (none : has { digit := true } = false) :
        has (ofChar c) = false := by
      have any := ofText_eq_any has union empty text
      rw [digits, none] at any
      exact Bool.eq_false_iff.mpr (List.any_eq_false.mp any.symm c member)
    have letter := absent (·.letter) (fun _ _ => rfl) rfl rfl
    have punctuation := absent (·.punctuation) (fun _ _ => rfl) rfl rfl
    have blank := absent (·.blank) (fun _ _ => rfl) rfl rfl
    rw [← kind_eq_digit_iff]
    cases kind : Kind.ofChar c with
    | digit => rfl
    | letter => simp [ofChar, kind] at letter
    | punctuation => simp [ofChar, kind] at punctuation
    | blank => simp [ofChar, kind] at blank
  · intro digits
    have isDigit (c : Char) (member : c ∈ text.toList) : ofChar c = { digit := true } := by
      rw [ofChar, (kind_eq_digit_iff c).mpr (digits c member)]
    have field (has : Makeup → Bool) (union : ∀ a b, has (a.union b) = (has a || has b))
        (empty : has {} = false) : has (ofText text) = has { digit := true } := by
      obtain ⟨first, isFirst⟩ := List.exists_mem_of_ne_nil _ solid
      rw [ofText_eq_any has union empty, Bool.eq_iff_iff, List.any_eq_true]
      constructor
      · rintro ⟨c, member, found⟩
        rwa [isDigit c member] at found
      · intro found
        exact ⟨first, isFirst, by rwa [isDigit first isFirst]⟩
    exact Makeup.ext (field (·.digit) (fun _ _ => rfl) rfl) (field (·.letter) (fun _ _ => rfl) rfl)
      (field (·.punctuation) (fun _ _ => rfl) rfl) (field (·.blank) (fun _ _ => rfl) rfl)
      (field (·.uppercase) (fun _ _ => rfl) rfl) (field (·.lowercase) (fun _ _ => rfl) rfl)

end Makeup

end Phrasebook
