import Mathlib
import Phrasebook.Grammar.Rule
import Phrasebook.Text.Lowercase

namespace Phrasebook

/-- NUL does not occur in the text. -/
def NulFree (text : String) : Prop := '\x00' ∉ text.toList

namespace Unicode

/-- The code points that a run leads to are valid and not 0. -/
def CaseRun.Sound (run : CaseRun) : Prop :=
  0 < run.target ∧ (run.target + (run.last - run.first) < 0xd800 ∨
    (0xe000 ≤ run.target ∧ run.target + (run.last - run.first) < 0x110000))

instance (run : CaseRun) : Decidable run.Sound := inferInstanceAs (Decidable (_ ∧ _))

theorem lowercaseMap_sound : ∀ run ∈ lowercaseMap.runs, run.Sound := by
  decide +kernel

theorem ofNat_ne_nul {n : Nat} (positive : 0 < n) (valid : n.isValidChar) :
    Char.ofNat n ≠ '\x00' := by
  intro eq
  have := congrArg Char.toNat eq
  rw [Char.ofNat, dif_pos valid] at this
  exact Nat.ne_of_gt positive this

theorem CaseRun.Sound.image {run : CaseRun} (sound : run.Sound) {n m : Nat}
    (image : run.image? n = some m) : Char.ofNat m ≠ '\x00' := by
  unfold image? at image
  split at image
  · next within =>
    obtain rfl := Option.some.inj image
    simp only [Bool.and_eq_true, decide_eq_true_eq] at within
    obtain ⟨positive, low | high⟩ := sound
    · exact ofNat_ne_nul (by omega) (.inl (by omega))
    · exact ofNat_ne_nul (by omega) (.inr (by omega))
  · cases image

theorem apply_ne_nul {c : Char} (h : c ≠ '\x00') : lowercaseMap.apply c ≠ '\x00' := by
  simp only [CaseMap.apply]
  generalize lowercaseMap.firstAbove c.toNat 0 lowercaseMap.runs.size - 1 = i
  cases found : lowercaseMap.runs[i]? with
  | none => exact h
  | some run =>
    cases image : run.image? c.toNat with
    | none => simpa [image] using h
    | some m =>
      have sound := lowercaseMap_sound run (Array.mem_of_getElem? found)
      simpa [image] using sound.image image

end Unicode

namespace Lowercase

theorem simple_ne_nul {c : Char} (h : c ≠ '\x00') : simple c ≠ '\x00' := by
  unfold simple
  split
  · intro eq
    unfold Char.toLower at eq
    split at eq
    · next upper =>
      have zero := congrArg (·.val.toNat) eq
      obtain ⟨low, high⟩ := upper
      simp only [ge_iff_le, UInt32.le_iff_toNat_le, Char.reduceVal, UInt32.reduceToNat] at low high
      simp only [UInt32.toNat_add, Char.reduceVal, UInt32.reduceSub, UInt32.reduceToNat] at zero
      omega
    · exact h eq
  · exact Unicode.apply_ne_nul h

theorem inContext_ne_nul {before after : List Char} {c : Char} (h : c ≠ '\x00') :
    '\x00' ∉ inContext before c after := by
  unfold inContext
  split
  · split <;> decide
  · split
    · decide
    · intro member
      exact simple_ne_nul h (List.mem_singleton.mp member).symm

theorem fold_ne_nul {done before rest : List Char} (clean : '\x00' ∉ done)
    (h : '\x00' ∉ rest) : '\x00' ∉ fold done before rest := by
  induction rest generalizing done before with
  | nil => simpa [fold] using clean
  | cons c after ih =>
    simp only [List.mem_cons, not_or] at h
    refine ih ?_ h.2
    simp only [List.mem_append, List.mem_reverse, not_or]
    exact ⟨inContext_ne_nul (Ne.symm h.1), clean⟩

theorem nulFree_text {s : String} (h : NulFree s) : NulFree (text s) := by
  simpa [NulFree, text] using fold_ne_nul (by simp) h

end Lowercase

/-- What reads as a literal is free of NUL. -/
theorem Written.nulFree_read {raw text : String} {optional : Bool}
    (h : Written.read raw = .ok (.literal text, optional)) : NulFree text := by
  unfold read at h
  split at h
  · cases h
  · generalize splitOptional raw.toList = parts at h
    obtain ⟨body, isOptional⟩ := parts
    cases result : readBody body with
    | error flaw => simp [result, Except.map] at h
    | ok written =>
      simp only [result, Except.map, Except.ok.injEq, Prod.mk.injEq] at h
      obtain ⟨rfl, _⟩ := h
      unfold readBody at result
      split at result
      · split at result
        · cases result
        · cases result
      · split at result
        · cases result
        · split at result
          · cases result
          · split at result
            · cases result
            · next noNul =>
              split at result
              · cases result
              · cases result
                simpa [NulFree] using noNul

end Phrasebook
