import Mathlib
import Phrasebook.Token

namespace Phrasebook

namespace Token

/-- The tokens follow one another without overlap, and each is as long as its span. -/
structure Laid (tokens : List Token) : Prop where
  ordered : tokens.Pairwise fun a b => a.span.stop ≤ b.span.start
  sized : ∀ t ∈ tokens, t.value.length = t.span.length

/-- Words laid side by side lie within their total length, each over its own span. -/
theorem mem_layOut {words : List (List Char)} {start : Nat} {t : Token}
    (member : t ∈ layOut start words) :
    (∃ word ∈ words, t.value = String.ofList word ∧ t.span.stop = t.span.start + word.length) ∧
      start ≤ t.span.start ∧ t.span.stop ≤ start + words.flatten.length := by
  induction words generalizing start with
  | nil => cases member
  | cons word rest ih =>
    simp only [layOut, List.mem_cons] at member
    rcases member with rfl | member
    · exact ⟨⟨word, List.mem_cons_self, rfl, rfl⟩, Nat.le_refl _, by simp⟩
    · obtain ⟨⟨other, inRest, value, stop⟩, after, before⟩ := ih member
      refine ⟨⟨other, List.mem_cons_of_mem _ inRest, value, stop⟩, by omega, ?_⟩
      simp only [List.flatten_cons, List.length_append]
      omega

theorem pairwise_layOut (words : List (List Char)) (start : Nat) :
    (layOut start words).Pairwise fun a b => a.span.stop ≤ b.span.start := by
  induction words generalizing start with
  | nil => exact .nil
  | cons word rest ih =>
    refine List.pairwise_cons.mpr ⟨fun b member => ?_, ih _⟩
    exact (mem_layOut member).2.1

theorem laid_layOut (words : List (List Char)) (start : Nat) : Laid (layOut start words) := by
  refine ⟨pairwise_layOut words start, fun t member => ?_⟩
  obtain ⟨⟨word, _, value, stop⟩, _, _⟩ := mem_layOut member
  rw [value, String.length_ofList, Span.length]
  omega

/-- A piece is not empty and stays within its token. -/
theorem mem_pieces {t piece : Token} (sized : t.value.length = t.span.length)
    (member : piece ∈ t.pieces) :
    piece.value.length = piece.span.length ∧ piece.span.start < piece.span.stop ∧
      t.span.start ≤ piece.span.start ∧ piece.span.stop ≤ t.span.stop := by
  obtain ⟨⟨word, isWord, value, stop⟩, after, before⟩ := mem_layOut member
  have solid : 0 < word.length := List.length_pos_of_ne_nil (List.ne_nil_of_mem_splitBy isWord)
  rw [List.flatten_splitBy, String.length_toList, sized, Span.length] at before
  rw [value, String.length_ofList, Span.length]
  omega

end Token

/-- The solid pieces of tokens follow one another, and none is empty. -/
theorem solidPieces_laid {tokens : List Token} (laid : Token.Laid tokens) :
    Token.Laid (solidPieces tokens) := by
  constructor
  · apply List.Pairwise.filter
    refine List.pairwise_flatMap.mpr ⟨fun t _ => Token.pairwise_layOut _ _, ?_⟩
    refine laid.ordered.imp_of_mem fun {a b} isA isB order x inA y inB => ?_
    have left := Token.mem_pieces (laid.sized a isA) inA
    have right := Token.mem_pieces (laid.sized b isB) inB
    omega
  · intro piece member
    obtain ⟨t, isToken, inToken⟩ := List.mem_flatMap.mp (List.mem_filter.mp member).1
    exact (Token.mem_pieces (laid.sized t isToken) inToken).1

theorem solidPieces_pos {tokens : List Token} (laid : Token.Laid tokens) {piece : Token}
    (member : piece ∈ solidPieces tokens) : piece.span.start < piece.span.stop := by
  obtain ⟨t, isToken, inToken⟩ := List.mem_flatMap.mp (List.mem_filter.mp member).1
  exact (Token.mem_pieces (laid.sized t isToken) inToken).2.1

end Phrasebook
