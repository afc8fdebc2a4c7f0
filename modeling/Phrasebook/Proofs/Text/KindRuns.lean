import Mathlib.Data.List.SplitBy
import Phrasebook.Token

namespace Phrasebook

namespace Kind

theorem holdsTogether_eq_true {a b : Char} :
    holdsTogether a b = true ↔ ofChar a = ofChar b ∧ ofChar b ≠ .punctuation := by
  simp [holdsTogether]

/-- A text in which each character holds together with the next is a run of one kind. -/
theorem isChain_holdsTogether_iff {text : List Char} (solid : text ≠ []) :
    (text.IsChain fun a b => holdsTogether a b = true) ↔
      ∃ k, (∀ c ∈ text, ofChar c = k) ∧ (k = .punctuation → text.length = 1) := by
  induction text with
  | nil => exact absurd rfl solid
  | cons c rest ih =>
    cases rest with
    | nil => simp
    | cons d rest =>
      rw [List.isChain_cons_cons, ih (List.cons_ne_nil d rest), holdsTogether_eq_true]
      constructor
      · intro ⟨⟨same, other⟩, k, run, _⟩
        have isKind : ofChar d = k := run d List.mem_cons_self
        have notMark : k ≠ .punctuation := isKind ▸ other
        refine ⟨k, ?_, fun mark => absurd mark notMark⟩
        intro e member
        rcases List.mem_cons.mp member with rfl | later
        · exact same.trans isKind
        · exact run e later
      · intro ⟨k, run, alone⟩
        have first : ofChar c = k := run c List.mem_cons_self
        have second : ofChar d = k := run d (by simp)
        have notMark : k ≠ .punctuation := fun mark => by simpa using alone mark
        refine ⟨⟨first.trans second.symm, second ▸ notMark⟩, k, ?_, fun mark => absurd mark notMark⟩
        intro e member
        exact run e (List.mem_cons_of_mem c member)

/-- Where two runs meet, they are torn apart exactly if they differ in kind or consist of
punctuation marks. -/
theorem torn_iff {v w : List Char} (solid : v ≠ []) (solid' : w ≠ [])
    (run : ∃ k, ∀ c ∈ v, ofChar c = k) (run' : ∃ k, ∀ c ∈ w, ofChar c = k) :
    holdsTogether (v.getLast solid) (w.head solid') = false ↔
      ∀ k, (∀ c ∈ v, ofChar c = k) → (∀ c ∈ w, ofChar c = k) → k = .punctuation := by
  obtain ⟨j, isLeft⟩ := run
  obtain ⟨k, isRight⟩ := run'
  have last : ofChar (v.getLast solid) = j := isLeft _ (List.getLast_mem solid)
  have head : ofChar (w.head solid') = k := isRight _ (List.head_mem solid')
  rw [← Bool.not_eq_true, holdsTogether_eq_true, last, head]
  constructor
  · intro torn i left right
    have isJ : j = i := last.symm.trans (left _ (List.getLast_mem solid))
    have isK : k = i := head.symm.trans (right _ (List.head_mem solid'))
    by_contra other
    exact torn ⟨isJ.trans isK.symm, isK ▸ other⟩
  · intro differ ⟨same, other⟩
    exact other (differ k (same ▸ isLeft) isRight)

/-- Cutting by kind yields the one list of runs that make up the text and differ from their
neighbours. -/
theorem splitBy_holdsTogether_iff {text : List Char} {words : List (List Char)} :
    text.splitBy holdsTogether = words ↔
      words.flatten = text ∧ [] ∉ words ∧
      (∀ w ∈ words, ∃ k, (∀ c ∈ w, ofChar c = k) ∧ (k = .punctuation → w.length = 1)) ∧
      words.IsChain fun v w =>
        ∀ k, (∀ c ∈ v, ofChar c = k) → (∀ c ∈ w, ofChar c = k) → k = .punctuation := by
  rw [List.splitBy_eq_iff, eq_comm]
  refine and_congr_right fun _ => and_congr_right fun noneEmpty => ?_
  have solid {w : List Char} (member : w ∈ words) : w ≠ [] := by
    rintro rfl
    exact noneEmpty member
  have runs : (∀ w ∈ words, w.IsChain fun a b => holdsTogether a b = true) ↔
      ∀ w ∈ words, ∃ k, (∀ c ∈ w, ofChar c = k) ∧ (k = .punctuation → w.length = 1) :=
    forall₂_congr fun w member => isChain_holdsTogether_iff (solid member)
  rw [runs]
  refine and_congr_right fun isRun => ?_
  have run {w : List Char} (member : w ∈ words) : ∃ k, ∀ c ∈ w, ofChar c = k :=
    (isRun w member).imp fun _ => And.left
  constructor
  · apply List.IsChain.imp_of_mem_imp
    intro v w isLeft isRight ⟨_, _, torn⟩
    exact (torn_iff (solid isLeft) (solid isRight) (run isLeft) (run isRight)).mp torn
  · apply List.IsChain.imp_of_mem_imp
    intro v w isLeft isRight differ
    exact ⟨solid isLeft, solid isRight,
      (torn_iff (solid isLeft) (solid isRight) (run isLeft) (run isRight)).mpr differ⟩

end Kind

namespace Token

/-- All characters of the token are of kind `k`. -/
def IsOf (t : Token) (k : Kind) : Prop := ∀ c ∈ t.value.toList, Kind.ofChar c = k

/-- `pieces` lie side by side from the start of `t` on and read what `t` reads. Each of them is a
run of one kind, punctuation marks stand alone, and other kinds do not follow themselves. -/
structure CutsInto (t : Token) (pieces : List Token) : Prop where
  whole : String.join (pieces.map (·.value)) = t.value
  solid : ∀ piece ∈ pieces, piece.value ≠ ""
  opening : ∀ piece ∈ pieces.head?, piece.span.start = t.span.start
  contiguous : pieces.IsChain fun a b => a.span.stop = b.span.start
  sized : ∀ piece ∈ pieces, piece.span.stop = piece.span.start + piece.value.length
  uniform : ∀ piece ∈ pieces, ∃ k, piece.IsOf k
  alone : ∀ piece ∈ pieces, piece.IsOf .punctuation → piece.value.length = 1
  changing : pieces.IsChain fun a b => ∀ k, a.IsOf k → b.IsOf k → k = .punctuation

theorem map_layOut (start : Nat) (words : List (List Char)) :
    (layOut start words).map (·.value.toList) = words := by
  induction words generalizing start with
  | nil => rfl
  | cons word rest ih => rw [layOut, List.map_cons, ih, String.toList_ofList]

/-- Tokens are laid side by side if each begins where the one before stops and is as long as its
span. -/
theorem eq_layOut_iff {tokens : List Token} {start : Nat} :
    tokens = layOut start (tokens.map (·.value.toList)) ↔
      (∀ t ∈ tokens.head?, t.span.start = start) ∧
      (tokens.IsChain fun a b => a.span.stop = b.span.start) ∧
      ∀ t ∈ tokens, t.span.stop = t.span.start + t.value.length := by
  induction tokens generalizing start with
  | nil => simp [layOut]
  | cons t rest ih =>
    obtain ⟨value, first, stop⟩ := t
    simp only [List.map_cons, layOut, String.ofList_toList, String.length_toList, List.cons.injEq,
      Token.mk.injEq, Span.mk.injEq, true_and, ih, List.isChain_cons, List.head?_cons,
      Option.mem_some_iff, forall_eq', List.mem_cons, forall_eq_or_imp]
    constructor
    · intro ⟨⟨isStart, isStop⟩, next, chain, sized⟩
      exact ⟨isStart, ⟨fun b isNext => isStop.trans (next b isNext).symm, chain⟩,
        isStart ▸ isStop, sized⟩
    · intro ⟨isStart, ⟨next, chain⟩, size, sized⟩
      have isStop : stop = start + value.length := isStart ▸ size
      exact ⟨⟨isStart, isStop⟩, fun b isNext => (next b isNext).symm.trans isStop, chain, sized⟩

/-- There is one way to cut a token like that. -/
theorem cutsInto_iff {t : Token} {pieces : List Token} : t.CutsInto pieces ↔ pieces = t.pieces := by
  constructor
  · intro cuts
    have words : t.value.toList.splitBy Kind.holdsTogether = pieces.map (·.value.toList) := by
      apply Kind.splitBy_holdsTogether_iff.mpr
      refine ⟨?_, ?_, ?_, ?_⟩
      · rw [← cuts.whole, String.toList_join, List.flatMap_map, List.flatMap_def]
      · intro member
        obtain ⟨piece, isPiece, empty⟩ := List.mem_map.mp member
        exact cuts.solid piece isPiece (String.toList_eq_nil_iff.mp empty)
      · intro w member
        obtain ⟨piece, isPiece, rfl⟩ := List.mem_map.mp member
        obtain ⟨k, isKind⟩ := cuts.uniform piece isPiece
        refine ⟨k, isKind, ?_⟩
        rintro rfl
        exact cuts.alone piece isPiece isKind
      · exact (List.isChain_map _).mpr cuts.changing
    rw [Token.pieces, words]
    exact eq_layOut_iff.mpr ⟨cuts.opening, cuts.contiguous, cuts.sized⟩
  · rintro rfl
    have words : t.value.toList.splitBy Kind.holdsTogether = t.pieces.map (·.value.toList) :=
      (map_layOut _ _).symm
    obtain ⟨whole, noneEmpty, runs, changing⟩ := Kind.splitBy_holdsTogether_iff.mp words
    have laid : t.pieces = layOut t.span.start (t.pieces.map (·.value.toList)) := by
      rw [← words, Token.pieces]
    obtain ⟨opening, contiguous, sized⟩ := eq_layOut_iff.mp laid
    have run {piece : Token} (member : piece ∈ t.pieces) :
        ∃ k, piece.IsOf k ∧ (k = .punctuation → piece.value.length = 1) :=
      runs _ (List.mem_map_of_mem member)
    have solid {piece : Token} (member : piece ∈ t.pieces) : piece.value ≠ "" := by
      intro empty
      apply noneEmpty
      rw [← String.toList_empty, ← empty]
      exact List.mem_map_of_mem member
    have changing := (List.isChain_map _).mp changing
    refine ⟨?_, fun _ => solid, opening, contiguous, sized, ?_, ?_, changing⟩
    · rw [← String.toList_inj, String.toList_join, List.flatMap_map, List.flatMap_def, whole]
    · intro piece member
      exact (run member).imp fun _ => And.left
    · intro piece member marks
      obtain ⟨k, isKind, alone⟩ := run member
      have solid := mt String.toList_eq_nil_iff.mp (solid member)
      obtain ⟨c, isFirst⟩ := List.exists_mem_of_ne_nil _ solid
      exact alone ((isKind c isFirst).symm.trans (marks c isFirst))

/-- The pieces of a token are the one list of runs that it cuts into, and none of them is cut any
further. -/
theorem pieces_determined (t : Token) :
    (∀ pieces, t.CutsInto pieces ↔ pieces = t.pieces) ∧
      ∀ piece ∈ t.pieces, piece.pieces = [piece] := by
  refine ⟨fun _ => cutsInto_iff, fun piece member => ?_⟩
  have cuts : t.CutsInto t.pieces := cutsInto_iff.mpr rfl
  have itself : piece.CutsInto [piece] := {
    whole := by simp
    solid := by simpa using cuts.solid piece member
    opening := by simp
    contiguous := .singleton _
    sized := by simpa using cuts.sized piece member
    uniform := by simpa using cuts.uniform piece member
    alone := by simpa using cuts.alone piece member
    changing := .singleton _ }
  exact (cutsInto_iff.mp itself).symm

/-- Letters, digits, blanks of two sorts, a sign that counts as a letter and two marks. -/
def mixed : Token := ⟨"Ab12 \u3000²?!", ⟨7, 16⟩⟩

theorem pieces_mixed : mixed.pieces =
    [⟨"Ab", ⟨7, 9⟩⟩, ⟨"12", ⟨9, 11⟩⟩, ⟨" \u3000", ⟨11, 13⟩⟩, ⟨"²", ⟨13, 14⟩⟩, ⟨"?", ⟨14, 15⟩⟩,
      ⟨"!", ⟨15, 16⟩⟩] := by
  decide +kernel

theorem pieces_determined_mixed :
    mixed.CutsInto [⟨"Ab", ⟨7, 9⟩⟩, ⟨"12", ⟨9, 11⟩⟩, ⟨" \u3000", ⟨11, 13⟩⟩, ⟨"²", ⟨13, 14⟩⟩,
        ⟨"?", ⟨14, 15⟩⟩, ⟨"!", ⟨15, 16⟩⟩] ∧
      (⟨" \u3000", ⟨11, 13⟩⟩ : Token).pieces = [⟨" \u3000", ⟨11, 13⟩⟩] := by
  obtain ⟨determined, uncut⟩ := pieces_determined mixed
  refine ⟨(determined _).mpr pieces_mixed.symm, uncut _ ?_⟩
  rw [pieces_mixed]
  simp

end Token

end Phrasebook
