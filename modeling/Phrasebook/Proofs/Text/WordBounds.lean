import Phrasebook.Proofs.Text.Pieces

namespace Phrasebook

/-- The span lies within the text, and `body` is the part of the text that it marks off. -/
structure Span.Marks (s : Span) (text body : String) : Prop where
  ordered : s.start ≤ s.stop
  within : s.stop ≤ text.length
  cut : ∃ before after, text.toList = before ++ body.toList ++ after ∧ before.length = s.start ∧
    body.length = s.length

namespace Span

theorem marks_iff {s : Span} {text body : String} :
    s.Marks text body ↔ ∃ before after, text.toList = before ++ body.toList ++ after ∧
      s.start = before.length ∧ s.stop = s.start + body.length := by
  constructor
  · rintro ⟨ordered, _, before, after, whole, start, length⟩
    refine ⟨before, after, whole, start.symm, ?_⟩
    rw [length, Span.length]
    omega
  · rintro ⟨before, after, whole, start, stop⟩
    have size := congrArg List.length whole
    simp only [List.length_append, String.length_toList] at size
    refine ⟨by omega, by omega, before, after, whole, start.symm, ?_⟩
    rw [Span.length]
    omega

/-- A span within the text marks off what is cut out of the text with it. -/
theorem marks_slice {s : Span} {text : String} (ordered : s.start ≤ s.stop)
    (within : s.stop ≤ text.length) :
    s.Marks text (String.ofList (s.slice text.toList.toArray)) := by
  have inText : s.stop ≤ text.toList.length := String.length_toList.symm ▸ within
  have slice : s.slice text.toList.toArray = (text.toList.drop s.start).take s.length := by
    simp [Span.slice, Span.length]
  refine ⟨ordered, within, text.toList.take s.start, text.toList.drop s.stop, ?_, ?_, ?_⟩
  · have stop : s.stop = s.start + s.length := by
      rw [Span.length]
      omega
    rw [String.toList_ofList, slice, stop, ← List.drop_drop, List.append_assoc,
      List.take_append_drop, List.take_append_drop]
  · rw [List.length_take]
    omega
  · rw [String.length_ofList, slice, List.length_take, List.length_drop, Span.length]
    omega

/-- What a part of a part marks off in the part, it marks off in the whole. -/
theorem Marks.trans {s t : Span} {text body inner : String} {before after : List Char}
    (outer : s.Marks text body) (whole : body.toList = before ++ inner.toList ++ after)
    (start : t.start = s.start + before.length) (stop : t.stop = t.start + inner.length) :
    t.Marks text inner := by
  obtain ⟨front, back, isText, isStart, _⟩ := marks_iff.mp outer
  refine marks_iff.mpr ⟨front ++ before, after ++ back, ?_, ?_, stop⟩
  · rw [isText, whole]
    simp only [List.append_assoc]
  · rw [start, isStart, List.length_append]

end Span

namespace Words

/-- Cutting keeps every character: those of the words before, of the word under way and still to
come. -/
theorem flatten_cut (done : List (List Char)) (joint : Joint) (last : Char) (word rest : List Char) :
    (cut done joint last word rest).flatten = done.reverse.flatten ++ word.reverse ++ rest := by
  induction rest generalizing done joint last word with
  | nil => simp [cut]
  | cons c rest ih =>
    rw [cut]
    split
    · rw [ih]
      simp
    · rw [ih]
      simp

/-- The words of a text make it up again. -/
theorem flatten_split (text : List Char) : (split text).flatten = text := by
  cases text with
  | nil => rfl
  | cons c rest => simp [split, flatten_cut]

end Words

namespace Token

/-- Each of the words laid side by side stands where its span says. -/
theorem cut_layOut {words : List (List Char)} {start : Nat} {t : Token}
    (member : t ∈ layOut start words) :
    ∃ before after, words.flatten = before ++ t.value.toList ++ after ∧
      t.span.start = start + before.length ∧ t.span.stop = t.span.start + t.value.length := by
  induction words generalizing start with
  | nil => cases member
  | cons word rest ih =>
    rcases List.mem_cons.mp member with rfl | member
    · exact ⟨[], rest.flatten, by simp, rfl, by simp⟩
    · obtain ⟨before, after, whole, isStart, isStop⟩ := ih member
      refine ⟨word ++ before, after, ?_, ?_, isStop⟩
      · rw [List.flatten_cons, whole]
        simp only [List.append_assoc]
      · rw [isStart, List.length_append, Nat.add_assoc]

end Token

section
variable {split : Words.Splitter} {text : String}

/-- A token of a text reads what its span marks off. -/
theorem marks_of_mem_tokenize (whole : (split text.toList).flatten = text.toList) {t : Token}
    (member : t ∈ tokenize text split) : t.span.Marks text t.value := by
  obtain ⟨before, after, isText, start, stop⟩ := Token.cut_layOut member
  rw [whole] at isText
  exact Span.marks_iff.mpr ⟨before, after, isText, by omega, stop⟩

/-- A solid piece of a text reads what its span marks off. -/
theorem marks_of_mem_solidPieces (whole : (split text.toList).flatten = text.toList)
    {piece : Token} (member : piece ∈ solidPieces (tokenize text split)) :
    piece.span.Marks text piece.value := by
  obtain ⟨t, isToken, inToken⟩ := List.mem_flatMap.mp (List.mem_filter.mp member).1
  obtain ⟨before, after, isText, start, stop⟩ := Token.cut_layOut inToken
  rw [List.flatten_splitBy] at isText
  exact (marks_of_mem_tokenize whole isToken).trans isText start stop

end

end Phrasebook
