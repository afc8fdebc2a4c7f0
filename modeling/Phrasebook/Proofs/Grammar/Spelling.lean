import Phrasebook.Proofs.Grammar.Built

namespace Phrasebook

/-- A nonterminal is called `<name>`, where the name is not empty and has no forbidden characters. -/
def IsName (name : String) : Prop :=
  ∃ inner : List Char, inner ≠ [] ∧ name.toList = '<' :: inner ++ ['>'] ∧
    ∀ c ∈ inner, isForbidden c = false

theorem isName_iff {name : List Char} :
    isName name = true ↔
      ∃ inner : List Char, inner ≠ [] ∧ name = '<' :: inner ++ ['>'] ∧
        ∀ c ∈ inner, isForbidden c = false := by
  constructor
  · intro valid
    unfold isName at valid
    split at valid
    · next rest =>
      split at valid
      · next inner isReverse =>
        simp only [Bool.and_eq_true, Bool.not_eq_true', List.isEmpty_eq_false_iff,
          List.all_eq_true] at valid
        have shape : rest = inner.reverse ++ ['>'] := by
          rw [← List.reverse_reverse rest, isReverse, List.reverse_cons]
        refine ⟨inner.reverse, by simpa using valid.1, by rw [shape]; rfl, fun c member => ?_⟩
        exact valid.2 c (List.mem_reverse.mp member)
      · cases valid
    · cases valid
  · rintro ⟨inner, nonempty, rfl, allowed⟩
    have isReverse : (inner ++ ['>']).reverse = '>' :: inner.reverse := by simp
    simp only [isName, List.cons_append, isReverse, Bool.and_eq_true, Bool.not_eq_true',
      List.isEmpty_eq_false_iff, List.all_eq_true, List.mem_reverse]
    exact ⟨by simpa using nonempty, allowed⟩

theorem isName_toList {name : String} : isName name.toList = true ↔ IsName name := isName_iff

namespace Written

def text : Written → String
  | .literal t => t
  | .name n => n

/-- What may stand in a right-hand side. -/
def Valid : Written → Prop
  | .literal t => t ≠ "" ∧ ∀ c ∈ t.toList, isForbidden c = false
  | .name n => IsName n

/-- `raw` is the element as its author writes it, with a question mark if it is optional. -/
def Forms (w : Written) (optional : Bool) (raw : String) : Prop :=
  w.Valid ∧ raw.toList = w.text.toList ++ if optional then ['?'] else []

/-- Nothing is lost by looking for a question mark. -/
theorem splitOptional_append (raw : List Char) :
    (splitOptional raw).1 ++ (if (splitOptional raw).2 then ['?'] else []) = raw := by
  unfold splitOptional
  split
  · next c body isReverse =>
    rw [← List.reverse_reverse raw, isReverse]
    simp
  · simp

theorem splitOptional_ne_nil {raw : List Char} (nonempty : raw ≠ []) :
    (splitOptional raw).1 ≠ [] := by
  unfold splitOptional
  split
  · simp
  · exact nonempty

theorem splitOptional_marked {body : List Char} (nonempty : body ≠ []) :
    splitOptional (body ++ ['?']) = (body, true) := by
  obtain ⟨c, rest, isReverse⟩ := List.exists_cons_of_ne_nil (List.reverse_ne_nil_iff.mpr nonempty)
  obtain rfl : body = (c :: rest).reverse := by rw [← isReverse, List.reverse_reverse]
  have shape : ((c :: rest).reverse ++ ['?']).reverse = '?' :: c :: rest := by simp
  rw [splitOptional, shape]
  rfl

theorem splitOptional_bare {body : List Char} (mark : body.getLast? ≠ some '?') :
    splitOptional body = (body, false) := by
  unfold splitOptional
  split
  · next c rest isReverse =>
    have last : body.getLast? = some '?' := by
      rw [← List.head?_reverse, isReverse]
      rfl
    exact absurd last mark
  · rfl

theorem ends_of_isName {body : List Char} (isName : isName body = true) :
    body.head? = some '<' ∧ body.getLast? = some '>' := by
  obtain ⟨inner, _, rfl, _⟩ := isName_iff.mp isName
  exact ⟨rfl, List.getLast?_concat ..⟩

theorem forall_isForbidden_iff {body : List Char} : (∀ c ∈ body, isForbidden c = false) ↔
    body.any (fun c => c == '<' || c == '>') = false ∧ body.any (· == '?') = false ∧
      body.any (· == '\x00') = false ∧ body.any Unicode.isBlank = false := by
  simp only [isForbidden, List.any_eq_false, ← forall₂_and, Bool.not_eq_true, Bool.or_eq_false_iff,
    and_assoc]

/-- With a bracket at an end it can only be a name. -/
theorem readBody_bracketed {body : List Char} {w : Written}
    (bracketed : body.head? = some '<' ∨ body.getLast? = some '>') :
    readBody body = .ok w ↔ isName body = true ∧ w = .name (String.ofList body) := by
  rw [readBody, if_pos (by simpa using bracketed)]
  cases isName body <;> simp [eq_comm]

/-- With a bracket at neither end it can only be a literal. -/
theorem readBody_plain {body : List Char} {w : Written}
    (plain : ¬ (body.head? = some '<' ∨ body.getLast? = some '>')) :
    readBody body = .ok w ↔
      (∀ c ∈ body, isForbidden c = false) ∧ w = .literal (String.ofList body) := by
  rw [readBody, if_neg (by simpa using plain), forall_isForbidden_iff]
  cases body.any (fun c => c == '<' || c == '>') <;> cases body.any (· == '?') <;>
    cases body.any (· == '\x00') <;> cases body.any Unicode.isBlank <;> simp [eq_comm]

theorem readBody_eq_ok_iff {body : List Char} (nonempty : body ≠ []) {w : Written} :
    readBody body = .ok w ↔ w.Valid ∧ body = w.text.toList := by
  constructor
  · intro isRead
    by_cases bracketed : body.head? = some '<' ∨ body.getLast? = some '>'
    · obtain ⟨valid, rfl⟩ := (readBody_bracketed bracketed).mp isRead
      exact ⟨isName_toList.mp (by simpa using valid), by simp [text]⟩
    · obtain ⟨allowed, rfl⟩ := (readBody_plain bracketed).mp isRead
      exact ⟨⟨by simpa using nonempty, by simpa using allowed⟩, by simp [text]⟩
  · rintro ⟨valid, rfl⟩
    cases w with
    | literal t =>
      have plain : ¬ (t.toList.head? = some '<' ∨ t.toList.getLast? = some '>') := by
        rintro (first | last)
        · exact absurd (valid.2 _ (List.mem_of_head? first)) (by decide)
        · exact absurd (valid.2 _ (List.mem_of_getLast? last)) (by decide)
      exact (readBody_plain plain).mpr ⟨valid.2, by simp⟩
    | name n =>
      have isName := isName_toList.mpr valid
      exact (readBody_bracketed (.inl (ends_of_isName isName).1)).mpr ⟨isName, by simp⟩

theorem Valid.text_ne_nil {w : Written} (valid : w.Valid) : w.text.toList ≠ [] := by
  cases w with
  | literal t => exact fun empty => valid.1 (String.toList_eq_nil_iff.mp empty)
  | name n =>
    obtain ⟨inner, _, eq, _⟩ := id valid
    simp [text, eq]

theorem Valid.getLast?_ne {w : Written} (valid : w.Valid) : w.text.toList.getLast? ≠ some '?' := by
  cases w with
  | literal t =>
    intro last
    have forbidden : isForbidden '?' = false := valid.2 _ (List.mem_of_getLast? last)
    simp [isForbidden] at forbidden
  | name n =>
    rw [text, (ends_of_isName (isName_toList.mpr valid)).2]
    simp

/-- Reading an element accepts what authors write and nothing else. -/
theorem read_eq_ok_iff {raw : String} {w : Written} {optional : Bool} :
    read raw = .ok (w, optional) ↔ w.Forms optional raw := by
  constructor
  · intro isRead
    unfold read at isRead
    split at isRead
    · cases isRead
    · next nonempty =>
      have whole := splitOptional_append raw.toList
      have left : (splitOptional raw.toList).1 ≠ [] := splitOptional_ne_nil (by simpa using nonempty)
      generalize splitOptional raw.toList = parts at isRead whole left
      obtain ⟨body, isOptional⟩ := parts
      cases result : readBody body with
      | error flaw => simp [result, Except.map] at isRead
      | ok written =>
        simp only [result, Except.map, Except.ok.injEq, Prod.mk.injEq] at isRead
        obtain ⟨rfl, rfl⟩ := isRead
        obtain ⟨valid, rfl⟩ := (readBody_eq_ok_iff left).mp result
        exact ⟨valid, whole.symm⟩
  · rintro ⟨valid, eq⟩
    have nonempty : raw.isEmpty = false := by
      rw [← Bool.not_eq_true, String.isEmpty_iff, ← String.toList_eq_nil_iff, eq]
      simp [valid.text_ne_nil]
    have parts : splitOptional raw.toList = (w.text.toList, optional) := by
      rw [eq]
      cases optional with
      | true => exact splitOptional_marked valid.text_ne_nil
      | false => simpa using splitOptional_bare valid.getLast?_ne
    rw [read, nonempty, if_neg (by simp), parts]
    simp only [(readBody_eq_ok_iff valid.text_ne_nil).mpr ⟨valid, rfl⟩, Except.map]

end Written

/-- A selection of elements that keeps every mandatory one. -/
inductive Keeps : List (α × Bool) → List α → Prop
  | nil : Keeps [] []
  | keep {e : α} {optional : Bool} {rest : List (α × Bool)} {kept : List α} (tail : Keeps rest kept) :
    Keeps ((e, optional) :: rest) (e :: kept)
  | leave {e : α} {rest : List (α × Bool)} {kept : List α} (tail : Keeps rest kept) :
    Keeps ((e, true) :: rest) kept

theorem mem_variants_iff {elements : List (α × Bool)} {kept : List α} :
    kept ∈ variants elements ↔ Keeps elements kept := by
  induction elements generalizing kept with
  | nil =>
    rw [variants, List.mem_singleton]
    exact ⟨fun eq => eq ▸ .nil, fun keeps => by cases keeps; rfl⟩
  | cons head rest ih =>
    obtain ⟨e, optional⟩ := head
    cases optional with
    | false =>
      simp only [variants, List.mem_map, ih]
      exact ⟨fun ⟨tail, keeps, eq⟩ => eq ▸ .keep keeps, fun keeps => by
        cases keeps with
        | keep tail => exact ⟨_, tail, rfl⟩⟩
    | true =>
      simp only [variants, List.mem_flatMap, ih, List.mem_cons, List.not_mem_nil, or_false]
      constructor
      · rintro ⟨tail, keeps, rfl | rfl⟩
        · exact .keep keeps
        · exact .leave keeps
      · intro keeps
        cases keeps with
        | keep tail => exact ⟨_, tail, .inl rfl⟩
        | leave tail => exact ⟨_, tail, .inr rfl⟩

/-- The full list comes first. -/
theorem head?_variants (elements : List (α × Bool)) :
    (variants elements).head? = some (elements.map (·.1)) := by
  induction elements with
  | nil => rfl
  | cons head rest ih =>
    obtain ⟨e, optional⟩ := head
    obtain ⟨others, eq⟩ := List.head?_eq_some_iff.mp ih
    cases optional <;> simp [variants, eq]

section
variable [BEq α] [Hashable α] [LawfulBEq α] [LawfulHashable α]

theorem nodup_distinct (items : List α) : (distinct items).Nodup := by
  rw [distinct_eq_eraseDups]
  induction length : items.length using Nat.strong_induction_on generalizing items with
  | _ n ih =>
    cases items with
    | nil => simp
    | cons a rest =>
      rw [List.eraseDups_cons]
      refine List.nodup_cons.mpr ⟨by simp [List.mem_eraseDups], ih _ ?_ _ rfl⟩
      exact length ▸ Nat.lt_succ_of_le (List.length_filter_le ..)

theorem head?_distinct (items : List α) : (distinct items).head? = items.head? := by
  rw [distinct_eq_eraseDups]
  cases items with
  | nil => rfl
  | cons a rest =>
    rw [List.eraseDups_cons]
    rfl

end

end Phrasebook
