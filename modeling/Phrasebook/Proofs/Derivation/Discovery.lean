import Phrasebook.Proofs.Derivation.Widest

namespace Phrasebook

/-- No negative assertion occurs in the tree of the derivation. -/
def Arena.Clean (a : Arena) (d : Derivation) : Prop :=
  ∀ x m, a.Below d.root x → a.get? x = some m → m.kind ≠ .assertion true

namespace Derivation

/-- In the order in which candidates are swept, with nothing that shadows what comes after it. -/
def Settled (a : Arena) (ds : List Derivation) : Prop :=
  ds.Pairwise fun c d => precedes (c, a.spanOf c) (d, a.spanOf d) = true ∧
    ¬ Shadows (c, a.spanOf c) (d, a.spanOf d)

theorem unshadowed_eq_self {kept xs : List (Derivation × Span)}
    (free : ∀ y ∈ kept, ∀ x ∈ xs, ¬ Shadows y x) (apart : xs.Pairwise fun x y => ¬ Shadows x y) :
    unshadowed kept xs = xs.map (·.1) := by
  induction xs generalizing kept with
  | nil => rfl
  | cons x rest ih =>
    obtain ⟨here, later⟩ := List.pairwise_cons.mp apart
    have alone : ¬ ∃ y ∈ kept, Shadows y x := by
      rintro ⟨y, isKept, shadows⟩
      exact free y isKept x List.mem_cons_self shadows
    rw [unshadowed, if_neg alone, List.map_cons]
    congr 1
    apply ih _ later
    intro y member z isLater
    rcases List.mem_cons.mp member with rfl | old
    · exact here z isLater
    · exact free y old z (List.mem_cons_of_mem _ isLater)

theorem mem_of_mem_deduplicate {a : Arena} {ds : List Derivation} {d : Derivation}
    (kept : d ∈ deduplicate a ds) : d ∈ ds := by
  obtain ⟨i, found, _⟩ := mem_deduplicate.mp kept
  exact List.mem_of_getElem? found

theorem settled_deduplicate (a : Arena) (ds : List Derivation) : Settled a (deduplicate a ds) := by
  apply (deduplicate_pairwise a ds).imp_of_mem
  intro c d isFirst isSecond before
  constructor
  · rw [precedes_iff]
    exact before.imp_right fun ⟨rule, start⟩ => ⟨rule, .inl start⟩
  · rintro ⟨rule, contains⟩
    obtain ⟨i, _, stands⟩ := mem_deduplicate.mp isSecond
    rcases before with lower | ⟨_, start⟩
    · exact absurd (rule ▸ lower) (UInt64.lt_irrefl _)
    · have differs : a.spanOf c ≠ a.spanOf d := by
        intro span
        exact absurd start (span ▸ Nat.lt_irrefl _)
      have outside := stands.widest c (mem_of_mem_deduplicate isFirst) rule differs
      exact absurd contains (by simp [outside])

theorem Settled.deduplicate {a : Arena} {ds : List Derivation} (settled : Settled a ds) :
    deduplicate a ds = ds := by
  have inOrder : (ds.map fun d => (d, a.spanOf d)).Pairwise fun x y => precedes x y = true :=
    List.pairwise_map.mpr (settled.imp fun both => both.1)
  have apart : (ds.map fun d => (d, a.spanOf d)).Pairwise fun x y => ¬ Shadows x y :=
    List.pairwise_map.mpr (settled.imp fun both => both.2)
  calc Derivation.deduplicate a ds
    _ = unshadowed [] (sorted a ds) := deduplicate_eq_unshadowed a ds
    _ = unshadowed [] (ds.map fun d => (d, a.spanOf d)) := by
      rw [sorted, List.mergeSort_of_pairwise inOrder]
    _ = (ds.map fun d => (d, a.spanOf d)).map (·.1) := unshadowed_eq_self (by simp) apart
    _ = ds := by rw [List.map_map]; exact List.map_id ds

theorem shadows_self (x : Derivation × Span) : Shadows x x := by
  simp [Shadows, Span.contains]

/-- Whatever is swept is shadowed by something that is kept. -/
theorem exists_shadows (kept : List (Derivation × Span)) {xs : List (Derivation × Span)}
    {x : Derivation × Span} (member : x ∈ xs) : ∃ y, Shadows y x ∧ (y ∈ kept ∨ y ∈ xs ∧ y.1 ∈ unshadowed kept xs) := by
  induction xs generalizing kept with
  | nil => cases member
  | cons z rest ih =>
    rw [unshadowed]
    by_cases shadowed : ∃ y ∈ kept, Shadows y z
    · rw [if_pos shadowed]
      rcases List.mem_cons.mp member with rfl | later
      · obtain ⟨y, isKept, shadows⟩ := shadowed
        exact ⟨y, shadows, .inl isKept⟩
      · obtain ⟨y, shadows, isKept | ⟨inRest, stays⟩⟩ := ih kept later
        · exact ⟨y, shadows, .inl isKept⟩
        · exact ⟨y, shadows, .inr ⟨List.mem_cons_of_mem _ inRest, stays⟩⟩
    · rw [if_neg shadowed]
      have isFirst : z.1 ∈ z.1 :: unshadowed (z :: kept) rest := List.mem_cons_self
      rcases List.mem_cons.mp member with rfl | later
      · exact ⟨x, shadows_self x, .inr ⟨List.mem_cons_self, isFirst⟩⟩
      · obtain ⟨y, shadows, old | ⟨inRest, stays⟩⟩ := ih (z :: kept) later
        · rcases List.mem_cons.mp old with rfl | isKept
          · exact ⟨y, shadows, .inr ⟨List.mem_cons_self, isFirst⟩⟩
          · exact ⟨y, shadows, .inl isKept⟩
        · exact ⟨y, shadows, .inr ⟨List.mem_cons_of_mem _ inRest, List.mem_cons_of_mem _ stays⟩⟩

/-- The order in which candidates were found does not matter for the spans that are kept. -/
theorem map_deduplicate_perm (a : Arena) {ds es : List Derivation} (perm : ds.Perm es) :
    (deduplicate a ds).map (report a) = (deduplicate a es).map (report a) := by
  apply map_deduplicate_congr
  intro r
  exact (perm.map _).mem_iff

/-- A second sweep changes nothing, also where what is not valid was dropped in between, and the
order in which candidates were found does not matter for the spans that are kept. Nothing is lost:
the span of each candidate lies within one that is kept of its rule. -/
theorem deduplicate_settles (a : Arena) (ds : List Derivation) :
    deduplicate a (deduplicate a ds) = deduplicate a ds ∧
    deduplicate a (select a ds) = select a ds ∧
    (∀ es, ds.Perm es →
      (deduplicate a ds).map (report a) = (deduplicate a es).map (report a)) ∧
    ∀ c ∈ ds, ∃ d ∈ deduplicate a ds, d.ruleId = c.ruleId ∧
      (a.spanOf d).contains (a.spanOf c) = true := by
  have settled := settled_deduplicate a ds
  refine ⟨settled.deduplicate, ?_, ?_, ?_⟩
  · have valid : Settled a (select a ds) := settled.filter _
    exact valid.deduplicate
  · intro es perm
    exact map_deduplicate_perm a perm
  · intro c member
    have swept : (c, a.spanOf c) ∈ sorted a ds :=
      List.mem_mergeSort.mpr (List.mem_map_of_mem member)
    obtain ⟨⟨d, span⟩, ⟨rule, contains⟩, none | ⟨isSwept, kept⟩⟩ := exists_shadows [] swept
    · cases none
    · rw [deduplicate_eq_unshadowed]
      obtain ⟨e, _, same⟩ := List.mem_map.mp (List.mem_mergeSort.mp isSwept)
      obtain ⟨rfl, rfl⟩ := Prod.mk.inj same
      exact ⟨e, kept, rule, contains⟩

/-- A wide candidate that is not valid, found between two narrow ones, and the same candidates in
another order. The narrow one of its rule lies within the wide one. -/
theorem deduplicate_settles_negated :
    [⟨1, 0⟩, ⟨1, 2⟩, ⟨2, 0⟩].Perm ([⟨2, 0⟩, ⟨1, 2⟩, ⟨1, 0⟩] : List Derivation) ∧
      (deduplicate .negated [⟨1, 0⟩, ⟨1, 2⟩, ⟨2, 0⟩]).map (report .negated) =
        (deduplicate .negated [⟨2, 0⟩, ⟨1, 2⟩, ⟨1, 0⟩]).map (report .negated) ∧
      ∃ d ∈ deduplicate .negated [⟨1, 0⟩, ⟨1, 2⟩, ⟨2, 0⟩], d.ruleId = 1 ∧
        (Arena.negated.spanOf d).contains (Arena.negated.spanOf ⟨1, 0⟩) = true := by
  have perm : [⟨1, 0⟩, ⟨1, 2⟩, ⟨2, 0⟩].Perm ([⟨2, 0⟩, ⟨1, 2⟩, ⟨1, 0⟩] : List Derivation) := by decide
  obtain ⟨_, _, kept, within⟩ := deduplicate_settles .negated [⟨1, 0⟩, ⟨1, 2⟩, ⟨2, 0⟩]
  exact ⟨perm, kept _ perm, within ⟨1, 0⟩ (by decide)⟩

/-! ### Candidates of one rule over one span -/

/-- A candidate has this report, and no other span of its rule contains the span. -/
def Outermost (a : Arena) (ds : List Derivation) (r : UInt64 × Span) : Prop :=
  r ∈ ds.map (report a) ∧
    ∀ q ∈ ds.map (report a), q.1 = r.1 → q.2 ≠ r.2 → q.2.contains r.2 = false

/-- The candidate with this report that was found first. -/
def firstFound (a : Arena) (ds : List Derivation) (r : UInt64 × Span) : Option Derivation :=
  ds.find? (report a · == r)

section
variable {a : Arena} {ds es : List Derivation} {r : UInt64 × Span}

theorem Outermost.of_perm (perm : ds.Perm es) (outermost : Outermost a ds r) :
    Outermost a es r := by
  obtain ⟨member, alone⟩ := outermost
  have same := perm.map (report a)
  constructor
  · exact same.mem_iff.mp member
  · intro q isReport
    exact alone q (same.mem_iff.mpr isReport)

theorem Outermost.exists_firstFound (outermost : Outermost a ds r) :
    ∃ d, firstFound a ds r = some d := by
  obtain ⟨d, member, same⟩ := List.mem_map.mp outermost.1
  apply Option.isSome_iff_exists.mp
  rw [firstFound, List.find?_isSome]
  exact ⟨d, member, beq_iff_eq.mpr same⟩

theorem report_of_firstFound {d : Derivation} (found : firstFound a ds r = some d) :
    d ∈ ds ∧ report a d = r := by
  have isFirst : ds.find? (report a · == r) = some d := found
  have same := List.find?_some isFirst
  exact ⟨List.mem_of_find?_eq_some isFirst, beq_iff_eq.mp same⟩

/-- Of the candidates with a report the first found is kept. -/
theorem firstFound_of_mem_deduplicate {d : Derivation} (kept : d ∈ deduplicate a ds) :
    firstFound a ds (report a d) = some d := by
  obtain ⟨i, found, stands⟩ := mem_deduplicate.mp kept
  obtain ⟨inRange, isHere⟩ := List.getElem?_eq_some_iff.mp found
  refine List.find?_eq_some_iff_getElem.mpr ⟨beq_self_eq_true _, i, inRange, isHere, ?_⟩
  intro j earlier
  have other := List.getElem?_eq_getElem (Nat.lt_trans earlier inRange)
  simp only [Bool.not_eq_true', beq_eq_false_iff_ne, report, ne_eq, Prod.mk.injEq, not_and]
  exact stands.first j _ earlier other

/-- What is reported are the outermost spans whose first candidate is valid. -/
theorem map_select (a : Arena) (ds : List Derivation) :
    (select a ds).map (report a) =
      ((deduplicate a ds).map (report a)).filter fun r => (firstFound a ds r).any a.isValid := by
  rw [List.filter_map, select]
  congr 1
  apply List.filter_congr
  intro d kept
  rw [Function.comp_apply, firstFound_of_mem_deduplicate kept, Option.any_some]

/-- Two lists that are kept alike are reported alike exactly if their first candidates are valid
alike. -/
theorem map_select_eq_iff (same : (deduplicate a ds).map (report a) =
      (deduplicate a es).map (report a)) :
    (select a ds).map (report a) = (select a es).map (report a) ↔ ∀ r, Outermost a ds r →
      (firstFound a ds r).any a.isValid = (firstFound a es r).any a.isValid := by
  rw [map_select, map_select, ← same]
  constructor
  · intro equal r outermost
    have kept := mem_map_deduplicate.mpr outermost
    have both := congrArg (r ∈ ·) equal
    simp only [List.mem_filter, kept, true_and] at both
    exact Bool.eq_iff_iff.mpr (iff_of_eq both)
  · intro alike
    apply List.filter_congr
    intro r kept
    exact alike r (mem_map_deduplicate.mp kept)

/-- A candidate that is moved to the front is the first with its report. -/
theorem firstFound_cons_self {d : Derivation} (same : report a d = r) :
    firstFound a (d :: es) r = some d :=
  List.find?_cons_of_pos (beq_iff_eq.mpr same)

end

/-- Candidates in another order are reported alike exactly if, of the candidates of a rule over an
outermost span, the first found in the one order is valid whenever the first found in the other is.
So the order never matters exactly if the candidates of a rule over an outermost span are all valid
or all not. -/
theorem select_perm_iff {a : Arena} (first : a.ChildrenFirst) (ds : List Derivation) :
    (∀ es, ds.Perm es → ((select a ds).map (report a) = (select a es).map (report a) ↔
      ∀ r, Outermost a ds r → ∀ c ∈ firstFound a ds r, ∀ d ∈ firstFound a es r,
        (a.Clean c ↔ a.Clean d))) ∧
    ((∀ es, ds.Perm es → (select a ds).map (report a) = (select a es).map (report a)) ↔
      ∀ r, Outermost a ds r → ∀ c ∈ ds, ∀ d ∈ ds, report a c = r → report a d = r →
        (a.Clean c ↔ a.Clean d)) := by
  have clean (d : Derivation) : a.isValid d = true ↔ a.Clean d := Arena.isValid_iff first d
  have alike (es : List Derivation) (perm : ds.Perm es) :
      (select a ds).map (report a) = (select a es).map (report a) ↔
        ∀ r, Outermost a ds r → ∀ c ∈ firstFound a ds r, ∀ d ∈ firstFound a es r,
          (a.Clean c ↔ a.Clean d) := by
    rw [map_select_eq_iff (map_deduplicate_perm a perm)]
    refine forall₂_congr fun r outermost => ?_
    obtain ⟨c, isFirst⟩ := outermost.exists_firstFound
    obtain ⟨d, isOther⟩ := (outermost.of_perm perm).exists_firstFound
    simp [isFirst, isOther, Bool.eq_iff_iff, clean]
  refine ⟨alike, ?_⟩
  constructor
  · intro always r outermost c isC d isD sameC sameD
    have front (e : Derivation) (member : e ∈ ds) (same : report a e = r) :
        ∀ b ∈ firstFound a ds r, a.Clean b ↔ a.Clean e := by
      intro b isFirst
      have perm := List.perm_cons_erase member
      exact (alike _ perm).mp (always _ perm) r outermost b isFirst e (firstFound_cons_self same)
    obtain ⟨b, isFirst⟩ := outermost.exists_firstFound
    exact (front c isC sameC b isFirst).symm.trans (front d isD sameD b isFirst)
  · intro agree es perm
    apply (alike es perm).mpr
    intro r outermost c isFirst d isOther
    obtain ⟨isC, sameC⟩ := report_of_firstFound isFirst
    obtain ⟨isD, sameD⟩ := report_of_firstFound isOther
    exact agree r outermost c isC d (perm.mem_iff.mpr isD) sameC sameD

end Derivation

/-- Two matches over one span, the second a negative assertion, and one over a longer span. -/
def Arena.disputed : Arena :=
  ⟨#[{ symbol := 1, span := ⟨0, 2⟩, offset := 0 },
    { symbol := 1, span := ⟨0, 2⟩, offset := 0, kind := .assertion true },
    { symbol := 1, span := ⟨0, 4⟩, offset := 0 }]⟩

namespace Derivation

/-- Whether the span is reported depends on which candidate was found first. -/
theorem disputed_depends :
    Arena.disputed.ChildrenFirst ∧ [⟨1, 0⟩, ⟨1, 1⟩].Perm ([⟨1, 1⟩, ⟨1, 0⟩] : List Derivation) ∧
      (select .disputed [⟨1, 0⟩, ⟨1, 1⟩]).map (report .disputed) = [(1, ⟨0, 2⟩)] ∧
      (select .disputed [⟨1, 1⟩, ⟨1, 0⟩]).map (report .disputed) = [] := by
  have first : Arena.disputed.ChildrenFirst := by decide
  refine ⟨first, by decide, ?_, ?_⟩
  · rw [select_eq first]
    cbv
  · rw [select_eq first]
    cbv

/-- Where a longer span of the rule was found as well, the order does not matter. -/
theorem select_perm_iff_disputed :
    Arena.disputed.ChildrenFirst ∧
      [⟨1, 0⟩, ⟨1, 1⟩, ⟨1, 2⟩].Perm ([⟨1, 1⟩, ⟨1, 0⟩, ⟨1, 2⟩] : List Derivation) ∧
      (select .disputed [⟨1, 0⟩, ⟨1, 1⟩, ⟨1, 2⟩]).map (report .disputed) =
        (select .disputed [⟨1, 1⟩, ⟨1, 0⟩, ⟨1, 2⟩]).map (report .disputed) := by
  have first : Arena.disputed.ChildrenFirst := by decide
  have perm : [⟨1, 0⟩, ⟨1, 1⟩, ⟨1, 2⟩].Perm ([⟨1, 1⟩, ⟨1, 0⟩, ⟨1, 2⟩] : List Derivation) := by decide
  refine ⟨first, perm, ((select_perm_iff first _).1 _ perm).mpr ?_⟩
  rintro r ⟨member, alone⟩ c isFirst d isOther
  have wide := alone (1, ⟨0, 4⟩) (by decide)
  have cases : r = (1, ⟨0, 2⟩) ∨ r = (1, ⟨0, 4⟩) := by
    simpa [report, Arena.spanOf, Arena.get?, Arena.disputed] using member
  rcases cases with rfl | rfl
  · exact absurd (wide rfl (by decide)) (by decide)
  · have same : c = d := Option.some.inj (isFirst.symm.trans isOther)
    rw [same]

end Derivation

end Phrasebook
