import Mathlib
import Phrasebook.Proofs.Derivation.Unfolding

/-!
Which derivations are reported. One sweep over the sorted candidates, remembering how far the last
one reached, finds the same as comparing each candidate with all that were kept before it; and what
it keeps is said without any order by `Stands`: a candidate that lies in no wider one of its rule,
is the first to cover its span, and has no negative assertion below it.
-/

namespace Phrasebook

namespace Derivation

theorem precedes_iff (x y : Derivation × Span) :
    precedes x y = true ↔ x.1.ruleId < y.1.ruleId ∨ x.1.ruleId = y.1.ruleId ∧
      (x.2.start < y.2.start ∨ x.2.start = y.2.start ∧ y.2.stop ≤ x.2.stop) := by
  simp only [precedes, bne_iff_ne, ne_eq, Ordering.then_eq_gt, Std.compare_eq_gt,
    Std.LawfulEqOrd.compare_eq_iff_eq, UInt64.lt_iff_toNat_lt, ← UInt64.toNat_inj]
  omega

theorem precedes_of_same {x y : Derivation × Span} (rule : x.1.ruleId = y.1.ruleId)
    (span : x.2 = y.2) : precedes x y = true := by
  rw [precedes_iff, rule, span]
  exact .inr ⟨rfl, .inr ⟨rfl, Nat.le_refl _⟩⟩

theorem precedes_trans (x y z : Derivation × Span) (first : precedes x y = true)
    (second : precedes y z = true) : precedes x z = true := by
  simp only [precedes_iff, UInt64.lt_iff_toNat_lt, ← UInt64.toNat_inj] at *
  omega

theorem precedes_total (x y : Derivation × Span) : (precedes x y || precedes y x) = true := by
  simp only [Bool.or_eq_true, precedes_iff, UInt64.lt_iff_toNat_lt, ← UInt64.toNat_inj]
  omega

/-- The candidate `x` is of the same rule as `y` and its span contains that of `y`. -/
def Shadows (x y : Derivation × Span) : Prop :=
  x.1.ruleId = y.1.ruleId ∧ x.2.contains y.2 = true

instance (x y : Derivation × Span) : Decidable (Shadows x y) :=
  inferInstanceAs (Decidable (_ ∧ _))

theorem Shadows.trans {x y z : Derivation × Span} (first : Shadows x y) (second : Shadows y z) :
    Shadows x z := by
  simp only [Shadows, Span.contains, Bool.and_eq_true, decide_eq_true_eq] at *
  exact ⟨first.1.trans second.1, by omega, by omega⟩

/-- Of what precedes a candidate, that shadows it which stops no earlier. -/
theorem shadows_iff_of_precedes {x y : Derivation × Span} (before : precedes x y = true) :
    Shadows x y ↔ x.1.ruleId = y.1.ruleId ∧ y.2.stop ≤ x.2.stop := by
  simp only [precedes_iff, UInt64.lt_iff_toNat_lt, ← UInt64.toNat_inj] at before
  simp only [Shadows, Span.contains, Bool.and_eq_true, decide_eq_true_eq, ← UInt64.toNat_inj]
  omega

/-- What shadows another with a different span comes strictly before it. -/
theorem not_precedes_of_shadows {x y : Derivation × Span} (shadows : Shadows x y)
    (ne : x.2 ≠ y.2) : precedes y x = false := by
  obtain ⟨rule, contains⟩ := shadows
  have different : x.2.start ≠ y.2.start ∨ x.2.stop ≠ y.2.stop := by
    rw [← not_and_or]
    rintro ⟨start, stop⟩
    exact ne (Span.mk.injEq .. ▸ ⟨start, stop⟩)
  simp only [Span.contains, Bool.and_eq_true, decide_eq_true_eq] at contains
  rw [← Bool.not_eq_true, precedes_iff, UInt64.lt_iff_toNat_lt, rule]
  omega

/-- Keeps every candidate that nothing kept before it shadows. `kept` has been kept so far. -/
def unshadowed (kept : List (Derivation × Span)) : List (Derivation × Span) → List Derivation
  | [] => []
  | x :: rest =>
    if ∃ y ∈ kept, Shadows y x then unshadowed kept rest
    else x.1 :: unshadowed (x :: kept) rest

/-- The furthest stop tells as much about what comes later as all that has been kept: it belongs to
the last rule, and nothing of that rule stops after it. -/
structure Sums (reach : Option (UInt64 × Nat)) (kept : List (Derivation × Span)) : Prop where
  isKept : ∀ r ∈ reach, ∃ y ∈ kept, y.1.ruleId = r.1 ∧ y.2.stop = r.2
  furthest : ∀ y ∈ kept, ∃ r ∈ reach, y.1.ruleId ≤ r.1 ∧ (y.1.ruleId = r.1 → y.2.stop ≤ r.2)

theorem Sums.shadows_iff {reach : Option (UInt64 × Nat)} {kept : List (Derivation × Span)}
    (sums : Sums reach kept) {x : Derivation × Span} (before : ∀ y ∈ kept, precedes y x = true) :
    (∃ y ∈ kept, Shadows y x) ↔ ∃ r ∈ reach, r.1 = x.1.ruleId ∧ x.2.stop ≤ r.2 := by
  constructor
  · rintro ⟨y, isKept, shadows⟩
    obtain ⟨rule, stop⟩ := (shadows_iff_of_precedes (before y isKept)).mp shadows
    obtain ⟨r, isReach, le, further⟩ := sums.furthest y isKept
    obtain ⟨z, isLast, lastRule, _⟩ := sums.isKept r isReach
    have order := (precedes_iff z x).mp (before z isLast)
    have same : y.1.ruleId = r.1 := by
      rw [lastRule] at order
      simp only [UInt64.lt_iff_toNat_lt, UInt64.le_iff_toNat_le, ← UInt64.toNat_inj] at *
      omega
    exact ⟨r, isReach, same.symm.trans rule, Nat.le_trans stop (further same)⟩
  · rintro ⟨r, isReach, rule, stop⟩
    obtain ⟨y, isKept, keptRule, keptStop⟩ := sums.isKept r isReach
    have shadows := (shadows_iff_of_precedes (before y isKept)).mpr
      ⟨keptRule.trans rule, keptStop ▸ stop⟩
    exact ⟨y, isKept, shadows⟩

/-- A candidate that is kept is the new furthest one. -/
theorem sums_keep {kept : List (Derivation × Span)} {x : Derivation × Span}
    (before : ∀ y ∈ kept, precedes y x = true) (past : ¬ ∃ y ∈ kept, Shadows y x) :
    Sums (some (x.1.ruleId, x.2.stop)) (x :: kept) := by
  constructor
  · rintro _ ⟨⟩
    exact ⟨x, List.mem_cons_self, rfl, rfl⟩
  · intro y member
    refine ⟨_, rfl, ?_⟩
    rcases List.mem_cons.mp member with rfl | old
    · exact ⟨UInt64.le_refl _, fun _ => Nat.le_refl _⟩
    · have order := (precedes_iff y x).mp (before y old)
      have short : y.1.ruleId = x.1.ruleId → ¬ x.2.stop ≤ y.2.stop := by
        intro rule stop
        exact past ⟨y, old, (shadows_iff_of_precedes (before y old)).mpr ⟨rule, stop⟩⟩
      simp only [UInt64.lt_iff_toNat_lt, UInt64.le_iff_toNat_le, ← UInt64.toNat_inj] at *
      omega

/-- On sorted candidates the sweep keeps what a comparison with everything kept before would keep. -/
theorem widest_eq_unshadowed {reach : Option (UInt64 × Nat)} {kept xs : List (Derivation × Span)}
    (sums : Sums reach kept) (before : ∀ y ∈ kept, ∀ x ∈ xs, precedes y x = true)
    (sorted : xs.Pairwise fun x y => precedes x y = true) :
    widest reach xs = unshadowed kept xs := by
  induction xs generalizing reach kept with
  | nil => rfl
  | cons x rest ih =>
    obtain ⟨above, tail⟩ := List.pairwise_cons.mp sorted
    have here (y : Derivation × Span) (isKept : y ∈ kept) := before y isKept x List.mem_cons_self
    have later (y : Derivation × Span) (isKept : y ∈ kept) (z : Derivation × Span)
        (member : z ∈ rest) := before y isKept z (List.mem_cons_of_mem _ member)
    have drops : (reach.any fun r => r.1 == x.1.ruleId && x.2.stop ≤ r.2) = true ↔
        ∃ y ∈ kept, Shadows y x := by
      rw [sums.shadows_iff here]
      simp [Option.any_eq_true]
    rw [widest, unshadowed]
    by_cases shadowed : ∃ y ∈ kept, Shadows y x
    · rw [if_pos (drops.mpr shadowed), if_pos shadowed]
      exact ih sums later tail
    · rw [if_neg (fun h => shadowed (drops.mp h)), if_neg shadowed]
      congr 1
      apply ih (sums_keep here shadowed) _ tail
      intro y member z isLater
      rcases List.mem_cons.mp member with rfl | old
      · exact above z isLater
      · exact later y old z isLater

/-- What is kept is exactly what nothing before it shadows, kept or not. -/
theorem mem_unshadowed {kept xs : List (Derivation × Span)} {d : Derivation} :
    d ∈ unshadowed kept xs ↔ ∃ earlier span later, xs = earlier ++ (d, span) :: later ∧
      ∀ y ∈ kept ++ earlier, ¬ Shadows y (d, span) := by
  induction xs generalizing kept with
  | nil => simp [unshadowed]
  | cons x rest ih =>
    have swap {earlier : List (Derivation × Span)} {y : Derivation × Span} :
        y ∈ kept ++ x :: earlier ↔ y ∈ x :: kept ++ earlier := List.perm_middle.mem_iff
    rw [unshadowed]
    by_cases shadowed : ∃ y ∈ kept, Shadows y x
    · obtain ⟨z, isKept, shadows⟩ := shadowed
      rw [if_pos ⟨z, isKept, shadows⟩, ih]
      constructor
      · rintro ⟨earlier, span, later, rfl, free⟩
        refine ⟨x :: earlier, span, later, rfl, ?_⟩
        intro y member
        rcases List.mem_cons.mp (swap.mp member) with rfl | old
        · exact fun here => free z (List.mem_append_left _ isKept) (shadows.trans here)
        · exact free y old
      · rintro ⟨earlier, span, later, split, free⟩
        cases earlier with
        | nil =>
          obtain ⟨rfl, rfl⟩ := List.cons.inj split
          exact absurd shadows (free z (List.mem_append_left _ isKept))
        | cons first earlier =>
          obtain ⟨rfl, rfl⟩ := List.cons.inj split
          refine ⟨earlier, span, later, rfl, ?_⟩
          intro y member
          exact free y (swap.mpr (List.mem_cons_of_mem _ member))
    · rw [if_neg shadowed, List.mem_cons, ih]
      constructor
      · rintro (rfl | ⟨earlier, span, later, rfl, free⟩)
        · refine ⟨[], x.2, rest, rfl, ?_⟩
          intro y member shadows
          exact shadowed ⟨y, by simpa using member, shadows⟩
        · refine ⟨x :: earlier, span, later, rfl, ?_⟩
          intro y member
          exact free y (swap.mp member)
      · rintro ⟨earlier, span, later, split, free⟩
        cases earlier with
        | nil =>
          obtain ⟨rfl, rfl⟩ := List.cons.inj split
          exact .inl rfl
        | cons first earlier =>
          obtain ⟨rfl, rfl⟩ := List.cons.inj split
          refine .inr ⟨earlier, span, later, rfl, ?_⟩
          intro y member
          exact free y (swap.mpr member)

/-- What is kept stands in the order of rules and, within a rule, of starts, and no two of a rule
start together. -/
theorem pairwise_unshadowed (a : Arena) {kept xs : List (Derivation × Span)}
    (sorted : xs.Pairwise fun x y => precedes x y = true) (spans : ∀ x ∈ xs, x.2 = a.spanOf x.1) :
    (unshadowed kept xs).Pairwise fun c d => c.ruleId < d.ruleId ∨
      c.ruleId = d.ruleId ∧ (a.spanOf c).start < (a.spanOf d).start := by
  induction xs generalizing kept with
  | nil => exact .nil
  | cons x rest ih =>
    obtain ⟨above, tail⟩ := List.pairwise_cons.mp sorted
    obtain ⟨here, others⟩ := List.forall_mem_cons.mp spans
    rw [unshadowed]
    split
    · exact ih tail others
    · apply List.Pairwise.cons _ (ih tail others)
      intro d member
      obtain ⟨earlier, span, later, rfl, free⟩ := mem_unshadowed.mp member
      have isLater : (d, span) ∈ earlier ++ (d, span) :: later := by simp
      have order := above _ isLater
      have alone := free x (by simp)
      rw [shadows_iff_of_precedes order] at alone
      rw [precedes_iff] at order
      rw [← here, ← others _ isLater]
      simp only [UInt64.lt_iff_toNat_lt, ← UInt64.toNat_inj] at *
      omega

/-- The candidates with their spans, as they are swept. -/
def sorted (a : Arena) (ds : List Derivation) : List (Derivation × Span) :=
  (ds.map fun d => (d, a.spanOf d)).mergeSort precedes

theorem sorted_pairwise (a : Arena) (ds : List Derivation) :
    (sorted a ds).Pairwise fun x y => precedes x y = true :=
  List.pairwise_mergeSort precedes_trans precedes_total _

/-- A sorted candidate with the place where it was found. -/
def ranked (a : Arena) (ds : List Derivation) : List ((Derivation × Span) × Nat) :=
  (ds.map fun d => (d, a.spanOf d)).zipIdx.mergeSort (List.zipIdxLE precedes)

theorem map_ranked (a : Arena) (ds : List Derivation) : (ranked a ds).map (·.1) = sorted a ds :=
  List.mergeSort_zipIdx

theorem mem_ranked {a : Arena} {ds : List Derivation} {x : Derivation × Span} {i : Nat} :
    (x, i) ∈ ranked a ds ↔ ∃ d, ds[i]? = some d ∧ x = (d, a.spanOf d) := by
  rw [ranked, List.mem_mergeSort, List.mk_mem_zipIdx_iff_getElem?, List.getElem?_map,
    Option.map_eq_some_iff]
  simp only [eq_comm]

/-- Of candidates with the same rule and span the first found stays first. -/
theorem ranked_pairwise (a : Arena) (ds : List Derivation) :
    (ranked a ds).Pairwise fun x y => precedes x.1 y.1 = true ∧
      (precedes y.1 x.1 = true → x.2 < y.2) := by
  have ordered : (ranked a ds).Pairwise fun x y => List.zipIdxLE precedes x y = true :=
    List.pairwise_mergeSort (List.zipIdxLE_trans precedes_trans)
      (List.zipIdxLE_total precedes_total) _
  have places : ((ranked a ds).map (·.2)).Nodup := by
    rw [ranked, ((List.mergeSort_perm _ _).map _).nodup_iff]
    exact List.nodup_zipIdx_map_snd _
  apply (ordered.and (List.pairwise_map.mp places)).imp
  rintro x y ⟨le, ne⟩
  simp only [List.zipIdxLE, Bool.ite_eq_true_distrib, decide_eq_true_eq] at le
  split_ifs at le with forth back
  · exact ⟨forth, fun _ => Nat.lt_of_le_of_ne le ne⟩
  · exact ⟨forth, fun h => absurd h back⟩

/-- A candidate that stands in the list with `earlier` before it is shadowed by nothing there exactly
when whatever shadows it has the same span and was found later. -/
theorem unshadowed_iff {a : Arena} {ds : List Derivation} {d : Derivation} {i : Nat}
    {earlier later : List ((Derivation × Span) × Nat)}
    (split : ranked a ds = earlier ++ ((d, a.spanOf d), i) :: later) :
    (∀ y ∈ earlier, ¬ Shadows y.1 (d, a.spanOf d)) ↔
      ∀ j c, j ≠ i → ds[j]? = some c → Shadows (c, a.spanOf c) (d, a.spanOf d) →
        a.spanOf c = a.spanOf d ∧ i < j := by
  have order := ranked_pairwise a ds
  rw [split, List.pairwise_append, List.pairwise_cons] at order
  obtain ⟨_, ⟨after, _⟩, before⟩ := order
  constructor
  · intro free j c ne found shadows
    have member : ((c, a.spanOf c), j) ∈ ranked a ds := mem_ranked.mpr ⟨c, found, rfl⟩
    rw [split, List.mem_append, List.mem_cons] at member
    rcases member with early | same | late
    · exact absurd shadows (free _ early)
    · exact absurd (congrArg Prod.snd same) ne
    · obtain ⟨forth, back⟩ := after _ late
      have span : a.spanOf c = a.spanOf d := by
        by_contra differs
        rw [not_precedes_of_shadows shadows differs] at forth
        cases forth
      exact ⟨span, back (precedes_of_same shadows.1 span)⟩
  · rintro others ⟨x, j⟩ early shadows
    have member : (x, j) ∈ ranked a ds := by
      rw [split]
      exact List.mem_append_left _ early
    obtain ⟨c, found, rfl⟩ := mem_ranked.mp member
    have back := (before _ early _ List.mem_cons_self).2
    by_cases same : j = i
    · have isSelf : ((d, a.spanOf d), i) ∈ ranked a ds := by simp [split]
      obtain ⟨e, isFound, isPair⟩ := mem_ranked.mp isSelf
      obtain rfl : d = e := congrArg Prod.fst isPair
      obtain rfl : c = d := Option.some.inj (found.symm.trans (same ▸ isFound))
      have := back (precedes_of_same rfl rfl)
      omega
    · obtain ⟨span, behind⟩ := others j c same found shadows
      have := back (precedes_of_same shadows.1.symm span.symm)
      omega

theorem deduplicate_eq_unshadowed (a : Arena) (ds : List Derivation) :
    deduplicate a ds = unshadowed [] (sorted a ds) :=
  widest_eq_unshadowed ⟨by simp, by simp⟩ (by simp) (sorted_pairwise a ds)

/-- The candidate `d`, found at the place `i`, stands against all others. -/
structure Stands (a : Arena) (ds : List Derivation) (i : Nat) (d : Derivation) : Prop where
  widest : ∀ c ∈ ds, c.ruleId = d.ruleId → a.spanOf c ≠ a.spanOf d →
    (a.spanOf c).contains (a.spanOf d) = false
  first : ∀ j c, j < i → ds[j]? = some c → c.ruleId = d.ruleId → a.spanOf c ≠ a.spanOf d

theorem stands_iff {a : Arena} {ds : List Derivation} {i : Nat} {d : Derivation}
    (found : ds[i]? = some d) :
    Stands a ds i d ↔ ∀ j c, j ≠ i → ds[j]? = some c → Shadows (c, a.spanOf c) (d, a.spanOf d) →
      a.spanOf c = a.spanOf d ∧ i < j := by
  constructor
  · intro stands j c ne isOther shadows
    have span : a.spanOf c = a.spanOf d := by
      by_contra differs
      have outside := stands.widest c (List.mem_of_getElem? isOther) shadows.1 differs
      exact absurd shadows.2 (by simp [outside])
    have notEarlier : ¬ j < i := fun lt => stands.first j c lt isOther shadows.1 span
    exact ⟨span, by omega⟩
  · intro others
    constructor
    · intro c member rule differs
      obtain ⟨j, isOther⟩ := List.mem_iff_getElem?.mp member
      apply Bool.eq_false_iff.mpr
      intro contains
      by_cases same : j = i
      · obtain rfl : c = d := Option.some.inj (isOther.symm.trans (same ▸ found))
        exact differs rfl
      · exact differs (others j c same isOther ⟨rule, contains⟩).1
    · intro j c lt isOther rule span
      have shadows : Shadows (c, a.spanOf c) (d, a.spanOf d) := by
        simp [Shadows, Span.contains, rule, span]
      have := (others j c (Nat.ne_of_lt lt) isOther shadows).2
      omega

theorem mem_deduplicate {a : Arena} {ds : List Derivation} {d : Derivation} :
    d ∈ deduplicate a ds ↔ ∃ i, ds[i]? = some d ∧ Stands a ds i d := by
  rw [deduplicate_eq_unshadowed, mem_unshadowed, ← map_ranked]
  simp only [List.nil_append]
  constructor
  · rintro ⟨earlier, span, later, split, free⟩
    obtain ⟨before, rest, whole, rfl, tail⟩ := List.map_eq_append_iff.mp split
    obtain ⟨⟨x, i⟩, after, rfl, isPair, rfl⟩ := List.map_eq_cons_iff.mp tail
    obtain rfl : x = (d, span) := isPair
    have member : ((d, span), i) ∈ ranked a ds := by simp [whole]
    obtain ⟨e, found, same⟩ := mem_ranked.mp member
    obtain ⟨rfl, rfl⟩ := Prod.mk.inj same
    refine ⟨i, found, (stands_iff found).mpr ((unshadowed_iff whole).mp ?_)⟩
    intro y early
    exact free y.1 (List.mem_map_of_mem early)
  · rintro ⟨i, found, stands⟩
    have member : ((d, a.spanOf d), i) ∈ ranked a ds := mem_ranked.mpr ⟨d, found, rfl⟩
    obtain ⟨before, after, whole⟩ := List.append_of_mem member
    refine ⟨before.map (·.1), a.spanOf d, after.map (·.1), by simp [whole], ?_⟩
    intro x isEarlier
    obtain ⟨y, early, rfl⟩ := List.mem_map.mp isEarlier
    exact (unshadowed_iff whole).mpr ((stands_iff found).mp stands) y early

/-- What is kept stands in the order of rules and starts. -/
theorem deduplicate_pairwise (a : Arena) (ds : List Derivation) :
    (deduplicate a ds).Pairwise fun c d => c.ruleId < d.ruleId ∨
      c.ruleId = d.ruleId ∧ (a.spanOf c).start < (a.spanOf d).start := by
  rw [deduplicate_eq_unshadowed]
  apply pairwise_unshadowed a (sorted_pairwise a ds)
  intro x member
  obtain ⟨d, _, rfl⟩ := List.mem_map.mp (List.mem_mergeSort.mp member)
  rfl

/-- What is reported is exactly what stands and is valid, in the order of rules and starts; and the
sweep for it drops what a comparison with every candidate kept before would drop. -/
theorem select_exact {a : Arena} (first : a.ChildrenFirst) (ds : List Derivation) :
    (∀ d, d ∈ select a ds ↔ ∃ i, ds[i]? = some d ∧ Stands a ds i d ∧
      ∀ x m, a.Below d.root x → a.get? x = some m → m.kind ≠ .assertion true) ∧
    ((select a ds).Pairwise fun c d => c.ruleId < d.ruleId ∨
      c.ruleId = d.ruleId ∧ (a.spanOf c).start < (a.spanOf d).start) ∧
    deduplicate a ds = unshadowed [] (sorted a ds) := by
  refine ⟨?_, ?_, deduplicate_eq_unshadowed a ds⟩
  · intro d
    rw [select, List.mem_filter, mem_deduplicate, Arena.isValid_iff first]
    simp only [exists_and_right, ← and_assoc]
  · exact (deduplicate_pairwise a ds).filter _

theorem select_eq {a : Arena} (first : a.ChildrenFirst) (ds : List Derivation) :
    select a ds = (deduplicate a ds).filter fun d =>
      !(a.nodes a.size d.root).any (·.2.kind == .assertion true) :=
  List.filter_congr fun d _ => Arena.isValid_eq first d

/-- The rule that a derivation is of, and its span. -/
def report (a : Arena) (d : Derivation) : UInt64 × Span := (d.ruleId, a.spanOf d)

/-- A report is kept if no other span of its rule contains its own. -/
theorem mem_map_deduplicate {a : Arena} {ds : List Derivation} {r : UInt64 × Span} :
    r ∈ (deduplicate a ds).map (report a) ↔ r ∈ ds.map (report a) ∧
      ∀ q ∈ ds.map (report a), q.1 = r.1 → q.2 ≠ r.2 → q.2.contains r.2 = false := by
  constructor
  · intro member
    obtain ⟨d, kept, rfl⟩ := List.mem_map.mp member
    obtain ⟨i, found, stands⟩ := mem_deduplicate.mp kept
    refine ⟨List.mem_map_of_mem (List.mem_of_getElem? found), fun q isReport rule differs => ?_⟩
    obtain ⟨c, isOther, rfl⟩ := List.mem_map.mp isReport
    exact stands.widest c isOther rule differs
  · rintro ⟨member, widest⟩
    have exists_ : ∃ (i : Nat) (d : Derivation), ds[i]? = some d ∧ report a d = r := by
      obtain ⟨d, isOne, same⟩ := List.mem_map.mp member
      obtain ⟨i, found⟩ := List.mem_iff_getElem?.mp isOne
      exact ⟨i, d, found, same⟩
    classical
    obtain ⟨d, found, rfl⟩ := Nat.find_spec exists_
    refine List.mem_map_of_mem (mem_deduplicate.mpr ⟨_, found, ?_, ?_⟩)
    · intro c isOther rule differs
      exact widest (report a c) (List.mem_map_of_mem isOther) rule differs
    · intro j c earlier isOther rule span
      exact Nat.find_min exists_ earlier ⟨c, isOther, Prod.ext rule span⟩

/-- What is kept depends on the reports only, not on how often or in which order they were found. -/
theorem map_deduplicate_congr {a b : Arena} {ds es : List Derivation}
    (same : ∀ r, r ∈ ds.map (report a) ↔ r ∈ es.map (report b)) :
    (deduplicate a ds).map (report a) = (deduplicate b es).map (report b) := by
  have ordered (a : Arena) (ds : List Derivation) : ((deduplicate a ds).map (report a)).Pairwise
      fun p q => p.1 < q.1 ∨ p.1 = q.1 ∧ p.2.start < q.2.start :=
    List.pairwise_map.mpr (deduplicate_pairwise a ds)
  have distinct (a : Arena) (ds : List Derivation) : ((deduplicate a ds).map (report a)).Nodup := by
    refine (ordered a ds).imp fun {p q} before equal => ?_
    subst equal
    rcases before with rule | ⟨_, start⟩
    · exact UInt64.lt_irrefl _ rule
    · exact Nat.lt_irrefl _ start
  have perm : ((deduplicate a ds).map (report a)).Perm ((deduplicate b es).map (report b)) := by
    refine (List.perm_ext_iff_of_nodup (distinct a ds) (distinct b es)).mpr fun r => ?_
    simp only [mem_map_deduplicate, same]
  refine perm.eq_of_pairwise (fun p q _ _ before after => ?_) (ordered a ds) (ordered b es)
  rcases before with rule | ⟨rule, start⟩
  · rcases after with rule' | ⟨rule', _⟩
    · exact absurd rule (UInt64.lt_asymm rule')
    · exact absurd rule (rule' ▸ UInt64.lt_irrefl _)
  · rcases after with rule' | ⟨_, start'⟩
    · exact absurd rule' (rule ▸ UInt64.lt_irrefl _)
    · exact absurd start (Nat.lt_asymm start')

end Derivation

/-- A span, a negative assertion after it, and both together. -/
def Arena.negated : Arena :=
  ⟨#[{ symbol := 1, span := ⟨0, 4⟩, offset := 0 },
    { symbol := 2, span := ⟨4, 7⟩, offset := 4, kind := .assertion true },
    { symbol := 3, span := ⟨0, 7⟩, offset := 0, children := .two 0 1 }]⟩

/-- Of the first rule the wide candidate is not valid and shadows the narrow one; the second rule has
only a narrow one. -/
theorem Derivation.select_exact_negated :
    Arena.negated.ChildrenFirst ∧
      ∃ i, ([⟨1, 0⟩, ⟨2, 0⟩, ⟨1, 2⟩] : List Derivation)[i]? = some ⟨2, 0⟩ ∧
        Stands .negated [⟨1, 0⟩, ⟨2, 0⟩, ⟨1, 2⟩] i ⟨2, 0⟩ ∧
        ∀ x m, Arena.negated.Below 0 x → Arena.negated.get? x = some m →
          m.kind ≠ .assertion true := by
  have first : Arena.negated.ChildrenFirst := by decide
  have selected : select .negated [⟨1, 0⟩, ⟨2, 0⟩, ⟨1, 2⟩] = [⟨2, 0⟩] := by
    rw [select_eq first]
    cbv
  have reported : (⟨2, 0⟩ : Derivation) ∈ select .negated [⟨1, 0⟩, ⟨2, 0⟩, ⟨1, 2⟩] := by
    rw [selected]
    exact List.mem_singleton_self _
  exact ⟨first, ((select_exact first _).1 _).mp reported⟩

end Phrasebook
