import Phrasebook.Proofs.Grammar.Meaning

namespace Phrasebook.NormalForm

/-- The normal form with all shards emptied but those that `keep` names. -/
def only (n : NormalForm) (keep : Nat → Bool) : NormalForm :=
  { n with
    shards := n.shards.mapIdx fun i shard => if keep i then shard else { shard with tables := {} } }

section
variable {n : NormalForm} {keep : Nat → Bool}

theorem getElem?_only (i : Nat) : (n.only keep).shards[i]? =
    (n.shards[i]?).map fun shard => if keep i then shard else { shard with tables := {} } :=
  Array.getElem?_mapIdx

theorem size_only : (n.only keep).shards.size = n.shards.size := Array.size_mapIdx

theorem frame_only : (n.only keep).frame = n.frame := by
  simp only [frame, Frame.mk.injEq]
  refine ⟨List.ext_getElem? fun i => ?_, rfl, rfl, rfl⟩
  rw [List.getElem?_map, List.getElem?_map, Array.getElem?_toList, Array.getElem?_toList,
    getElem?_only]
  cases n.shards[i]? with
  | none => rfl
  | some shard => cases keep i <;> rfl

theorem not_hasKey_empty (b : Body) : ¬ ({} : Tables).HasKey b := by
  cases b with
  | literal text caseSensitive => cases caseSensitive <;> simp [Tables.HasKey]
  | unary operand => simp [Tables.HasKey]
  | binary left right => simp [Tables.HasKey]

/-- A shard with entries has been kept. -/
theorem found_of_only {i : Nat} {shard : Shard} {b : Body}
    (found : (n.only keep).shards[i]? = some shard) (isKey : shard.tables.HasKey b) :
    keep i = true ∧ n.shards[i]? = some shard := by
  rw [getElem?_only] at found
  obtain ⟨before, isFound, rfl⟩ := Option.map_eq_some_iff.mp found
  cases kept : keep i with
  | true => exact ⟨rfl, by simp [isFound]⟩
  | false =>
    simp only [kept, Bool.false_eq_true, ↓reduceIte] at isKey
    exact absurd isKey (not_hasKey_empty b)

theorem has_only {b : Body} {h : Head} : (n.only keep).Has b h ↔
    ∃ (i : Nat) (shard : Shard), keep i = true ∧ n.shards[i]? = some shard ∧
      h ∈ shard.tables.headsOf b := by
  constructor
  · rintro ⟨i, shard, found, member⟩
    obtain ⟨kept, isFound⟩ := found_of_only found (Tables.hasKey_of_mem member)
    exact ⟨i, shard, kept, isFound, member⟩
  · rintro ⟨i, shard, kept, found, member⟩
    exact ⟨i, shard, by simp [getElem?_only, found, kept], member⟩

theorem Has.of_only {b : Body} {h : Head} (has : (n.only keep).Has b h) : n.Has b h := by
  obtain ⟨i, shard, _, found, member⟩ := has_only.mp has
  exact ⟨i, shard, found, member⟩

theorem Keyed.of_only {b : Body} (isKeyed : (n.only keep).Keyed b) : n.Keyed b := by
  obtain ⟨i, shard, found, isKey⟩ := isKeyed
  exact ⟨i, shard, (found_of_only found isKey).2, isKey⟩

theorem Bounded.only (bounded : n.Bounded) : (n.only keep).Bounded :=
  ⟨fun b h has => bounded.heads b h has.of_only, fun b isKeyed => bounded.bodies b isKeyed.of_only,
    bounded.own, fun text caseSensitive isKeyed => bounded.literals text caseSensitive isKeyed.of_only⟩

/-- A kept shard is changed alike. -/
theorem modify_only {shard : Nat} (kept : keep shard = true) (f : Shard → Shard) (numbering : Numbering) :
    ({ n.only keep with numbering, shards := (n.only keep).shards.modify shard f } : NormalForm) =
      NormalForm.only { n with numbering, shards := n.shards.modify shard f } keep := by
  simp only [only, NormalForm.mk.injEq, and_true]
  refine Array.ext_getElem? fun i => ?_
  simp only [Array.getElem?_modify, Array.getElem?_mapIdx]
  by_cases here : shard = i
  · subst here
    cases n.shards[shard]? with
    | none => simp
    | some s => simp [kept]
  · simp [here]

/-- A shard that is emptied hides its changes. -/
theorem modify_only_of_not {shard : Nat} (notKept : keep shard = false) (tables : Shard → Tables)
    (numbering : Numbering) :
    (NormalForm.only { n with
        numbering
        shards := n.shards.modify shard fun s => { s with tables := tables s } } keep).shards =
      (n.only keep).shards := by
  refine Array.ext_getElem? fun i => ?_
  simp only [only, Array.getElem?_modify, Array.getElem?_mapIdx]
  by_cases here : shard = i
  · subst here
    cases n.shards[shard]? with
    | none => simp
    | some s => simp [notKept]
  · simp [here]

end

section
variable {n : NormalForm} {keep : Nat → Bool} {request : Head.Request} {shard : Nat}

theorem addTo_only (kept : keep shard = true) (b : Body) :
    (n.only keep).addTo request b shard =
      ((n.addTo request b shard).1.only keep, (n.addTo request b shard).2) := by
  have same : (n.only keep).shards[shard]? = n.shards[shard]? := by
    rw [getElem?_only]
    cases n.shards[shard]? with
    | none => rfl
    | some s => simp [kept]
  simp only [addTo, update, same]
  refine Prod.ext ?_ rfl
  exact modify_only kept _ _

theorem addTo_only_of_not (notKept : keep shard = false) (b : Body) :
    ((n.addTo request b shard).1.only keep).shards = (n.only keep).shards :=
  modify_only_of_not notKept _ _

theorem addPart_only (kept : keep shard = true) (part : Part) :
    (n.only keep).addPart part shard =
      ((n.addPart part shard).1.only keep, (n.addPart part shard).2) := by
  cases part with
  | literal text caseSensitive =>
    simp only [addPart, addLiteral_eq]
    exact addTo_only kept _
  | symbol s => rfl

theorem addParts_only (kept : keep shard = true) (parts : List Part) :
    (n.only keep).addParts shard parts =
      ((n.addParts shard parts).1.only keep, (n.addParts shard parts).2) := by
  induction parts generalizing n with
  | nil => rfl
  | cons part rest ih => simp only [addParts, addPart_only kept, ih]

theorem addChain_only (kept : keep shard = true) (prev : Symbol) (symbols : List Symbol) :
    (n.only keep).addChain request shard prev symbols =
      ((n.addChain request shard prev symbols).1.only keep,
        (n.addChain request shard prev symbols).2) := by
  induction symbols generalizing n prev with
  | nil => rfl
  | cons next rest ih =>
    cases rest with
    | nil => exact addTo_only kept (.binary prev next)
    | cons last rest =>
      simp only [addChain, addBinary_eq, addTo_only kept]
      exact ih _

/-- A rule of a kept shard. -/
theorem addRule_only (kept : keep shard = true) (parts : List Part) :
    (n.only keep).addRule request parts shard =
      ((n.addRule request parts shard).1.only keep, (n.addRule request parts shard).2) := by
  unfold addRule
  split
  · rfl
  · simp only [addLiteral_eq, addTo_only kept]
  · simp only [addUnary_eq]
    split
    · rfl
    · simp only [addTo_only kept]
  · simp only [addParts_only kept]
    generalize n.addParts shard parts = prepared
    obtain ⟨m, symbols⟩ := prepared
    cases symbols with
    | nil => rfl
    | cons first rest => simp only [addChain_only kept]

/-- A request that a symbol meets by itself adds nothing. -/
theorem addRule_bare (free : request.target = none) (silent : request.callback.isSilent = true)
    (operand : Symbol) : n.addRule request [.symbol operand] shard = (n, some operand) := by
  simp [addRule, addUnary, free, silent]

/-- Productions that call nothing back have been added to one shard for symbols that nobody has
asked for. -/
inductive Steps (n : NormalForm) (shard : Nat) : NormalForm → Prop
  | refl : Steps n shard n
  | step {m : NormalForm} {r : Head.Request} (earlier : Steps n shard m) (free : r.target = none)
      (silent : r.callback.isSilent = true) (b : Body) : Steps n shard (m.addTo r b shard).1

theorem Steps.trans {m k : NormalForm} (first : Steps n shard m) (second : Steps m shard k) :
    Steps n shard k := by
  induction second with
  | refl => exact first
  | step _ free silent b ih => exact ih.step free silent b

theorem steps_addPart (part : Part) : Steps n shard (n.addPart part shard).1 := by
  cases part with
  | literal text caseSensitive =>
    simp only [addPart, addLiteral_eq]
    exact .step .refl rfl rfl _
  | symbol s => exact .refl

theorem steps_addParts (parts : List Part) : Steps n shard (n.addParts shard parts).1 := by
  induction parts generalizing n with
  | nil => exact .refl
  | cons part rest ih => exact (steps_addPart part).trans ih

theorem steps_joinInit (gap : Int8) (prev : Symbol) (symbols : List Symbol) :
    Steps n shard (n.joinInit gap shard prev symbols).1 := by
  rcases symbols with _ | ⟨next, rest⟩
  · exact .refl
  · induction rest generalizing n prev next with
    | nil => exact .refl
    | cons last rest ih => exact .trans (.step .refl rfl rfl (.binary prev next)) (ih _ last)

theorem steps_lastProduction (gap : Int8) (first : Part) (rest : List Part) :
    Steps n shard (n.lastProduction gap shard first rest).1 := by
  unfold lastProduction
  split
  · exact .refl
  · exact (steps_addParts (first :: rest)).trans (steps_joinInit ..)

/-- A rule that does not rename a symbol is added as requested in the end. -/
theorem addRule_eq_addTo (n : NormalForm) (shard : Nat) {parts : List Part} (nonempty : parts ≠ [])
    (adds : request.target = none → request.callback.isSilent = true →
      ∀ operand, parts ≠ [.symbol operand]) :
    ∃ m b, Steps n shard m ∧ n.addRule request parts shard =
      ((m.addTo request b shard).1, some (m.addTo request b shard).2) := by
  obtain ⟨first, rest, rfl⟩ := List.exists_cons_of_ne_nil nonempty
  have other : relabeled? request first rest = none := by
    unfold relabeled?
    split
    · next operand =>
      rw [if_neg]
      intro bare
      rw [Bool.and_eq_true, Option.isNone_iff_eq_none] at bare
      exact adds bare.1 bare.2 operand rfl
    · rfl
  exact ⟨_, _, steps_lastProduction request.gap first rest, addRule_eq_lastProduction other⟩

/-- What has become of the symbols of `n` when `m` has been made from it. -/
structure Since (n m : NormalForm) : Prop where
  size : m.shards.size = n.shards.size
  unshareable : m.numbering.unshareable = n.numbering.unshareable
  last : n.numbering.last ≤ m.numbering.last
  heads : ∀ s, m.Heads s → n.Heads s ∨ n.numbering.last < s

theorem Steps.since {m : NormalForm} (inRange : shard < n.shards.size) (steps : Steps n shard m) :
    Since n m := by
  induction steps with
  | refl => exact ⟨rfl, rfl, Nat.le_refl _, fun _ => .inl⟩
  | @step m r _ free _ b ih =>
    have adds : m.Adds r b (m.addTo r b shard).1 (m.addTo r b shard).2 :=
      addTo_adds (ih.size ▸ inRange) fun s target => by rw [free] at target; cases target
    have keeps := adds.keeps
    refine ⟨keeps.shards.trans ih.size, keeps.unshareable.trans ih.unshareable,
      Nat.le_trans ih.last keeps.last, ?_⟩
    rintro s ⟨c, h, has, rfl⟩
    rcases adds.new c h has with old | ⟨rfl, rfl⟩
    · exact ih.heads h.symbol ⟨c, h, old, rfl⟩
    · rcases adds.chooses with ⟨_, target | ⟨_, _, h, old, same, _⟩⟩ | ⟨_, _, next⟩
      · rw [free] at target
        cases target
      · exact same ▸ ih.heads h.symbol ⟨c, h, old, rfl⟩
      · refine .inr ?_
        rw [Head.Request.head, next]
        exact Nat.lt_succ_of_le ih.last

theorem Steps.only_of_not {m : NormalForm} (notKept : keep shard = false) (steps : Steps n shard m) :
    (m.only keep).shards = (n.only keep).shards := by
  induction steps with
  | refl => rfl
  | step _ _ _ b ih => exact (addTo_only_of_not notKept b).trans ih

/-- The request has been given a symbol that heads a production: the one it asks for, one that may
be shared, or a new one. No other symbol has got productions but new ones. -/
structure Places (n : NormalForm) (request : Head.Request) (after : NormalForm) (symbol : Symbol) :
    Prop where
  headed : after.Heads symbol
  free : request.target = none → n.isUnshareable symbol = false ∨ n.numbering.last < symbol
  heads : ∀ s, after.Heads s → n.Heads s ∨ n.numbering.last < s ∨ request.target = some s

theorem addRule_places {parts : List Part} (inRange : shard < n.shards.size)
    (own : ∀ s, request.target = some s → n.isUnshareable s = true) (nonempty : parts ≠ [])
    (adds : request.target = none → request.callback.isSilent = true →
      ∀ operand, parts ≠ [.symbol operand]) :
    ∃ symbol, (n.addRule request parts shard).2 = some symbol ∧
      Places n request (n.addRule request parts shard).1 symbol := by
  obtain ⟨m, b, steps, result⟩ := addRule_eq_addTo n shard nonempty adds
  rw [result]
  have since := steps.since inRange
  have adds : m.Adds request b (m.addTo request b shard).1 (m.addTo request b shard).2 := by
    refine addTo_adds (since.size ▸ inRange) fun s target => ?_
    rw [isUnshareable, since.unshareable]
    exact own s target
  refine ⟨_, rfl, ?_, fun free => ?_, ?_⟩
  · obtain ⟨h, has, isSymbol, _⟩ := adds.met
    exact ⟨b, h, has, isSymbol⟩
  · rcases adds.chooses with ⟨_, target | ⟨_, shareable, _⟩⟩ | ⟨_, _, next⟩
    · rw [free] at target
      cases target
    · rw [isUnshareable, since.unshareable] at shareable
      exact .inl shareable
    · refine .inr ?_
      rw [next]
      exact Nat.lt_succ_of_le since.last
  · rintro s ⟨c, h, has, rfl⟩
    have older {s : Symbol} (heads : m.Heads s) :
        n.Heads s ∨ n.numbering.last < s ∨ request.target = some s :=
      (since.heads s heads).imp_right .inl
    rcases adds.new c h has with old | ⟨rfl, rfl⟩
    · exact older ⟨c, h, old, rfl⟩
    · rcases adds.chooses with ⟨_, target | ⟨_, _, h, old, same, _⟩⟩ | ⟨_, _, next⟩
      · exact .inr (.inr target)
      · exact same ▸ older ⟨c, h, old, rfl⟩
      · refine .inr (.inl ?_)
        rw [Head.Request.head, next]
        exact Nat.lt_succ_of_le since.last

/-- A rule of a shard that is not kept. -/
theorem addRule_only_of_not {parts : List Part} (notKept : keep shard = false) :
    ((n.addRule request parts shard).1.only keep).shards = (n.only keep).shards := by
  by_cases nonempty : parts = []
  · rw [nonempty]
    rfl
  · by_cases bare : request.target = none ∧ request.callback.isSilent = true ∧
        ∃ operand, parts = [.symbol operand]
    · obtain ⟨free, silent, operand, rfl⟩ := bare
      rw [addRule_bare free silent]
    · obtain ⟨m, b, steps, result⟩ := addRule_eq_addTo n shard nonempty
        fun free silent operand eq => bare ⟨free, silent, operand, eq⟩
      rw [result]
      exact (addTo_only_of_not notKept b).trans (steps.only_of_not notKept)

end

end Phrasebook.NormalForm
