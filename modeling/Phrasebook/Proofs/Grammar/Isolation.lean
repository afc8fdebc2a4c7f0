import Phrasebook.Proofs.Grammar.Preservation
import Phrasebook.Proofs.Grammar.Restriction

/-!
What some shards of a normal form derive by themselves. Their productions come from the rules of
those shards, and from rules of any shard that only give a symbol a second name: these add no
production, so no choice of shards leaves them out. Nothing else of the other shards takes part.
-/

namespace Phrasebook

/-- The rule consists of one reference and calls nothing back. -/
def Rule.isAlias (rule : Rule) : Bool :=
  match rule.rhs with
  | [.reference _] => rule.options.callback.isSilent
  | _ => false

theorem Rule.isAlias_iff {rule : Rule} : rule.isAlias = true ↔
    (∃ i, rule.rhs = [.reference i]) ∧ rule.options.callback.isSilent = true := by
  unfold isAlias
  split
  · next i eq => simp [eq]
  · next other =>
    refine ⟨by simp, ?_⟩
    rintro ⟨⟨i, eq⟩, _⟩
    exact absurd eq (other i)

namespace Grammar

/-- The rule makes its left-hand side a second name of what it refers to. -/
def renames (g : Grammar) (rule : Rule) : Bool :=
  rule.isAlias && (g.rules.toList.filter (·.lhs == rule.lhs)).length == 1

/-- The grammar with the rules of the shards that `keep` names, and those that only rename. -/
def within (g : Grammar) (keep : Nat → Bool) : Grammar :=
  { g with rules := g.rules.filter fun rule => keep rule.options.shard || g.renames rule }

section
variable {g : Grammar} {keep : Nat → Bool}

theorem mem_within {rule : Rule} : rule ∈ (g.within keep).rules ↔
    rule ∈ g.rules ∧ (keep rule.options.shard = true ∨ g.renames rule = true) := by
  simp [within]

theorem RuleFits.within {rule : Rule} (fits : g.RuleFits rule) : (g.within keep).RuleFits rule :=
  ⟨fits.nonempty, fits.lhs, fits.references, fits.literals, fits.shard, fits.excluded⟩

theorem WellFormed.within (formed : g.WellFormed) : (g.within keep).WellFormed :=
  ⟨formed.named, formed.distinct, formed.clean, formed.filters, formed.silent,
    fun rule member => (formed.rules rule (mem_within.mp member).1).within⟩

end

end Grammar

/-- The meanings of the symbols up to `last`. Those above mean nothing. -/
def Meaning.upTo (last : Symbol) (M : Meaning α) : Meaning α := fun s w => s ≤ last ∧ M s w

theorem Meaning.agrees_upTo (last : Symbol) (M : Meaning α) : Agrees last M (M.upTo last) :=
  fun _ bound _ => (and_iff_right bound).symm

namespace NormalForm

section
variable {R : Reading κ α} {Allowed : Callback → List α → Prop} {n m : NormalForm}
  {keep : Nat → Bool} {M N : Meaning α}

theorem Has.of_shards {b : Body} {h : Head} (shards : m.shards = n.shards) (has : m.Has b h) :
    n.Has b h := by
  obtain ⟨i, shard, found, member⟩ := has
  exact ⟨i, shard, shards ▸ found, member⟩

theorem Heads.of_shards {s : Symbol} (shards : m.shards = n.shards) (heads : m.Heads s) :
    n.Heads s := by
  obtain ⟨b, h, has, same⟩ := heads
  exact ⟨b, h, has.of_shards shards, same⟩

theorem shards_only_congr (shards : m.shards = n.shards) :
    (m.only keep).shards = (n.only keep).shards := by
  simp only [only, shards]

theorem Model.only (model : n.Model R Allowed M) : (n.only keep).Model R Allowed M :=
  ⟨model.solid, fun b h has => model.sound b h has.of_only,
    fun b h has => model.sharp b h has.of_only, fun b h has => model.loud b h has.of_only⟩

/-- A model may say anything about symbols that are not in use yet. -/
theorem Model.agrees (bounded : n.Bounded) (shards : m.shards = n.shards)
    (unshareable : m.numbering.unshareable = n.numbering.unshareable)
    (agrees : Meaning.Agrees n.numbering.last M N) (solid : N.Solid)
    (model : n.Model R Allowed M) : m.Model R Allowed N := by
  have reads {b : Body} {h : Head} (has : n.Has b h) (w : List α) :
      b.Reads R M h.gap w ↔ b.Reads R N h.gap w :=
    Body.reads_local (bounded.bodies b has.keyed) M N agrees w
  have means {b : Body} {h : Head} (has : n.Has b h) (w : List α) :
      M h.symbol w ↔ N h.symbol w := agrees _ (bounded.heads b h has) w
  refine ⟨solid, fun b h has w isRead => ?_, fun b h has free w isMeant => ?_,
    fun b h has loud other w isRead => ?_⟩
  · have has := has.of_shards shards
    exact (means has w).mp (model.sound b h has w ((reads has w).mpr isRead))
  · have has := has.of_shards shards
    rw [isUnshareable, unshareable] at free
    exact (reads has w).mp (model.sharp b h has free w ((means has w).mpr isMeant))
  · have has := has.of_shards shards
    exact model.loud b h has loud other w ((reads has w).mpr isRead)

/-- Symbols that may be shared and head productions of the other shards mean nothing. -/
def Muted (n : NormalForm) (keep : Nat → Bool) (M : Meaning α) : Prop :=
  ∀ s, (n.only (!keep ·)).Heads s → n.isUnshareable s = false → ∀ w, ¬ M s w

/-- Nothing has been added to the other shards. -/
theorem Muted.agrees (bounded : n.Bounded)
    (shards : (m.only (!keep ·)).shards = (n.only (!keep ·)).shards)
    (unshareable : m.numbering.unshareable = n.numbering.unshareable)
    (agrees : Meaning.Agrees n.numbering.last M N) (muted : n.Muted keep M) : m.Muted keep N := by
  intro s heads free w means
  have old := heads.of_shards shards
  obtain ⟨b, h, has, same⟩ := id old
  rw [isUnshareable, unshareable] at free
  refine muted s old free w ((agrees s ?_ w).mpr means)
  exact same ▸ bounded.heads b h has.of_only

/-- A production has been added to one of the other shards. -/
theorem Muted.upTo {request : Head.Request} {symbol : Symbol}
    (own : ∀ s, request.target = some s → n.isUnshareable s = true)
    (places : (n.only (!keep ·)).Places request (m.only (!keep ·)) symbol)
    (muted : n.Muted keep M) {s : Symbol} (heads : (m.only (!keep ·)).Heads s)
    (free : n.isUnshareable s = false) (w : List α) : ¬ M.upTo n.numbering.last s w := by
  rintro ⟨bound, means⟩
  rcases places.heads s heads with old | new | target
  · exact muted s old free w means
  · exact absurd bound (Nat.not_le_of_lt new)
  · rw [own s target] at free
    cases free

theorem Muted.upTo_symbol {request : Head.Request} {symbol : Symbol}
    (own : ∀ s, request.target = some s → n.isUnshareable s = true)
    (places : (n.only (!keep ·)).Places request (m.only (!keep ·)) symbol)
    (muted : n.Muted keep M) (none : request.target = none) (w : List α) :
    ¬ M.upTo n.numbering.last symbol w := by
  rcases places.free none with free | new
  · exact muted.upTo own places places.headed free w
  · exact fun means => absurd means.1 (Nat.not_le_of_lt new)

end

end NormalForm

namespace Grammar

namespace Progress

/-- The shards that `keep` names, and what is known about symbols. -/
def only (p : Progress) (keep : Nat → Bool) : Progress := { p with normal := p.normal.only keep }

section
variable {g : Grammar} {R : Reading Nat α} {p : Progress} {rule : Rule} {keep : Nat → Bool}

theorem shards_lower (g : Grammar) (p : Progress) (rule : Rule) :
    (p.lower g rule).normal.shards = (p.normal.addRule (p.request rule)
      (rule.rhs.map (p.part rule)) rule.options.shard).1.shards := by
  rw [lower_eq]
  dsimp only
  split
  · rfl
  · rfl

/-- Where adding the productions of a rule can be seen by itself, so can lowering it. -/
theorem lower_only (same : (p.normal.only keep).addRule (p.request rule)
      (rule.rhs.map (p.part rule)) rule.options.shard =
    ((p.normal.addRule (p.request rule) (rule.rhs.map (p.part rule)) rule.options.shard).1.only keep,
      (p.normal.addRule (p.request rule) (rule.rhs.map (p.part rule)) rule.options.shard).2)) :
    (p.only keep).lower (g.within keep) rule = (p.lower g rule).only keep := by
  have added : (p.only keep).normal.addRule ((p.only keep).request rule)
      (rule.rhs.map ((p.only keep).part rule)) rule.options.shard = _ := same
  rw [lower_eq, lower_eq, added]
  dsimp only
  have symbol : (p.only keep).symbol? rule.lhs = p.symbol? rule.lhs := rfl
  rw [symbol]
  cases p.symbol? rule.lhs <|> (p.normal.addRule (p.request rule) (rule.rhs.map (p.part rule))
      rule.options.shard).2 with
  | none => rfl
  | some s => rfl

/-- A rule that renames, before its left-hand side has a symbol, adds no production. -/
theorem addRule_alias (fits : g.RuleFits rule) (isAlias : rule.isAlias = true)
    (free : p.symbol? rule.lhs = none) :
    ∃ operand, ∀ n : NormalForm,
      n.addRule (p.request rule) (rule.rhs.map (p.part rule)) rule.options.shard =
        (n, some operand) := by
  obtain ⟨⟨i, isReference⟩, silent⟩ := Rule.isAlias_iff.mp isAlias
  have other : rule.options.callback.id ≠ Builtin.exclusion.id := by
    intro isExclusion
    rw [Callback.isSilent, isExclusion] at silent
    cases silent
  refine ⟨(p.symbol? i).getD 0, fun n => ?_⟩
  rw [isReference]
  refine NormalForm.addRule_bare free ?_ _
  rw [request_callback (fits.excluded_eq_none other)]
  exact silent

/-- The kept shards are those of a grammar of their own, if their callbacks are. -/
theorem Tidy.only (tidy : p.Tidy g)
    (callbacks : ∀ b h, (p.normal.only keep).Has b h → h.callback.isSilent = true ∨
      ∃ rule ∈ (g.within keep).rules, rule.options.callback.id = h.callback.id) :
    (p.only keep).Tidy (g.within keep) := by
  refine { tidy with
    bounded := tidy.bounded.only
    locales := ?_
    single := fun i isNone => ?_
    callbacks := callbacks }
  · exact (congrArg NormalForm.Frame.locales NormalForm.frame_only).trans tidy.locales
  · refine Nat.le_trans (List.Sublist.length_le ?_) (tidy.single i isNone)
    simp only [within, Array.toList_filter]
    exact List.filter_sublist.filter _

/-- The state of a sweep as the kept shards show it. Rules that rename are to be lowered before
their left-hand side has a symbol. -/
structure Isolated (g : Grammar) (R : Reading Nat α) (keep : Nat → Bool) (pending : List Rule)
    (p : Progress) : Prop extends Holds g R pending p where
  free : ∀ rule ∈ pending, g.renames rule = true → p.symbol? rule.lhs = none
  seen : (p.only keep).Tidy (g.within keep)
  isolated : ∃ M, (p.only keep).Explains (g.within keep) R M ∧ p.normal.Muted keep M

theorem Lowers.numbering {after : NormalForm} {symbol : Symbol}
    (lowers : p.Lowers g R rule after symbol) :
    (p.lower g rule).normal.numbering.unshareable = p.normal.numbering.unshareable := by
  rw [lowers.result]
  exact (after.bind_numbering _ symbol).2.trans lowers.realizes.keeps.unshareable

/-- A rule that has its place in the kept shards, or renames. -/
theorem Isolated.lower_member {before rest : List Rule} (formed : g.WellFormed)
    (isolated : p.Isolated g R keep (before ++ rule :: rest)) (ready : p.isReady rule = true)
    (member : rule ∈ (g.within keep).rules) :
    ((p.lower g rule).only keep).Tidy (g.within keep) ∧
      ∃ N, ((p.lower g rule).only keep).Explains (g.within keep) R N ∧
        (p.lower g rule).normal.Muted keep N := by
  have isPending : rule ∈ before ++ rule :: rest := by simp
  obtain ⟨isRule, kept⟩ := mem_within.mp member
  have fits := formed.rules rule isRule
  obtain ⟨M, explains, muted⟩ := isolated.isolated
  obtain ⟨commutes, hidden⟩ : (p.only keep).lower (g.within keep) rule = (p.lower g rule).only keep ∧
      ((p.lower g rule).normal.only (!keep ·)).shards = (p.normal.only (!keep ·)).shards := by
    rcases kept with kept | renames
    · refine ⟨lower_only (NormalForm.addRule_only kept _), ?_⟩
      rw [NormalForm.shards_only_congr (shards_lower g p rule)]
      exact NormalForm.addRule_only_of_not (by simp [kept])
    · obtain ⟨isAlias, _⟩ := Bool.and_eq_true_iff.mp renames
      obtain ⟨operand, bare⟩ :=
        addRule_alias fits isAlias (isolated.free rule isPending renames)
      refine ⟨lower_only (by rw [bare, bare]), NormalForm.shards_only_congr ?_⟩
      rw [shards_lower, bare]
  obtain ⟨after, symbol, lowers⟩ := Progress.lowers (R := R) isolated.seen fits.within ready
    (isolated.own rule isPending)
  obtain ⟨N, explained, agrees⟩ :=
    explains_lower formed.within isolated.seen member ready lowers explains
  have unshareable := lowers.numbering
  rw [commutes] at explained unshareable
  refine ⟨commutes ▸ tidy_lower formed.within isolated.seen member lowers, N, explained, ?_⟩
  exact muted.agrees isolated.bounded hidden unshareable agrees

/-- A rule that does not rename has more than a symbol on its right when it is lowered. -/
theorem parts_ne_symbol (tidy : p.Tidy g) (member : rule ∈ g.rules)
    (notRenames : g.renames rule = false) (free : p.symbol? rule.lhs = none)
    (silent : (p.request rule).callback.isSilent = true) (operand : Symbol) :
    rule.rhs.map (p.part rule) ≠ [.symbol operand] := by
  intro single
  obtain ⟨e, isRhs, isPart⟩ := List.map_eq_singleton_iff.mp single
  have isAlias : rule.isAlias = true := by
    refine Rule.isAlias_iff.mpr ⟨?_, ?_⟩
    · cases e with
      | literal text => cases isPart
      | reference i => exact ⟨i, isRhs⟩
    · rwa [Callback.isSilent, request_callback_id] at silent
  have here : rule ∈ g.rules.toList.filter (·.lhs == rule.lhs) :=
    List.mem_filter.mpr ⟨Array.mem_toList_iff.mpr member, by simp⟩
  have only : (g.rules.toList.filter (·.lhs == rule.lhs)).length = 1 :=
    Nat.le_antisymm (tidy.single _ free) (List.length_pos_of_mem here)
  simp [renames, isAlias, only] at notRenames

/-- Where the rule's own shard is kept, its symbol heads a production. -/
theorem Lowers.places {after : NormalForm} {symbol : Symbol} (formed : g.WellFormed)
    (tidy : p.Tidy g) (member : rule ∈ g.rules)
    (own : ∀ s, p.symbol? rule.lhs = some s → p.normal.isUnshareable s = true)
    (notRenames : g.renames rule = false) (kept : keep rule.options.shard = true)
    (lowers : p.Lowers g R rule after symbol) :
    (p.normal.only keep).Places (p.request rule) (after.only keep) symbol := by
  have fits := formed.rules rule member
  have inRange : rule.options.shard < (p.normal.only keep).shards.size := by
    rw [NormalForm.size_only, tidy.shards]
    exact fits.shard
  obtain ⟨t, yields, places⟩ : ∃ t, ((p.normal.only keep).addRule (p.request rule)
      (rule.rhs.map (p.part rule)) rule.options.shard).2 = some t ∧ _ :=
    NormalForm.addRule_places inRange own (by simpa using fits.nonempty)
      fun free silent => parts_ne_symbol tidy member notRenames free silent
  rw [NormalForm.addRule_only kept, lowers.added] at yields places
  obtain rfl := Option.some.inj yields
  exact places

/-- A left-hand side whose only rule is left out generates nothing. -/
theorem Tidy.not_generates (tidy : p.Tidy g) (isRule : rule ∈ g.rules)
    (notMember : rule ∉ (g.within keep).rules) (none : p.symbol? rule.lhs = none) (w : List α) :
    ¬ (g.within keep).Generates R rule.lhs w := by
  rintro (⟨isGiven, _⟩ | ⟨other, member, same, _⟩)
  · obtain ⟨s, isSome, _⟩ := tidy.given _ isGiven
    rw [none] at isSome
    cases isSome
  · rw [tidy.eq_of_lhs none isRule (mem_within.mp member).1 same] at member
    exact notMember member

/-- A rule of another shard that does not rename. -/
theorem Isolated.lower_not_member {before rest : List Rule} (formed : g.WellFormed)
    (isolated : p.Isolated g R keep (before ++ rule :: rest)) (ready : p.isReady rule = true)
    (isRule : rule ∈ g.rules) (notMember : rule ∉ (g.within keep).rules) :
    ((p.lower g rule).only keep).Tidy (g.within keep) ∧
      ∃ N, ((p.lower g rule).only keep).Explains (g.within keep) R N ∧
        (p.lower g rule).normal.Muted keep N := by
  have isPending : rule ∈ before ++ rule :: rest := by simp
  have tidy := isolated.toTidy
  have fits := formed.rules rule isRule
  have own := isolated.own rule isPending
  obtain ⟨notKept, notRenames⟩ : keep rule.options.shard = false ∧ g.renames rule = false := by
    simpa [mem_within, isRule] using notMember
  obtain ⟨after, symbol, lowers⟩ := Progress.lowers (R := R) tidy fits ready own
  have seen : ((p.lower g rule).normal.only keep).shards = (p.normal.only keep).shards := by
    rw [NormalForm.shards_only_congr (shards_lower g p rule)]
    exact NormalForm.addRule_only_of_not notKept
  have places : NormalForm.Places _ _ (after.only (!keep ·)) symbol :=
    lowers.places formed tidy isRule own notRenames (by simp [notKept])
  obtain ⟨M, ⟨model, means⟩, muted⟩ := isolated.isolated
  have agrees := M.agrees_upTo p.normal.numbering.last
  refine ⟨Tidy.only (isolated.toHolds.lower formed ready).toTidy fun b h has =>
    isolated.seen.callbacks b h (has.of_shards seen), M.upTo p.normal.numbering.last,
    ⟨?_, fun i s found w => ?_⟩, fun s heads free => muted.upTo own places (heads.of_shards ?_) ?_⟩
  · exact model.agrees isolated.seen.bounded seen lowers.numbering agrees
      fun s w isMeant => model.solid s w isMeant.2
  · have old {i : Nat} {s : Symbol} (found : p.symbol? i = some s) :
        M.upTo p.normal.numbering.last s w ↔ (g.within keep).Generates R i w :=
      (agrees s (tidy.symbols_le i s found) w).symm.trans (means i s found w)
    have found : (p.lower g rule).symbol? i = some s := found
    rw [symbol?_lower tidy fits lowers] at found
    split at found
    · next same =>
      obtain rfl := Option.some.inj found
      subst same
      cases target : p.symbol? rule.lhs with
      | some t => exact lowers.realizes.target t target ▸ old target
      | none =>
        exact iff_of_false (muted.upTo_symbol own places target w)
          (tidy.not_generates isRule notMember target w)
    · exact old found
  · refine NormalForm.shards_only_congr ?_
    rw [shards_lower, lowers.added]
  · rwa [NormalForm.isUnshareable, lowers.numbering] at free

/-- Taking a rule that is ready off the list. -/
theorem Isolated.lower {before rest : List Rule} (formed : g.WellFormed)
    (isolated : p.Isolated g R keep (before ++ rule :: rest)) (ready : p.isReady rule = true) :
    (p.lower g rule).Isolated g R keep (before ++ rest) := by
  have isPending : rule ∈ before ++ rule :: rest := by simp
  have isRule : rule ∈ g.rules := Array.mem_toList_iff.mp (isolated.sublist.subset isPending)
  obtain ⟨seen, explained⟩ : ((p.lower g rule).only keep).Tidy (g.within keep) ∧ _ := by
    by_cases member : rule ∈ (g.within keep).rules
    · exact isolated.lower_member formed ready member
    · exact isolated.lower_not_member formed ready isRule member
  refine ⟨isolated.toHolds.lower formed ready, fun other isOther renames => ?_, seen, explained⟩
  have fits := formed.rules rule isRule
  obtain ⟨after, symbol, lowers⟩ := Progress.lowers (R := R) isolated.toTidy fits ready
    (isolated.own rule isPending)
  rw [symbol?_lower isolated.toTidy fits lowers]
  split
  · next same =>
    have two := two_le_of_pending isolated.sublist isOther same
    obtain ⟨_, one⟩ := Bool.and_eq_true_iff.mp renames
    rw [beq_iff_eq, same] at one
    omega
  · refine isolated.free other ?_ renames
    rcases List.mem_append.mp isOther with h | h
    · simp [h]
    · simp [h]

/-- Before any rule is lowered. -/
theorem Owned.isolated (formed : g.WellFormed) (bare : ∀ rule ∈ g.rules, ¬ g.IsGiven rule.lhs)
    (owned : p.Owned g g.nonterminals.size) : p.Isolated g R keep g.rules.toList := by
  have holds : p.Holds g R g.rules.toList := owned.holds formed
  obtain ⟨M, model, means⟩ := owned.explains (g.within keep) R
  refine ⟨holds, fun rule member renames => ?_,
    holds.toTidy.only fun b h has => absurd has.of_only (owned.not_has b h),
    M, ⟨model.only, means⟩, ?_⟩
  · obtain ⟨isAlias, one⟩ := Bool.and_eq_true_iff.mp renames
    obtain ⟨_, silent⟩ := Rule.isAlias_iff.mp isAlias
    rw [beq_iff_eq] at one
    cases isSome : p.symbol? rule.lhs with
    | none => rfl
    | some s =>
      rcases owned.earned _ s isSome with isGiven | several | ⟨other, isOther, isFilter⟩
      · exact absurd isGiven (bare rule (Array.mem_toList_iff.mp member))
      · omega
      · obtain ⟨only, isOnly⟩ := List.length_eq_one_iff.mp one
        have here : rule ∈ g.rules.toList.filter (·.lhs == rule.lhs) :=
          List.mem_filter.mpr ⟨member, by simp⟩
        rw [isOnly, List.mem_singleton] at here isOther
        have isZero : other.options.callback.id = 0 := by
          rw [isOther, ← here]
          exact beq_iff_eq.mp silent
        rw [isZero, formed.silent] at isFilter
        cases isFilter
  · rintro s ⟨b, h, has, _⟩
    exact absurd has.of_only (owned.not_has b h)

end

end Progress

section
variable {g : Grammar} {n : NormalForm}

/-- When a grammar has a normal form, its shards have been kept apart. -/
theorem normalize_isolated (built : g.Built) (normal : g.normalize = .ok n) (R : Reading Nat α)
    (keep : Nat → Bool) : ∃ p : Progress, p.normal = n ∧ p.Isolated g R keep [] := by
  have formed := built.wellFormed
  obtain ⟨p, owned, isNormal, none, bare⟩ := normalize_eq_ok built normal
  have settled := Progress.settle_induction (P := fun p rules => p.Isolated g R keep rules)
    (fun _ _ _ _ isolated ready => isolated.lower formed ready) (owned.isolated formed bare)
  rw [none] at settled
  exact ⟨_, isNormal, settled⟩

/-- What the kept shards fire on, a rule that has its place there spells. -/
theorem Progress.Isolated.allowed {R : Reading Nat α} {keep : Nat → Bool} {p : Progress}
    (isolated : p.Isolated g R keep []) {callback : Callback} (loud : callback.isSilent = false)
    (other : callback.id ≠ Builtin.exclusion.id) {w : List α}
    (fires : (p.normal.only keep).Fires (R.through g p.normal) callback w) :
    (g.within keep).Allowed R callback w := by
  obtain ⟨b, h, has, rfl, reads⟩ := fires
  obtain ⟨M, explains, _⟩ := isolated.isolated
  refine explains.1.loud b h has loud other w ?_
  exact Body.Reads.mono (fun _ _ v derives => explains.derives isolated.seen derives) reads

end

end Grammar

end Phrasebook
