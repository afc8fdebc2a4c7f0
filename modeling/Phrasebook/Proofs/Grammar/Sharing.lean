import Phrasebook.Proofs.Grammar.Assignment
import Phrasebook.Proofs.Grammar.Restriction

namespace Phrasebook

namespace Placement

variable {isOwn : Symbol → Bool} {isFilter : Callback → Bool} {request : Head.Request}

/-- A silent request leaves the heads as they are or is appended under the symbol it came with. -/
theorem find_silent (silent : request.callback.isSilent = true) (symbol : Option Symbol)
    (heads : List Head) :
    find isOwn isFilter request symbol heads = .appended symbol ∨
      ∃ s, find isOwn isFilter request symbol heads = .shared heads s := by
  induction heads with
  | nil => exact .inl rfl
  | cons head rest ih =>
    rw [find]
    split
    · exact .inr ⟨_, rfl⟩
    · split
      · rcases ih with appended | ⟨s, shared⟩
        · exact .inl (by rw [appended]; rfl)
        · exact .inr ⟨s, by rw [shared]; rfl⟩
      · rw [silent, Bool.or_true, if_pos rfl]
        exact .inr ⟨_, rfl⟩

end Placement

namespace NormalForm

/-- The heads of one right-hand side in one shard. -/
def headsIn (n : NormalForm) (shard : Nat) (b : Body) : List Head :=
  ((n.shards[shard]?).map (·.tables.headsOf b)).getD []

/-- The symbol has been handed out. -/
def Issued (n : NormalForm) (s : Symbol) : Prop := 0 < s ∧ s ≤ n.symbolCount

instance (n : NormalForm) (s : Symbol) : Decidable (n.Issued s) :=
  inferInstanceAs (Decidable (_ ∧ _))

/-- The part is a literal or a symbol that has been handed out. -/
def Knows (n : NormalForm) : Part → Prop
  | .literal _ _ => True
  | .symbol s => n.Issued s

instance (n : NormalForm) : DecidablePred n.Knows
  | .literal _ _ => .isTrue trivial
  | .symbol s => inferInstanceAs (Decidable (n.Issued s))

/-- Productions are about symbols that have been handed out. -/
def Allocated (n : NormalForm) : Prop :=
  ∀ shard b, ∀ h ∈ n.headsIn shard b, n.Issued h.symbol ∧ ∀ s ∈ b.symbols, n.Issued s

/-- What no operation takes back: which symbols are somebody's own, and every head in its place. -/
structure Retains (n after : NormalForm) : Prop where
  filters : after.filters = n.filters
  size : after.shards.size = n.shards.size
  count : n.symbolCount ≤ after.symbolCount
  own : ∀ s, s ≤ n.symbolCount → after.isUnshareable s = n.isUnshareable s
  heads : ∀ shard b, HeadsStay (n.headsIn shard b) (after.headsIn shard b)

namespace Retains

variable {n m k : NormalForm}

theorem refl (n : NormalForm) : n.Retains n :=
  ⟨rfl, rfl, Nat.le_refl _, fun _ _ => rfl, fun _ _ => .refl _⟩

theorem trans (first : n.Retains m) (second : m.Retains k) : n.Retains k where
  filters := second.filters.trans first.filters
  size := second.size.trans first.size
  count := Nat.le_trans first.count second.count
  own s le := (second.own s (Nat.le_trans le first.count)).trans (first.own s le)
  heads shard b := (first.heads shard b).trans (second.heads shard b)

theorem issued (retains : n.Retains m) {s : Symbol} (issued : n.Issued s) : m.Issued s :=
  ⟨issued.1, Nat.le_trans issued.2 retains.count⟩

theorem knows (retains : n.Retains m) {part : Part} (known : n.Knows part) : m.Knows part := by
  cases part with
  | literal => trivial
  | symbol s => exact retains.issued known

theorem isFilter (retains : n.Retains m) (c : Callback) : m.isFilter c = n.isFilter c := by
  rw [NormalForm.isFilter, retains.filters]
  rfl

end Retains

section
variable {n : NormalForm} {request : Head.Request} {b : Body} {shard : Nat}

theorem headsIn_addTo (inRange : shard < n.shards.size) (i : Nat) (c : Body) :
    (n.addTo request b shard).1.headsIn i c =
      if i = shard ∧ c = b then (n.place request (n.headsIn shard b)).2.1 else n.headsIn i c := by
  simp only [addTo, update, headsIn, Array.getElem?_modify]
  by_cases here : shard = i
  · subst here
    simp only [Array.getElem?_eq_getElem inRange, ↓reduceIte, Option.map_some, Option.getD_some,
      Tables.headsOf_setHeads, true_and]
  · rw [if_neg here, if_neg fun same => here same.1.symm]

theorem addTo_placed (inRange : shard < n.shards.size) :
    n.Placed request (n.headsIn shard b) (n.addTo request b shard).1.numbering
      ((n.addTo request b shard).1.headsIn shard b) (n.addTo request b shard).2 := by
  rw [headsIn_addTo inRange, if_pos ⟨rfl, rfl⟩]
  exact n.place_placed request (n.headsIn shard b)

theorem addTo_retains (inRange : shard < n.shards.size) :
    n.Retains (n.addTo request b shard).1 := by
  have placed : n.Placed request (n.headsIn shard b) _ _ _ := addTo_placed inRange
  refine ⟨rfl, by simp [addTo, update], ?_, fun s _ => ?_, fun i c => ?_⟩
  · rcases placed.source with ⟨same, _⟩ | ⟨_, next, _⟩
    · exact Nat.le_of_eq (by rw [symbolCount, symbolCount, same])
    · simp [symbolCount, next]
  · rcases placed.source with ⟨same, _⟩ | ⟨_, next, _⟩
    · rw [isUnshareable, same]
      rfl
    · rw [isUnshareable, next]
      rfl
  · by_cases here : i = shard ∧ c = b
    · obtain ⟨rfl, rfl⟩ := here
      exact placed.stay
    · rw [headsIn_addTo inRange, if_neg here]
      exact .refl _

/-- The symbol that a request is given has been handed out. -/
theorem addTo_issued (allocated : n.Allocated) (inRange : shard < n.shards.size)
    (asked : ∀ s, request.target = some s → n.Issued s) :
    (n.addTo request b shard).1.Issued (n.addTo request b shard).2 := by
  have retains : n.Retains (n.addTo request b shard).1 := addTo_retains inRange
  have placed : n.Placed request (n.headsIn shard b) _ _ _ := addTo_placed inRange
  rcases placed.source with ⟨_, target | shareable⟩ | ⟨_, next, eq⟩
  · exact retains.issued (asked _ target)
  · obtain ⟨h, member, isSymbol, _⟩ := shareable.head
    exact retains.issued (isSymbol ▸ (allocated shard b h member).1)
  · rw [eq]
    exact ⟨Nat.succ_pos _, Nat.le_of_eq (by rw [symbolCount, next])⟩

theorem addTo_allocated (allocated : n.Allocated) (inRange : shard < n.shards.size)
    (asked : ∀ s, request.target = some s → n.Issued s) (operands : ∀ s ∈ b.symbols, n.Issued s) :
    (n.addTo request b shard).1.Allocated := by
  have retains : n.Retains (n.addTo request b shard).1 := addTo_retains inRange
  have older {i : Nat} {c : Body} {h : Head} (member : h ∈ n.headsIn i c) :
      (n.addTo request b shard).1.Issued h.symbol ∧
        ∀ s ∈ c.symbols, (n.addTo request b shard).1.Issued s :=
    (allocated i c h member).imp retains.issued fun known s isOperand =>
      retains.issued (known s isOperand)
  intro i c h member
  by_cases here : i = shard ∧ c = b
  · obtain ⟨rfl, rfl⟩ := here
    rcases (addTo_placed inRange).new h member with old | rfl
    · exact older old
    · exact ⟨addTo_issued allocated inRange asked, fun s isOperand =>
        retains.issued (operands s isOperand)⟩
  · rw [headsIn_addTo inRange, if_neg here] at member
    exact older member

/-- A plain request changes no heads or is given a new symbol. -/
theorem addTo_plain (inRange : shard < n.shards.size) (gap : Int8) :
    (∀ i c, (n.addTo { gap } b shard).1.headsIn i c = n.headsIn i c) ∨
      (n.addTo { gap } b shard).2 = n.symbolCount + 1 := by
  have silent : Callback.isSilent ({ gap } : Head.Request).callback = true := rfl
  have found : Placement.find n.isUnshareable n.isFilter { gap } none (n.headsIn shard b) =
      .appended none ∨ ∃ s, Placement.find n.isUnshareable n.isFilter { gap } none
        (n.headsIn shard b) = .shared (n.headsIn shard b) s :=
    Placement.find_silent silent none (n.headsIn shard b)
  rcases found with appended | ⟨s, shared⟩
  · have placed : (n.place { gap } (n.headsIn shard b)).2.2 = n.symbolCount + 1 := by
      rw [place, appended]
      rfl
    exact .inr placed
  · have placed : (n.place { gap } (n.headsIn shard b)).2.1 = n.headsIn shard b := by
      rw [place, shared]
    refine .inl fun i c => ?_
    rw [headsIn_addTo inRange, placed]
    split
    · next here => rw [here.1, here.2]
    · rfl

end

theorem joinInit_ne_literal (n : NormalForm) (gap : Int8) (shard : Nat) (prev : Symbol)
    (symbols : List Symbol) (text : String) (caseSensitive : Bool) :
    (n.joinInit gap shard prev symbols).2 ≠ .literal text caseSensitive := by
  rcases symbols with _ | ⟨next, rest⟩
  · exact Body.noConfusion
  · induction rest generalizing n prev next with
    | nil => exact Body.noConfusion
    | cons last rest ih =>
      exact ih (n.addTo { gap } (.binary prev next) shard).1
        (n.addTo { gap } (.binary prev next) shard).2 last

section
variable {n : NormalForm} {shard : Nat} {prev next : Symbol}

/-- Nothing has been joined to the symbol from the left. -/
def Unjoined (n : NormalForm) (shard : Nat) (s : Symbol) : Prop :=
  ∀ t, n.headsIn shard (.binary s t) = []

/-- What joining two symbols leads to. -/
structure Joins (n : NormalForm) (shard : Nat) (prev : Symbol) (after : NormalForm)
    (joined : Symbol) : Prop where
  retains : n.Retains after
  allocated : after.Allocated
  issued : after.Issued joined
  unjoined : joined = n.symbolCount + 1 → after.Unjoined shard joined
  fresh : n.Unjoined shard prev → joined = n.symbolCount + 1

theorem addTo_joins (gap : Int8) (allocated : n.Allocated) (inRange : shard < n.shards.size)
    (isPrev : n.Issued prev) (isNext : n.Issued next) :
    n.Joins shard prev (n.addTo { gap } (.binary prev next) shard).1
      (n.addTo { gap } (.binary prev next) shard).2 := by
  have noTarget (s : Symbol) (target : none = some s) : n.Issued s := by cases target
  refine ⟨addTo_retains inRange, addTo_allocated allocated inRange noTarget ?_,
    addTo_issued allocated inRange noTarget, fun fresh t => ?_, fun unjoined => ?_⟩
  · simp [Body.symbols, isPrev, isNext]
  · rw [headsIn_addTo inRange, fresh, if_neg]
    · apply List.eq_nil_iff_forall_not_mem.mpr
      intro h member
      have known : n.Issued (n.symbolCount + 1) :=
        (allocated shard _ h member).2 _ List.mem_cons_self
      exact absurd known.2 (Nat.not_succ_le_self _)
    · rintro ⟨_, same⟩
      have eq : n.symbolCount + 1 = prev := (Body.binary.inj same).1
      exact absurd (eq ▸ isPrev.2) (Nat.not_succ_le_self _)
  · have placed : n.Placed { gap } (n.headsIn shard (.binary prev next)) _ _ _ :=
      addTo_placed inRange
    rcases placed.source with ⟨_, target | shareable⟩ | ⟨_, _, eq⟩
    · cases target
    · obtain ⟨h, member, _⟩ := shareable.head
      rw [unjoined] at member
      cases member
    · exact eq

/-- What an unjoined symbol is joined to gets a new symbol, and so on up to the last production. -/
theorem joinInit_left (gap : Int8) (allocated : n.Allocated) (inRange : shard < n.shards.size)
    {rest : List Symbol} (unjoined : n.Unjoined shard prev) (isPrev : n.Issued prev)
    (issued : ∀ s ∈ next :: rest, n.Issued s) :
    ∃ left right, (n.joinInit gap shard prev (next :: rest)).2 = .binary left right ∧
      prev ≤ left := by
  induction rest generalizing n prev next with
  | nil => exact ⟨prev, next, rfl, Nat.le_refl _⟩
  | cons last rest ih =>
    have joins := addTo_joins gap allocated inRange isPrev (issued next List.mem_cons_self)
    have fresh := joins.fresh unjoined
    obtain ⟨left, right, isBody, le⟩ := ih joins.allocated (joins.retains.size ▸ inRange)
      (joins.unjoined fresh) joins.issued
      fun s member => joins.retains.issued (issued s (List.mem_cons_of_mem _ member))
    refine ⟨left, right, isBody, Nat.le_trans isPrev.2 (Nat.le_trans ?_ le)⟩
    rw [fresh]
    exact Nat.le_succ _

/-- The productions that a rule needs before its last one do not touch the heads of that one. -/
structure Readies (n m : NormalForm) (shard : Nat) (b : Body) : Prop where
  retains : n.Retains m
  allocated : m.Allocated
  operands : ∀ s ∈ b.symbols, m.Issued s
  heads : m.headsIn shard b = n.headsIn shard b

theorem joinInit_readies (gap : Int8) (allocated : n.Allocated) (inRange : shard < n.shards.size)
    {symbols : List Symbol} (isPrev : n.Issued prev) (issued : ∀ s ∈ symbols, n.Issued s) :
    n.Readies (n.joinInit gap shard prev symbols).1 shard
      (n.joinInit gap shard prev symbols).2 := by
  rcases symbols with _ | ⟨next, rest⟩
  · exact ⟨.refl n, allocated, by simpa [joinInit, Body.symbols] using isPrev, rfl⟩
  · induction rest generalizing n prev next with
    | nil =>
      refine ⟨.refl n, allocated, ?_, rfl⟩
      simpa [joinInit, Body.symbols] using ⟨isPrev, issued next List.mem_cons_self⟩
    | cons last rest ih =>
      have joins := addTo_joins gap allocated inRange isPrev (issued next List.mem_cons_self)
      have inRange' := joins.retains.size ▸ inRange
      have issued' : ∀ s ∈ last :: rest,
          (n.addTo { gap } (.binary prev next) shard).1.Issued s :=
        fun s member => joins.retains.issued (issued s (List.mem_cons_of_mem _ member))
      have readies := ih joins.allocated inRange' joins.issued last issued'
      refine ⟨joins.retains.trans readies.retains, readies.allocated, readies.operands,
        readies.heads.trans ?_⟩
      rcases addTo_plain (b := .binary prev next) inRange gap with same | fresh
      · exact same shard _
      · obtain ⟨left, right, isBody, le⟩ := joinInit_left gap joins.allocated inRange'
          (joins.unjoined fresh) joins.issued issued'
        refine (headsIn_addTo inRange shard _).trans (if_neg ?_)
        rintro ⟨_, same⟩
        have eq : left = prev := (Body.binary.inj (isBody.symm.trans same)).1
        rw [fresh, eq] at le
        exact absurd (Nat.le_trans le isPrev.2) (Nat.not_succ_le_self _)

/-- What giving symbols to the parts of a rule leads to. -/
structure Spells (n after : NormalForm) (symbols : List Symbol) : Prop where
  retains : n.Retains after
  allocated : after.Allocated
  issued : ∀ s ∈ symbols, after.Issued s
  heads : ∀ i b, (∀ text caseSensitive, b ≠ .literal text caseSensitive) →
    after.headsIn i b = n.headsIn i b

theorem addPart_spells (allocated : n.Allocated) (inRange : shard < n.shards.size) {part : Part}
    (known : n.Knows part) :
    n.Spells (n.addPart part shard).1 [(n.addPart part shard).2] := by
  cases part with
  | symbol s =>
    have issued : n.Issued s := known
    exact ⟨.refl n, allocated, by simpa [addPart] using issued, fun _ _ _ => rfl⟩
  | literal text caseSensitive =>
    have noTarget (s : Symbol) (target : none = some s) : n.Issued s := by cases target
    simp only [addPart, addLiteral_eq]
    refine ⟨addTo_retains inRange, addTo_allocated allocated inRange noTarget ?_, ?_,
      fun i b other => ?_⟩
    · simp [literalBody, Body.symbols]
    · simpa using addTo_issued allocated inRange noTarget
    · rw [headsIn_addTo inRange, if_neg]
      rintro ⟨_, same⟩
      exact other _ _ same

theorem addParts_spells (allocated : n.Allocated) (inRange : shard < n.shards.size)
    {parts : List Part} (known : ∀ part ∈ parts, n.Knows part) :
    n.Spells (n.addParts shard parts).1 (n.addParts shard parts).2 := by
  induction parts generalizing n with
  | nil => exact ⟨.refl n, allocated, List.forall_mem_nil _, fun _ _ _ => rfl⟩
  | cons part rest ih =>
    have one := addPart_spells allocated inRange (known part List.mem_cons_self)
    have more := ih one.allocated (one.retains.size ▸ inRange) fun other member =>
      one.retains.knows (known other (List.mem_cons_of_mem _ member))
    refine ⟨one.retains.trans more.retains, more.allocated, fun s member => ?_, fun i b other =>
      (more.heads i b other).trans (one.heads i b other)⟩
    rcases List.mem_cons.mp member with rfl | member
    · exact more.retains.issued (one.issued _ List.mem_cons_self)
    · exact more.issued s member

theorem lastProduction_readies (gap : Int8) (allocated : n.Allocated)
    (inRange : shard < n.shards.size) {first : Part} {rest : List Part}
    (known : ∀ part ∈ first :: rest, n.Knows part) :
    n.Readies (n.lastProduction gap shard first rest).1 shard
      (n.lastProduction gap shard first rest).2 := by
  unfold lastProduction
  split
  · exact ⟨.refl n, allocated, by simp [literalBody, Body.symbols], rfl⟩
  · have spells := addParts_spells allocated inRange known
    have issued : ∀ s ∈ ((n.addPart first shard).1.addParts shard rest).2,
        (n.addParts shard (first :: rest)).1.Issued s :=
      fun s member => spells.issued s (List.mem_cons_of_mem _ member)
    have readies := joinInit_readies gap spells.allocated (spells.retains.size ▸ inRange)
      (spells.issued _ List.mem_cons_self) issued
    exact ⟨spells.retains.trans readies.retains, readies.allocated, readies.operands,
      readies.heads.trans (spells.heads shard _ fun text caseSensitive =>
        joinInit_ne_literal _ _ _ _ _ text caseSensitive)⟩

theorem addRule_of_relabeled {request : Head.Request} {first : Part} {rest : List Part}
    {operand : Symbol} (relabeled : relabeled? request first rest = some operand) :
    n.addRule request (first :: rest) shard = (n, some operand) := by
  unfold relabeled? at relabeled
  split at relabeled
  · next s =>
    rw [Option.ite_none_right_eq_some, Bool.and_eq_true, Option.isNone_iff_eq_none] at relabeled
    obtain ⟨⟨free, silent⟩, eq⟩ := relabeled
    rw [addRule_bare free silent, Option.some.inj eq]
  · cases relabeled

/-- What a request is given. `b` is the right-hand side that it is added to in the end. -/
structure Answers (n : NormalForm) (request : Head.Request) (shard : Nat) (b : Body)
    (after : NormalForm) (symbol : Symbol) : Prop where
  asked : ∀ s, request.target = some s → symbol = s
  chosen : request.target = none →
    (n.symbolCount < symbol ∧ symbol = after.symbolCount) ∨
    (n.isFilter request.callback = false ∧ n.isUnshareable symbol = false ∧
      ∃ h ∈ n.headsIn shard b, h.symbol = symbol ∧ h.gap = request.gap ∧
        n.isFilter h.callback = false)
  met : ∃ h ∈ after.headsIn shard b, request.MetBy symbol h

theorem Readies.answers {m : NormalForm} {request : Head.Request} {b : Body}
    (readies : n.Readies m shard b) (allocated : n.Allocated) (inRange : shard < n.shards.size) :
    n.Answers request shard b (m.addTo request b shard).1 (m.addTo request b shard).2 := by
  have placed : m.Placed request (m.headsIn shard b) _ _ _ :=
    addTo_placed (readies.retains.size ▸ inRange)
  refine ⟨fun s target => ?_, fun free => ?_, placed.met⟩
  · rcases placed.source with ⟨_, same | shareable⟩ | ⟨free, _⟩
    · exact Option.some.inj (same.symm.trans target)
    · exact (shareable.target s target).1
    · rw [free] at target
      cases target
  · rcases placed.source with ⟨_, same | shareable⟩ | ⟨_, next, eq⟩
    · rw [free] at same
      cases same
    · obtain ⟨h, member, isSymbol, gap, unwatched⟩ := shareable.head
      rw [readies.heads] at member
      rw [readies.retains.isFilter] at unwatched
      have old : n.Issued h.symbol := (allocated shard b h member).1
      refine .inr ⟨?_, ?_, h, member, isSymbol, gap, unwatched⟩
      · rw [← readies.retains.isFilter]
        exact shareable.heard
      · rw [← readies.retains.own _ (isSymbol ▸ old.2)]
        exact shareable.free
    · refine .inl ⟨?_, ?_⟩
      · rw [eq]
        exact Nat.lt_succ_of_le readies.retains.count
      · rw [eq, symbolCount, next]

end

/-- The ways to add a production. -/
inductive Addition
  | literal (text : String) (caseSensitive : Bool)
  | unary (operand : Symbol)
  | binary (left right : Symbol)
  | rule (first : Part) (rest : List Part)

/-- The operations on a grammar in normal form. -/
inductive Operation
  | symbol (name : String)
  | unshareable (name : String)
  | add (request : Head.Request) (shard : Nat) (addition : Addition)

/-- Carries out an operation. Returns the symbol that it yields. -/
def run (n : NormalForm) : Operation → NormalForm × Option Symbol
  | .symbol name => (n.addSymbol name).map id some
  | .unshareable name => (n.addUnshareable name).map id some
  | .add request shard (.literal text caseSensitive) =>
    (n.addLiteral request text caseSensitive shard).map id some
  | .add request shard (.unary operand) => (n.addUnary request operand shard).map id some
  | .add request shard (.binary left right) => (n.addBinary request left right shard).map id some
  | .add request shard (.rule first rest) => n.addRule request (first :: rest) shard

/-- Carries out operations one after the other. -/
def runAll (n : NormalForm) : List Operation → NormalForm
  | [] => n
  | op :: rest => (n.run op).1.runAll rest

/-- The right-hand side as a rule would have it. -/
def Addition.parts : Addition → Part × List Part
  | .literal text caseSensitive => (.literal text caseSensitive, [])
  | .unary operand => (.symbol operand, [])
  | .binary left right => (.symbol left, [.symbol right])
  | .rule first rest => (first, rest)

theorem run_add (n : NormalForm) (request : Head.Request) (shard : Nat) (addition : Addition) :
    n.run (.add request shard addition) =
      n.addRule request (addition.parts.1 :: addition.parts.2) shard := by
  cases addition with
  | literal => rfl
  | unary => rfl
  | binary => rfl
  | rule => rfl

/-- An addition is about a shard that there is and about symbols that have been handed out. -/
def Permits (n : NormalForm) : Operation → Prop
  | .symbol _ | .unshareable _ => True
  | .add request shard addition =>
    shard < n.shards.size ∧ (∀ s ∈ request.target, n.Issued s) ∧
      ∀ part ∈ addition.parts.1 :: addition.parts.2, n.Knows part

instance (n : NormalForm) : DecidablePred n.Permits
  | .symbol _ | .unshareable _ => .isTrue trivial
  | .add _ _ _ => inferInstanceAs (Decidable (_ ∧ _ ∧ _))

/-- Every operation is permitted when its turn comes. -/
def PermitsAll (n : NormalForm) : List Operation → Prop
  | [] => True
  | op :: rest => n.Permits op ∧ (n.run op).1.PermitsAll rest

instance decidePermitsAll (n : NormalForm) : (ops : List Operation) → Decidable (n.PermitsAll ops)
  | [] => .isTrue trivial
  | op :: rest =>
    have := decidePermitsAll (n.run op).1 rest
    inferInstanceAs (Decidable (_ ∧ _))

/-- What an operation yields. A new symbol comes without productions. An addition that a symbol
meets by itself changes nothing, and any other one is answered by its last production. -/
def Yields (n : NormalForm) : Operation → Prop
  | .symbol name =>
    (n.run (.symbol name)).2 = some (n.symbolCount + 1) ∧
      (n.run (.symbol name)).1.shards = n.shards
  | .unshareable name =>
    (n.run (.unshareable name)).2 = some (n.symbolCount + 1) ∧
      (n.run (.unshareable name)).1.isUnshareable (n.symbolCount + 1) = true ∧
      (n.run (.unshareable name)).1.shards = n.shards
  | .add request shard addition =>
    match relabeled? request addition.parts.1 addition.parts.2 with
    | some operand => n.run (.add request shard addition) = (n, some operand)
    | none => ∃ symbol, (n.run (.add request shard addition)).2 = some symbol ∧
      n.Answers request shard
        (n.lastProduction request.gap shard addition.parts.1 addition.parts.2).2
        (n.run (.add request shard addition)).1 symbol

section
variable {n : NormalForm}

theorem fresh_retains {m : NormalForm} (allocated : n.Allocated) (shards : m.shards = n.shards)
    (filters : m.filters = n.filters) (count : m.symbolCount = n.symbolCount + 1)
    (own : ∀ s, s ≤ n.symbolCount → m.isUnshareable s = n.isUnshareable s) :
    n.Retains m ∧ m.Allocated := by
  have heads (i : Nat) (b : Body) : m.headsIn i b = n.headsIn i b := by
    rw [headsIn, shards]
    rfl
  have retains : n.Retains m :=
    ⟨filters, by rw [shards], count ▸ Nat.le_succ _, own, fun i b => by rw [heads]; exact .refl _⟩
  refine ⟨retains, fun i b h member => ?_⟩
  rw [heads] at member
  obtain ⟨isSymbol, operands⟩ := allocated i b h member
  exact ⟨retains.issued isSymbol, fun s isOperand => retains.issued (operands s isOperand)⟩

theorem addSymbol_retains (allocated : n.Allocated) (name : String) :
    n.Retains (n.addSymbol name).1 ∧ (n.addSymbol name).1.Allocated := by
  have named := bind_numbering { n with numbering := n.numbering.fresh.1 } name
    (n.numbering.last + 1)
  refine fresh_retains allocated rfl rfl named.1 fun s _ => ?_
  exact congrArg (·.contains s) named.2

theorem addUnshareable_retains (allocated : n.Allocated) (name : String) :
    n.Retains (n.addUnshareable name).1 ∧ (n.addUnshareable name).1.Allocated := by
  refine fresh_retains allocated rfl rfl (n.addUnshareable_last name) fun s le => ?_
  rw [Bool.eq_iff_iff, addUnshareable_isUnshareable]
  exact or_iff_right (Nat.ne_of_lt (Nat.lt_succ_of_le le))

/-- One operation. -/
theorem run_step {op : Operation} (allocated : n.Allocated) (permits : n.Permits op) :
    n.Retains (n.run op).1 ∧ (n.run op).1.Allocated ∧ n.Yields op := by
  cases op with
  | symbol name =>
    obtain ⟨retains, after⟩ := addSymbol_retains allocated name
    exact ⟨retains, after, rfl, rfl⟩
  | unshareable name =>
    obtain ⟨retains, after⟩ := addUnshareable_retains allocated name
    exact ⟨retains, after, rfl, (n.addUnshareable_isUnshareable name _).mpr (.inl rfl), rfl⟩
  | add request shard addition =>
    obtain ⟨inRange, asked, known⟩ := permits
    cases relabeled : relabeled? request addition.parts.1 addition.parts.2 with
    | some operand =>
      have same : n.run (.add request shard addition) = (n, some operand) := by
        rw [run_add, addRule_of_relabeled relabeled]
      refine ⟨?_, ?_, ?_⟩
      · rw [same]
        exact .refl n
      · rw [same]
        exact allocated
      · simp only [Yields, relabeled, same]
    | none =>
      have readies := lastProduction_readies request.gap allocated inRange known
      have inRange' := readies.retains.size ▸ inRange
      have result := (n.run_add request shard addition).trans (addRule_eq_lastProduction relabeled)
      refine ⟨?_, ?_, ?_⟩
      · rw [result]
        exact readies.retains.trans (addTo_retains inRange')
      · rw [result]
        exact addTo_allocated readies.allocated inRange'
          (fun s target => readies.retains.issued (asked s target)) readies.operands
      · simp only [Yields, relabeled, result]
        exact ⟨_, rfl, readies.answers allocated inRange⟩

theorem runAll_retains {ops : List Operation} (allocated : n.Allocated)
    (permits : n.PermitsAll ops) : n.Retains (n.runAll ops) ∧ (n.runAll ops).Allocated := by
  induction ops generalizing n with
  | nil => exact ⟨.refl n, allocated⟩
  | cons op rest ih =>
    obtain ⟨retains, after, _⟩ := run_step allocated permits.1
    obtain ⟨retains', after'⟩ := ih after permits.2
    exact ⟨retains.trans retains', after'⟩

theorem runAll_append (n : NormalForm) (earlier later : List Operation) :
    n.runAll (earlier ++ later) = (n.runAll earlier).runAll later := by
  induction earlier generalizing n with
  | nil => rfl
  | cons op rest ih => exact ih ..

theorem permitsAll_append {earlier later : List Operation} :
    n.PermitsAll (earlier ++ later) ↔
      n.PermitsAll earlier ∧ (n.runAll earlier).PermitsAll later := by
  induction earlier generalizing n with
  | nil => simp [PermitsAll, runAll]
  | cons op rest ih => simp only [List.cons_append, PermitsAll, runAll, ih, and_assoc]

theorem allocated_ofShards (locales : List (List Locale)) (filters : Std.TreeSet UInt32) :
    (ofShards locales filters).Allocated := by
  intro i b h member
  simp only [headsIn, ofShards, List.getElem?_toArray, List.getElem?_map, Option.map_map] at member
  cases found : locales[i]? with
  | none => simp [found] at member
  | some tags =>
    rw [found] at member
    exact absurd (Tables.hasKey_of_mem member) (not_hasKey_empty b)

/-- However productions are added, they are about symbols that have been handed out, every operation
yields what it should, and nothing later takes it back. -/
theorem runAll_shares (locales : List (List Locale)) (filters : Std.TreeSet UInt32)
    (ops : List Operation) (permits : (ofShards locales filters).PermitsAll ops) :
    ((ofShards locales filters).runAll ops).Allocated ∧
      (∀ earlier op later, ops = earlier ++ op :: later →
        ((ofShards locales filters).runAll earlier).Yields op) ∧
      ∀ earlier later, ops = earlier ++ later →
        ((ofShards locales filters).runAll earlier).Retains
          ((ofShards locales filters).runAll ops) := by
  have start : (ofShards locales filters).Allocated := allocated_ofShards locales filters
  refine ⟨(runAll_retains start permits).2, ?_, ?_⟩
  · rintro earlier op later rfl
    obtain ⟨before, now, _⟩ := permitsAll_append.mp permits
    exact (run_step (runAll_retains start before).2 now).2.2
  · rintro earlier later rfl
    obtain ⟨before, after⟩ := permitsAll_append.mp permits
    rw [runAll_append]
    exact (runAll_retains (runAll_retains start before).2 after).1

/-- One literal under a name of its own, without a name, with a filter and with a callback. -/
def mixed : List Operation :=
  [.unshareable "1", .add {} 0 (.literal "2" true), .add { target := some 1 } 0 (.literal "2" true),
    .add { callback := ⟨7, 0⟩ } 0 (.literal "2" true),
    .add { callback := ⟨20, 3⟩ } 0 (.literal "2" true), .add {} 0 (.unary 2),
    .add { target := some 1, gap := 0 } 0 (.rule (.literal "2" true) [.symbol 3, .symbol 1])]

/-- The symbol without a name takes over the callback, and the filter has its own. -/
theorem runAll_shares_mixed :
    (ofShards [[]] {7}).PermitsAll mixed ∧
      ((ofShards [[]] {7}).runAll mixed).headsIn 0 (.literal "2" true) =
        [⟨2, ⟨20, 3⟩, -1⟩, ⟨1, {}, -1⟩, ⟨3, ⟨7, 0⟩, -1⟩] ∧
      ((ofShards [[]] {7}).runAll mixed).Allocated ∧
      (∀ earlier op later, mixed = earlier ++ op :: later →
        ((ofShards [[]] {7}).runAll earlier).Yields op) ∧
      ∀ earlier later, mixed = earlier ++ later →
        ((ofShards [[]] {7}).runAll earlier).Retains ((ofShards [[]] {7}).runAll mixed) := by
  have permits : (ofShards [[]] {7}).PermitsAll mixed := by decide +kernel
  exact ⟨permits, by decide +kernel, runAll_shares _ _ _ permits⟩

end

end NormalForm

end Phrasebook
