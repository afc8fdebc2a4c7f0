import Phrasebook.Proofs.Grammar.Language

namespace Phrasebook

/-- What becomes of a head: its symbol and gap stay, and so does its callback unless it is silent. -/
def Head.Becomes (before after : Head) : Prop :=
  after.symbol = before.symbol ∧ after.gap = before.gap ∧
    (before.callback.isSilent = false → after.callback = before.callback)

namespace Head.Becomes

theorem refl (h : Head) : h.Becomes h := ⟨rfl, rfl, fun _ => rfl⟩

theorem trans {a b c : Head} (first : a.Becomes b) (second : b.Becomes c) : a.Becomes c := by
  obtain ⟨symbol, gap, callback⟩ := first
  refine ⟨second.1.trans symbol, second.2.1.trans gap, fun loud => ?_⟩
  have same : b.callback = a.callback := callback loud
  exact (second.2.2 (same ▸ loud)).trans same

/-- A silent head may take over a callback. -/
theorem of_silent {h : Head} (silent : h.callback.isSilent = true) (callback : Callback) :
    h.Becomes { h with callback } :=
  ⟨rfl, rfl, fun loud => by simp [silent] at loud⟩

end Head.Becomes

/-- The heads of `before` are in their places in `after`, up to callbacks that silent ones have taken
over. -/
def HeadsStay (before after : List Head) : Prop :=
  ∀ (i : Nat) (h : Head), before[i]? = some h → ∃ k, after[i]? = some k ∧ h.Becomes k

/-- `after` has every head of `before` up to a callback that a silent one has taken over. -/
def HeadsKept (before after : List Head) : Prop :=
  ∀ h ∈ before, h ∈ after ∨
    (h.callback.isSilent = true ∧ ∃ k ∈ after, k.symbol = h.symbol ∧ k.gap = h.gap)

namespace HeadsStay

variable {before after : List Head}

theorem refl (heads : List Head) : HeadsStay heads heads := fun _ h found => ⟨h, found, .refl h⟩

theorem trans {later : List Head} (first : HeadsStay before after)
    (second : HeadsStay after later) : HeadsStay before later := by
  intro i h found
  obtain ⟨k, isK, becomes⟩ := first i h found
  obtain ⟨l, isL, becomes'⟩ := second i k isK
  exact ⟨l, isL, becomes.trans becomes'⟩

theorem cons {h k : Head} (becomes : h.Becomes k) (stay : HeadsStay before after) :
    HeadsStay (h :: before) (k :: after) := by
  intro i l found
  cases i with
  | zero =>
    obtain rfl := Option.some.inj found
    exact ⟨k, rfl, becomes⟩
  | succ i => exact stay i l found

theorem append (heads more : List Head) : HeadsStay heads (heads ++ more) := by
  intro i h found
  obtain ⟨lt, _⟩ := List.getElem?_eq_some_iff.mp found
  exact ⟨h, (List.getElem?_append_left lt).trans found, .refl h⟩

theorem kept (stay : HeadsStay before after) : HeadsKept before after := by
  intro h member
  obtain ⟨i, found⟩ := List.mem_iff_getElem?.mp member
  obtain ⟨k, isK, symbol, gap, callback⟩ := stay i h found
  cases silent : h.callback.isSilent with
  | true => exact .inr ⟨rfl, k, List.mem_of_getElem? isK, symbol, gap⟩
  | false =>
    obtain rfl : k = h := by cases k; cases h; simp_all
    exact .inl (List.mem_of_getElem? isK)

end HeadsStay

/-- The head of a request once its symbol is known. -/
def Head.Request.head (r : Head.Request) (symbol : Symbol) : Head := ⟨symbol, r.callback, r.gap⟩

/-- A head stands for a request: same symbol and gap, and the same callback unless that is silent. -/
def Head.Request.MetBy (r : Head.Request) (symbol : Symbol) (h : Head) : Prop :=
  h.symbol = symbol ∧ h.gap = r.gap ∧ (r.callback.isSilent = false → h.callback = r.callback)

namespace Placement

variable {isOwn : Symbol → Bool} {isFilter : Callback → Bool} {request : Head.Request}

/-- The request may have the symbol of one of the heads. Neither the symbol nor the one asked for is
somebody's own, and no filter watches the request or the head. -/
structure Shareable (isOwn : Symbol → Bool) (isFilter : Callback → Bool) (request : Head.Request)
    (heads : List Head) (symbol : Symbol) : Prop where
  head : ∃ h ∈ heads, h.symbol = symbol ∧ h.gap = request.gap ∧ isFilter h.callback = false
  free : isOwn symbol = false
  heard : isFilter request.callback = false
  target : ∀ s, request.target = some s → symbol = s ∧ isOwn s = false

/-- What sharing a head does to the heads of a production. -/
structure Shares (isOwn : Symbol → Bool) (isFilter : Callback → Bool) (request : Head.Request)
    (before after : List Head) (symbol : Symbol) : Prop where
  met : ∃ h ∈ after, request.MetBy symbol h
  new : ∀ h ∈ after, h ∈ before ∨ h = request.head symbol
  stay : HeadsStay before after
  source : request.target = some symbol ∨ Shareable isOwn isFilter request before symbol

theorem Shareable.cons {head : Head} {heads : List Head} {symbol : Symbol}
    (h : Shareable isOwn isFilter request heads symbol) :
    Shareable isOwn isFilter request (head :: heads) symbol := by
  obtain ⟨k, isK, rest⟩ := h.head
  exact { h with head := ⟨k, List.mem_cons_of_mem _ isK, rest⟩ }

theorem Shares.cons {head : Head} {before after : List Head} {symbol : Symbol}
    (shares : Shares isOwn isFilter request before after symbol) :
    Shares isOwn isFilter request (head :: before) (head :: after) symbol := by
  obtain ⟨⟨h, member, met⟩, new, stay, source⟩ := shares
  refine ⟨⟨h, List.mem_cons_of_mem _ member, met⟩, fun k isK => ?_, .cons (.refl head) stay,
    source.imp_right Shareable.cons⟩
  rcases List.mem_cons.mp isK with rfl | isK
  · exact .inl List.mem_cons_self
  · exact (new k isK).imp_left (List.mem_cons_of_mem _)

/-- What a search can find. -/
def Finds (isOwn : Symbol → Bool) (isFilter : Callback → Bool) (request : Head.Request)
    (symbol : Option Symbol) (heads : List Head) : Placement → Prop
  | .shared after s => Shares isOwn isFilter request heads after s
  | .appended s => s = symbol ∨ ∃ t, s = some t ∧ Shareable isOwn isFilter request heads t

theorem Finds.skip {head : Head} {heads : List Head} {symbol : Option Symbol} {p : Placement}
    (finds : Finds isOwn isFilter request symbol heads p) :
    Finds isOwn isFilter request symbol (head :: heads) (p.skip head) := by
  cases p with
  | shared after s => exact Shares.cons finds
  | appended s =>
    rcases finds with same | ⟨t, eq, shareable⟩
    · exact .inl same
    · exact .inr ⟨t, eq, shareable.cons⟩

theorem find_finds (symbol : Option Symbol) (heads : List Head) :
    Finds isOwn isFilter request symbol heads (find isOwn isFilter request symbol heads) := by
  induction heads generalizing symbol with
  | nil => exact .inl rfl
  | cons head rest ih =>
    rw [find]
    split
    · next same =>
      simp only [Bool.and_eq_true, beq_iff_eq] at same
      obtain ⟨⟨target, callback⟩, gap⟩ := same
      exact ⟨⟨head, List.mem_cons_self, rfl, gap, fun _ => callback⟩, fun _ => .inl, .refl _,
        .inl target⟩
    · split
      · exact (ih symbol).skip
      · next fits =>
        simp only [Bool.or_eq_true, not_or, Bool.not_eq_true, bne_iff_ne, ne_eq,
          Decidable.not_not, Option.any_eq_false] at fits
        obtain ⟨⟨⟨⟨⟨own, targetOwn⟩, gap⟩, heard⟩, unwatched⟩, same⟩ := fits
        have shareable : Shareable isOwn isFilter request (head :: rest) head.symbol :=
          { head := ⟨head, List.mem_cons_self, rfl, gap, unwatched⟩
            free := own
            heard
            target := fun s target => ⟨Eq.symm (by simpa using same s target), targetOwn s target⟩ }
        split
        · next same =>
          simp only [Bool.or_eq_true, beq_iff_eq] at same
          refine ⟨⟨head, List.mem_cons_self, rfl, gap, fun loud => ?_⟩, fun _ => .inl, .refl _,
            .inr shareable⟩
          rcases same with same | silent
          · exact same.symm
          · simp [silent] at loud
        · split
          · next silent =>
            refine ⟨⟨{ head with callback := request.callback }, List.mem_cons_self, rfl, gap,
              fun _ => rfl⟩, fun k isK => ?_, .cons (.of_silent silent _) (.refl rest),
              .inr shareable⟩
            rcases List.mem_cons.mp isK with rfl | isK
            · exact .inr (by simp [Head.Request.head, gap])
            · exact .inl (List.mem_cons_of_mem _ isK)
          · have finds : Finds isOwn isFilter request _ (head :: rest) _ :=
              (ih (some head.symbol)).skip
            revert finds
            cases Placement.skip head (find isOwn isFilter request (some head.symbol) rest) with
            | shared after s => exact id
            | appended s =>
              rintro (rfl | found)
              · exact .inr ⟨_, rfl, shareable⟩
              · exact .inr found

end Placement

/-- Where the symbol of a request comes from: it is asked for, shared, or the next one. -/
def Numbering.Chooses (before : Numbering) (request : Head.Request) (heads : List Head)
    (after : Numbering) (symbol : Symbol) : Prop :=
  (after = before ∧ (request.target = some symbol ∨
    (request.target = none ∧ before.unshareable.contains symbol = false ∧
      ∃ h ∈ heads, h.symbol = symbol ∧ h.gap = request.gap))) ∨
  (request.target = none ∧ after = { before with last := before.last + 1 } ∧
    symbol = before.last + 1)

namespace NormalForm

/-- What placing a request among the heads of a production does. -/
structure Placed (n : NormalForm) (request : Head.Request) (before : List Head)
    (numbering : Numbering) (after : List Head) (symbol : Symbol) : Prop where
  met : ∃ h ∈ after, request.MetBy symbol h
  new : ∀ h ∈ after, h ∈ before ∨ h = request.head symbol
  stay : HeadsStay before after
  source : (numbering = n.numbering ∧ (request.target = some symbol ∨
      Placement.Shareable n.isUnshareable n.isFilter request before symbol)) ∨
    (request.target = none ∧ numbering = { n.numbering with last := n.numbering.last + 1 } ∧
      symbol = n.numbering.last + 1)

theorem place_placed (n : NormalForm) (request : Head.Request) (heads : List Head) :
    n.Placed request heads (n.place request heads).1 (n.place request heads).2.1
      (n.place request heads).2.2 := by
  have finds : Placement.Finds n.isUnshareable n.isFilter request request.target heads
      (Placement.find n.isUnshareable n.isFilter request request.target heads) :=
    Placement.find_finds request.target heads
  have append (symbol : Symbol) :
      (∃ h ∈ heads ++ [request.head symbol], request.MetBy symbol h) ∧
      (∀ h ∈ heads ++ [request.head symbol], h ∈ heads ∨ h = request.head symbol) := by
    refine ⟨⟨request.head symbol, by simp, rfl, rfl, fun _ => rfl⟩, fun h member => ?_⟩
    exact (List.mem_append.mp member).imp_right List.mem_singleton.mp
  rw [place]
  cases result : Placement.find n.isUnshareable n.isFilter request request.target heads with
  | shared after symbol =>
    rw [result] at finds
    exact ⟨finds.met, finds.new, finds.stay, .inl ⟨rfl, finds.source⟩⟩
  | appended symbol? =>
    rw [result] at finds
    have source : symbol? = request.target ∨
        ∃ t, symbol? = some t ∧ Placement.Shareable n.isUnshareable n.isFilter request heads t :=
      finds
    cases symbol? with
    | some symbol =>
      obtain ⟨met, new⟩ := append symbol
      refine ⟨met, new, .append heads _, .inl ⟨rfl, ?_⟩⟩
      rcases source with target | ⟨t, eq, shareable⟩
      · exact .inl target.symm
      · exact .inr (Option.some.inj eq ▸ shareable)
    | none =>
      obtain ⟨met, new⟩ := append (n.numbering.last + 1)
      refine ⟨met, new, .append heads _, .inr ⟨?_, rfl, rfl⟩⟩
      rcases source with target | ⟨t, eq, _⟩
      · exact target.symm
      · cases eq

/-- Placing a request. The symbol asked for, if any, must be one that is never shared. -/
theorem place_spec (n : NormalForm) (request : Head.Request) (heads : List Head)
    (own : ∀ s, request.target = some s → n.isUnshareable s = true) :
    (∃ h ∈ (n.place request heads).2.1, request.MetBy (n.place request heads).2.2 h) ∧
    (∀ h ∈ (n.place request heads).2.1,
      h ∈ heads ∨ h = request.head (n.place request heads).2.2) ∧
    HeadsKept heads (n.place request heads).2.1 ∧
    n.numbering.Chooses request heads (n.place request heads).1 (n.place request heads).2.2 := by
  obtain ⟨met, new, stay, source⟩ := n.place_placed request heads
  refine ⟨met, new, stay.kept, source.imp_left (And.imp_right (Or.imp_right fun shareable => ?_))⟩
  obtain ⟨h, member, eq, gap, _⟩ := shareable.head
  refine ⟨?_, shareable.free, h, member, eq, gap⟩
  cases target : request.target with
  | none => rfl
  | some s =>
    have shared : n.isUnshareable s = false := (shareable.target s target).2
    simp [own s target] at shared

end NormalForm

/-- Replaces the heads of one right-hand side. -/
def Tables.setHeads (t : Tables) (heads : List Head) : Body → Tables
  | .literal text true => { t with exact := t.exact.insert text heads }
  | .literal text false => { t with folded := t.folded.insert text heads }
  | .unary operand => { t with unary := t.unary.insert operand heads }
  | .binary left right => { t with binary := t.binary.insert (left, right) heads }

/-- The heads of a right-hand side, if the tables have it. -/
def Tables.find? (t : Tables) : Body → Option (List Head)
  | .literal text true => t.exact[text]?
  | .literal text false => t.folded[text]?
  | .unary operand => t.unary[operand]?
  | .binary left right => t.binary[(left, right)]?

theorem Tables.headsOf_eq (t : Tables) (b : Body) : t.headsOf b = (t.find? b).getD [] := by
  cases b with
  | literal text caseSensitive => cases caseSensitive <;> exact Std.TreeMap.getD_eq_getD_getElem?
  | unary operand => exact Std.TreeMap.getD_eq_getD_getElem?
  | binary left right => exact Std.TreeMap.getD_eq_getD_getElem?

theorem getElem?_insert_eq {cmp : κ → κ → Ordering} [Std.TransCmp cmp] [Std.LawfulEqCmp cmp]
    [DecidableEq κ] (t : Std.TreeMap κ β cmp) (k a : κ) (v : β) :
    (t.insert k v)[a]? = if a = k then some v else t[a]? := by
  rw [Std.TreeMap.getElem?_insert]
  simp only [Std.LawfulEqCmp.compare_eq_iff_eq, eq_comm (a := k)]

theorem Tables.find?_setHeads (t : Tables) (heads : List Head) (b c : Body) :
    (t.setHeads heads b).find? c = if c = b then some heads else t.find? c := by
  cases b with
  | literal text caseSensitive =>
    cases c with
    | literal other otherSensitive =>
      cases caseSensitive <;> cases otherSensitive <;>
        simp only [setHeads, find?, getElem?_insert_eq, Body.literal.injEq, and_true, and_false,
          reduceCtorEq, ↓reduceIte]
    | unary => cases caseSensitive <;> simp only [setHeads, find?, reduceCtorEq, ↓reduceIte]
    | binary => cases caseSensitive <;> simp only [setHeads, find?, reduceCtorEq, ↓reduceIte]
  | unary operand =>
    cases c with
    | literal other otherSensitive =>
      cases otherSensitive <;> simp only [setHeads, find?, reduceCtorEq, ↓reduceIte]
    | unary other => simp only [setHeads, find?, getElem?_insert_eq, Body.unary.injEq]
    | binary => simp only [setHeads, find?, reduceCtorEq, ↓reduceIte]
  | binary left right =>
    cases c with
    | literal other otherSensitive =>
      cases otherSensitive <;> simp only [setHeads, find?, reduceCtorEq, ↓reduceIte]
    | unary other => simp only [setHeads, find?, reduceCtorEq, ↓reduceIte]
    | binary l r =>
      simp only [setHeads, find?, getElem?_insert_eq, Prod.mk.injEq, Body.binary.injEq]

theorem Tables.headsOf_setHeads (t : Tables) (heads : List Head) (b c : Body) :
    (t.setHeads heads b).headsOf c = if c = b then heads else t.headsOf c := by
  rw [headsOf_eq, headsOf_eq, find?_setHeads]
  split <;> rfl

/-- The tables have an entry for a right-hand side. -/
def Tables.HasKey (t : Tables) : Body → Prop
  | .literal text true => text ∈ t.exact
  | .literal text false => text ∈ t.folded
  | .unary operand => operand ∈ t.unary
  | .binary left right => (left, right) ∈ t.binary

theorem Tables.hasKey_iff {t : Tables} {b : Body} : t.HasKey b ↔ (t.find? b).isSome = true := by
  cases b with
  | literal text caseSensitive =>
    cases caseSensitive <;> exact Std.TreeMap.mem_iff_isSome_getElem?
  | unary operand => exact Std.TreeMap.mem_iff_isSome_getElem?
  | binary left right => exact Std.TreeMap.mem_iff_isSome_getElem?

theorem Tables.hasKey_of_mem {t : Tables} {b : Body} {h : Head} (member : h ∈ t.headsOf b) :
    t.HasKey b := by
  rw [headsOf_eq] at member
  rw [hasKey_iff]
  cases found : t.find? b with
  | none =>
    rw [found] at member
    cases member
  | some heads => rfl

theorem Tables.hasKey_setHeads {t : Tables} {heads : List Head} {b c : Body}
    (isKey : (t.setHeads heads b).HasKey c) : t.HasKey c ∨ c = b := by
  rw [hasKey_iff, find?_setHeads] at isKey
  split at isKey
  · next here => exact .inr here
  · exact .inl (hasKey_iff.mpr isKey)

namespace NormalForm

/-- Places a request among the heads of one right-hand side. -/
def addTo (n : NormalForm) (request : Head.Request) (b : Body) (shard : Nat) :
    NormalForm × Symbol :=
  n.update request shard (·.headsOf b) fun t heads => t.setHeads heads b

/-- The right-hand side of a literal, in lower case if case does not matter. -/
def literalBody (text : String) (caseSensitive : Bool) : Body :=
  .literal (if caseSensitive then text else Lowercase.text text) caseSensitive

theorem addLiteral_eq (n : NormalForm) (request : Head.Request) (text : String)
    (caseSensitive : Bool) (shard : Nat) :
    n.addLiteral request text caseSensitive shard =
      n.addTo request (literalBody text caseSensitive) shard := by
  cases caseSensitive with
  | true => rfl
  | false => rfl

theorem addBinary_eq (n : NormalForm) (request : Head.Request) (left right : Symbol)
    (shard : Nat) : n.addBinary request left right shard = n.addTo request (.binary left right) shard :=
  rfl

theorem addUnary_eq (n : NormalForm) (request : Head.Request) (operand : Symbol) (shard : Nat) :
    n.addUnary request operand shard =
      if request.target.isNone && request.callback.isSilent then (n, operand)
      else n.addTo request (.unary operand) shard :=
  rfl

/-- What productions do not touch. -/
structure Frame where
  locales : List (List Locale)
  filters : Std.TreeSet UInt32
  structural : Structural.Symbols
  labels : Std.TreeMap String Symbol

def frame (n : NormalForm) : Frame where
  locales := n.shards.toList.map (·.locales)
  filters := n.filters
  structural := n.structural
  labels := n.labels

/-- Some shard has an entry for the right-hand side. -/
def Keyed (n : NormalForm) (b : Body) : Prop :=
  ∃ (i : Nat) (shard : Shard), n.shards[i]? = some shard ∧ shard.tables.HasKey b

theorem Has.keyed {n : NormalForm} {b : Body} {h : Head} (has : n.Has b h) : n.Keyed b := by
  obtain ⟨i, shard, found, member⟩ := has
  exact ⟨i, shard, found, Tables.hasKey_of_mem member⟩

/-- How one production more changes a normal form. -/
structure Adds (n : NormalForm) (request : Head.Request) (b : Body) (after : NormalForm)
    (symbol : Symbol) : Prop where
  met : ∃ h, after.Has b h ∧ request.MetBy symbol h
  new : ∀ c h, after.Has c h → n.Has c h ∨ (c = b ∧ h = request.head symbol)
  kept : ∀ c h, n.Has c h → after.Has c h ∨
    (h.callback.isSilent = true ∧ ∃ k, after.Has c k ∧ k.symbol = h.symbol ∧ k.gap = h.gap)
  chooses : (after.numbering = n.numbering ∧ (request.target = some symbol ∨
      (request.target = none ∧ n.isUnshareable symbol = false ∧
        ∃ h, n.Has b h ∧ h.symbol = symbol ∧ h.gap = request.gap))) ∨
    (request.target = none ∧ after.numbering = { n.numbering with last := n.numbering.last + 1 } ∧
      symbol = n.numbering.last + 1)
  frame : after.frame = n.frame
  keys : ∀ c, after.Keyed c → n.Keyed c ∨ c = b

/-- The heads of another right-hand side or another shard stay as they are. -/
theorem has_modify {n : NormalForm} {numbering : Numbering} {shard : Nat} {heads : List Head}
    {b : Body} (inRange : shard < n.shards.size) (c : Body) (h : Head) :
    NormalForm.Has { n with
        numbering
        shards := n.shards.modify shard fun s => { s with tables := s.tables.setHeads heads b } } c h ↔
      (c = b ∧ h ∈ heads) ∨ ∃ (i : Nat) (s : Shard), n.shards[i]? = some s ∧
        h ∈ s.tables.headsOf c ∧ (i = shard → c ≠ b) := by
  constructor
  · rintro ⟨i, s, found, member⟩
    rw [Array.getElem?_modify] at found
    by_cases here : shard = i
    · rw [if_pos here, Option.map_eq_some_iff] at found
      obtain ⟨old, found, rfl⟩ := found
      rw [Tables.headsOf_setHeads] at member
      by_cases same : c = b
      · exact .inl ⟨same, by simpa [same] using member⟩
      · exact .inr ⟨i, old, found, by simpa [same] using member, fun _ => same⟩
    · rw [if_neg here] at found
      exact .inr ⟨i, s, found, member, fun eq => absurd eq.symm here⟩
  · rintro (⟨rfl, member⟩ | ⟨i, s, found, member, apart⟩)
    · refine ⟨shard, { n.shards[shard] with tables := n.shards[shard].tables.setHeads heads c }, ?_, ?_⟩
      · simp [Array.getElem?_modify, Array.getElem?_eq_getElem inRange]
      · simpa [Tables.headsOf_setHeads] using member
    · by_cases here : shard = i
      · refine ⟨i, { s with tables := s.tables.setHeads heads b }, ?_, ?_⟩
        · simp [Array.getElem?_modify, here, found]
        · simpa [Tables.headsOf_setHeads, apart here.symm] using member
      · exact ⟨i, s, by simp [Array.getElem?_modify, here, found], member⟩

theorem frame_modify {n : NormalForm} {numbering : Numbering} {shard : Nat} {tables : Shard → Tables} :
    NormalForm.frame { n with
        numbering
        shards := n.shards.modify shard fun s => { s with tables := tables s } } = n.frame := by
  simp only [frame, Frame.mk.injEq, and_true]
  apply List.ext_getElem?
  intro i
  simp only [List.getElem?_map, Array.getElem?_toList, Array.getElem?_modify]
  split
  · cases n.shards[i]? with
    | none => rfl
    | some s => rfl
  · rfl

theorem keyed_modify {n : NormalForm} {numbering : Numbering} {shard : Nat} {heads : List Head}
    {b c : Body} (isKeyed : NormalForm.Keyed { n with
      numbering
      shards := n.shards.modify shard fun s => { s with tables := s.tables.setHeads heads b } } c) :
    n.Keyed c ∨ c = b := by
  obtain ⟨i, s, found, isKey⟩ := isKeyed
  rw [Array.getElem?_modify] at found
  split at found
  · obtain ⟨before, isFound, rfl⟩ := Option.map_eq_some_iff.mp found
    exact (Tables.hasKey_setHeads isKey).imp_left fun isKey => ⟨i, before, isFound, isKey⟩
  · exact .inl ⟨i, s, found, isKey⟩

theorem addTo_adds {n : NormalForm} {request : Head.Request} {b : Body} {shard : Nat}
    (inRange : shard < n.shards.size)
    (own : ∀ s, request.target = some s → n.isUnshareable s = true) :
    n.Adds request b (n.addTo request b shard).1 (n.addTo request b shard).2 := by
  have found : n.shards[shard]? = some n.shards[shard] := Array.getElem?_eq_getElem inRange
  have isHead {h : Head} (member : h ∈ n.shards[shard].tables.headsOf b) : n.Has b h :=
    ⟨shard, _, found, member⟩
  obtain ⟨met, new, kept, chooses⟩ :=
    n.place_spec request (n.shards[shard].tables.headsOf b) own
  simp only [addTo, update, found, Option.map_some, Option.getD_some]
  generalize n.place request (n.shards[shard].tables.headsOf b) = placed at met new kept chooses
  obtain ⟨numbering, heads, symbol⟩ := placed
  dsimp only at met new kept chooses ⊢
  refine
    { met := ?met
      new := fun c h has => ?new
      kept := fun c h has => ?kept
      chooses := ?chooses
      frame := frame_modify
      keys := fun c => keyed_modify }
  case met =>
    obtain ⟨h, member, isMet⟩ := met
    exact ⟨h, (has_modify inRange b h).mpr (.inl ⟨rfl, member⟩), isMet⟩
  case new =>
    rcases (has_modify inRange c h).mp has with ⟨rfl, member⟩ | ⟨i, s, found, member, _⟩
    · exact (new h member).imp isHead fun eq => ⟨rfl, eq⟩
    · exact .inl ⟨i, s, found, member⟩
  case kept =>
    obtain ⟨i, s, foundi, member⟩ := has
    by_cases here : i = shard ∧ c = b
    · obtain ⟨rfl, rfl⟩ := here
      obtain rfl := Option.some.inj (found.symm.trans foundi)
      rcases kept h member with stays | ⟨silent, k, isK, same⟩
      · exact .inl ((has_modify inRange c h).mpr (.inl ⟨rfl, stays⟩))
      · exact .inr ⟨silent, k, (has_modify inRange c k).mpr (.inl ⟨rfl, isK⟩), same⟩
    · refine .inl ((has_modify inRange c h).mpr (.inr ⟨i, s, foundi, member, fun eq => ?_⟩))
      exact fun same => here ⟨eq, same⟩
  case chooses =>
    rcases chooses with ⟨same, target | ⟨target, free, h, member, eq⟩⟩ | fresh
    · exact .inl ⟨same, .inl target⟩
    · exact .inl ⟨same, .inr ⟨target, free, h, isHead member, eq⟩⟩
    · exact .inr fresh

/-- Two or more parts are given symbols first, and these are joined. -/
theorem addRule_eq_addChain {n : NormalForm} {request : Head.Request} {shard : Nat}
    {first second : Part} {rest : List Part} {symbol : Symbol} {symbols : List Symbol}
    (prepared : (n.addParts shard (first :: second :: rest)).2 = symbol :: symbols) :
    n.addRule request (first :: second :: rest) shard =
      (((n.addParts shard (first :: second :: rest)).1.addChain request shard symbol symbols).1,
        some ((n.addParts shard (first :: second :: rest)).1.addChain request shard symbol
          symbols).2) := by
  cases first with
  | literal text caseSensitive =>
    simp only [addRule]
    generalize n.addParts shard (.literal text caseSensitive :: second :: rest) = result at prepared ⊢
    obtain ⟨m, given⟩ := result
    subst prepared
    rfl
  | symbol s =>
    simp only [addRule]
    generalize n.addParts shard (.symbol s :: second :: rest) = result at prepared ⊢
    obtain ⟨m, given⟩ := result
    subst prepared
    rfl

/-- Joins all symbols but the last and returns the right-hand side that is left. -/
def joinInit (n : NormalForm) (gap : Int8) (shard : Nat) (prev : Symbol) :
    List Symbol → NormalForm × Body
  | [] => (n, .unary prev)
  | [last] => (n, .binary prev last)
  | next :: rest =>
    let (n, joined) := n.addTo { gap } (.binary prev next) shard
    n.joinInit gap shard joined rest

/-- The last production of a rule: its right-hand side and the normal form it is added to. -/
def lastProduction (n : NormalForm) (gap : Int8) (shard : Nat) : Part → List Part → NormalForm × Body
  | .literal text caseSensitive, [] => (n, literalBody text caseSensitive)
  | first, rest =>
    let (n, symbol) := n.addPart first shard
    let (n, symbols) := n.addParts shard rest
    n.joinInit gap shard symbol symbols

theorem addChain_eq_joinInit (n : NormalForm) (request : Head.Request) (shard : Nat)
    (prev next : Symbol) (rest : List Symbol) :
    n.addChain request shard prev (next :: rest) =
      (n.joinInit request.gap shard prev (next :: rest)).1.addTo request
        (n.joinInit request.gap shard prev (next :: rest)).2 shard := by
  induction rest generalizing n prev next with
  | nil => rfl
  | cons last rest ih => exact ih ..

/-- The symbol that meets a request by itself. -/
def relabeled? (request : Head.Request) : Part → List Part → Option Symbol
  | .symbol operand, [] =>
    if request.target.isNone && request.callback.isSilent then some operand else none
  | _, _ => none

/-- A rule that no symbol meets by itself ends in its last production. -/
theorem addRule_eq_lastProduction {n : NormalForm} {shard : Nat} {request : Head.Request}
    {first : Part} {rest : List Part}
    (other : relabeled? request first rest = none) :
    n.addRule request (first :: rest) shard =
      (((n.lastProduction request.gap shard first rest).1.addTo request
          (n.lastProduction request.gap shard first rest).2 shard).1,
        some ((n.lastProduction request.gap shard first rest).1.addTo request
          (n.lastProduction request.gap shard first rest).2 shard).2) := by
  rcases rest with _ | ⟨second, rest⟩
  · cases first with
    | literal text caseSensitive =>
      simp only [addRule, addLiteral_eq]
      rfl
    | symbol operand =>
      simp only [relabeled?, ite_eq_right_iff, reduceCtorEq, imp_false] at other
      simp only [addRule, addUnary_eq, if_neg other]
      rfl
  · obtain ⟨next, symbols, isSpelled⟩ : ∃ next symbols,
        ((n.addPart first shard).1.addParts shard (second :: rest)).2 = next :: symbols :=
      ⟨_, _, rfl⟩
    have prepared : (n.addParts shard (first :: second :: rest)).2 =
        (n.addPart first shard).2 :: next :: symbols := congrArg _ isSpelled
    have last : n.lastProduction request.gap shard first (second :: rest) =
        (n.addParts shard (first :: second :: rest)).1.joinInit request.gap shard
          (n.addPart first shard).2 (next :: symbols) := by
      rw [← isSpelled]
      cases first with
      | literal => rfl
      | symbol => rfl
    rw [addRule_eq_addChain prepared, addChain_eq_joinInit, last]

end NormalForm

end Phrasebook
