import Phrasebook.Proofs.Grammar.Sharing

namespace Phrasebook

/-- New symbols for a normal form, and new callbacks for those that name a symbol. -/
structure Renaming where
  symbol : Symbol → Symbol
  callback : Callback → Callback
  symbol_injective : Function.Injective symbol
  callback_injective : Function.Injective callback
  callback_id : ∀ c, (callback c).id = c.id
  callback_default : callback {} = {}

namespace Renaming

variable (r : Renaming)

theorem isSilent_callback (c : Callback) : (r.callback c).isSilent = c.isSilent := by
  rw [Callback.isSilent, Callback.isSilent, r.callback_id]

theorem callback_beq (c d : Callback) : (r.callback c == r.callback d) = (c == d) := by
  rw [Bool.eq_iff_iff, beq_iff_eq, beq_iff_eq, r.callback_injective.eq_iff]

theorem target_beq (target : Option Symbol) (s : Symbol) :
    (target.map r.symbol == some (r.symbol s)) = (target == some s) := by
  rw [Bool.eq_iff_iff, beq_iff_eq, beq_iff_eq]
  exact (Option.map_injective r.symbol_injective).eq_iff (b := some s)

/-- New symbols only. -/
def ofSymbol {f : Symbol → Symbol} (injective : Function.Injective f) : Renaming where
  symbol := f
  callback := id
  symbol_injective := injective
  callback_injective := Function.injective_id
  callback_id _ := rfl
  callback_default := rfl

end Renaming

def Head.rename (r : Renaming) (h : Head) : Head :=
  ⟨r.symbol h.symbol, r.callback h.callback, h.gap⟩

def Head.Request.rename (r : Renaming) (request : Head.Request) : Head.Request :=
  ⟨request.target.map r.symbol, r.callback request.callback, request.gap⟩

/-- A request that asks for a gap only has nothing to rename. -/
theorem Head.Request.rename_gap (r : Renaming) (gap : Int8) :
    Head.Request.rename r { gap } = { gap } := by
  rw [Head.Request.rename, r.callback_default]
  rfl

def Body.rename (r : Renaming) : Body → Body
  | .literal text caseSensitive => .literal text caseSensitive
  | .unary operand => .unary (r.symbol operand)
  | .binary left right => .binary (r.symbol left) (r.symbol right)

theorem Body.rename_injective (r : Renaming) : Function.Injective (Body.rename r) := by
  intro b c same
  cases b with
  | literal => cases c <;> simp_all [rename]
  | unary =>
    cases c with
    | unary => exact congrArg _ (r.symbol_injective (Body.unary.inj same))
    | _ => cases same
  | binary =>
    cases c with
    | binary =>
      obtain ⟨left, right⟩ := Body.binary.inj same
      rw [r.symbol_injective left, r.symbol_injective right]
    | _ => cases same

namespace Placement

def rename (r : Renaming) : Placement → Placement
  | .shared heads symbol => .shared (heads.map (Head.rename r)) (r.symbol symbol)
  | .appended symbol => .appended (symbol.map r.symbol)

theorem skip_rename (r : Renaming) (head : Head) (p : Placement) :
    skip (head.rename r) (p.rename r) = (skip head p).rename r := by
  cases p <;> rfl

/-- A search compares symbols and callbacks and has no other use for them. -/
theorem find_rename (r : Renaming) {isOwn isOwn' : Symbol → Bool} {isFilter isFilter' : Callback → Bool}
    (own : ∀ s, isOwn' (r.symbol s) = isOwn s) (watched : ∀ c, isFilter' (r.callback c) = isFilter c)
    (request : Head.Request) (symbol : Option Symbol) (heads : List Head) :
    find isOwn' isFilter' (request.rename r) (symbol.map r.symbol) (heads.map (Head.rename r)) =
      (find isOwn isFilter request symbol heads).rename r := by
  have targetOwn : (request.target.map r.symbol).any isOwn' = request.target.any isOwn := by
    cases request.target with
    | none => rfl
    | some s => exact own s
  have differs (s : Symbol) : (request.target.map r.symbol).any (· != r.symbol s) =
      request.target.any (· != s) := by
    cases request.target with
    | none => rfl
    | some t =>
      refine congrArg Bool.not ?_
      exact decide_eq_decide.mpr r.symbol_injective.eq_iff
  induction heads generalizing symbol with
  | nil => rfl
  | cons head rest ih =>
    simp only [List.map_cons, find, Head.rename, Head.Request.rename, r.target_beq, r.callback_beq,
      own, watched, targetOwn, differs, r.isSilent_callback]
    split
    · rfl
    · split
      · exact (congrArg _ (ih symbol)).trans (skip_rename r head _)
      · split
        · rfl
        · split
          · rfl
          · exact (congrArg _ (ih (some head.symbol))).trans (skip_rename r head _)

end Placement

/-- The tables `u` are `t` with other symbols: the same entries under the new right-hand sides, and
no others. -/
structure Tables.Renamed (r : Renaming) (t u : Tables) : Prop where
  entries : ∀ b : Body, u.find? (b.rename r) = (t.find? b).map (·.map (Head.rename r))
  only : ∀ c, (u.find? c).isSome = true → ∃ b : Body, c = b.rename r

namespace Tables.Renamed

variable {r : Renaming} {t u : Tables}

theorem headsOf (renamed : t.Renamed r u) (b : Body) :
    u.headsOf (b.rename r) = (t.headsOf b).map (Head.rename r) := by
  rw [headsOf_eq, headsOf_eq, renamed.entries]
  cases t.find? b <;> rfl

theorem empty (r : Renaming) : ({} : Tables).Renamed r {} := by
  have nothing (b : Body) : ({} : Tables).find? b = none := by
    cases b with
    | literal text caseSensitive => cases caseSensitive <;> simp [find?]
    | unary => simp [find?]
    | binary => simp [find?]
  refine ⟨fun b => ?_, fun c isKey => ?_⟩
  · rw [nothing, nothing]
    rfl
  · rw [nothing] at isKey
    cases isKey

theorem setHeads (renamed : t.Renamed r u) (heads : List Head) (b : Body) :
    (t.setHeads heads b).Renamed r (u.setHeads (heads.map (Head.rename r)) (b.rename r)) := by
  refine ⟨fun c => ?_, fun c isKey => ?_⟩
  · rw [find?_setHeads, find?_setHeads, renamed.entries]
    by_cases same : c = b
    · rw [if_pos same, if_pos (congrArg _ same)]
      rfl
    · rw [if_neg same, if_neg fun eq => same (Body.rename_injective r eq)]
  · rw [find?_setHeads] at isKey
    split at isKey
    · next same => exact ⟨b, same⟩
    · exact renamed.only c isKey

end Tables.Renamed

structure Shard.Renamed (r : Renaming) (s t : Shard) : Prop where
  locales : t.locales = s.locales
  tables : s.tables.Renamed r t.tables

namespace NormalForm

def Part.rename (r : Renaming) : Part → Part
  | .literal text caseSensitive => .literal text caseSensitive
  | .symbol s => .symbol (r.symbol s)

/-- `m` is `n` with other symbols. It may have more of them, and more structural ones. -/
structure Renamed (r : Renaming) (n m : NormalForm) : Prop where
  filters : m.filters = n.filters
  size : m.shards.size = n.shards.size
  shards : ∀ (i : Nat) s t, n.shards[i]? = some s → m.shards[i]? = some t → s.Renamed r t
  unshareable : ∀ s, m.isUnshareable (r.symbol s) = n.isUnshareable s
  labels : ∀ tag : String, m.labels[tag]? = (n.labels[tag]?).map r.symbol
  structural : ∀ kind, n.structural.get kind ≠ 0 →
    m.structural.get kind = r.symbol (n.structural.get kind)

theorem Renamed.headsIn {r : Renaming} {n m : NormalForm} (renamed : n.Renamed r m) (shard : Nat)
    (b : Body) : m.headsIn shard (b.rename r) = (n.headsIn shard b).map (Head.rename r) := by
  have same : shard < m.shards.size ↔ shard < n.shards.size := by rw [renamed.size]
  rw [NormalForm.headsIn, NormalForm.headsIn]
  by_cases inRange : shard < n.shards.size
  · have isOld := Array.getElem?_eq_getElem inRange
    have isNew := Array.getElem?_eq_getElem (same.mpr inRange)
    rw [isOld, isNew]
    exact (renamed.shards shard _ _ isOld isNew).tables.headsOf b
  · rw [Array.getElem?_eq_none (Nat.le_of_not_lt inRange),
      Array.getElem?_eq_none (Nat.le_of_not_lt (mt same.mp inRange))]
    rfl

/-- The symbols still to come will have their new names in order. -/
structure Tracks (r : Renaming) (n m : NormalForm) : Prop extends n.Renamed r m where
  next : ∀ k, r.symbol (n.numbering.last + 1 + k) = m.numbering.last + 1 + k

namespace Tracks

variable {r : Renaming} {n m : NormalForm}

theorem isFilter (tracks : n.Tracks r m) (c : Callback) : m.isFilter (r.callback c) = n.isFilter c := by
  rw [NormalForm.isFilter, NormalForm.isFilter, r.isSilent_callback, r.callback_id, tracks.filters]

theorem place (tracks : n.Tracks r m) (request : Head.Request) (heads : List Head) :
    (m.place (request.rename r) (heads.map (Head.rename r))).2 =
        ((n.place request heads).2.1.map (Head.rename r), r.symbol (n.place request heads).2.2) ∧
      (∀ s, (m.place (request.rename r) (heads.map (Head.rename r))).1.unshareable.contains
        (r.symbol s) = (n.place request heads).1.unshareable.contains s) ∧
      ∀ k, r.symbol ((n.place request heads).1.last + 1 + k) =
        (m.place (request.rename r) (heads.map (Head.rename r))).1.last + 1 + k := by
  have found := Placement.find_rename r tracks.unshareable tracks.isFilter request request.target heads
  have target : (request.rename r).target = request.target.map r.symbol := rfl
  have next (k : Nat) : r.symbol (n.numbering.last + 1 + 1 + k) = m.numbering.last + 1 + 1 + k := by
    have later := tracks.next (1 + k)
    simpa only [Nat.add_assoc] using later
  rw [NormalForm.place, NormalForm.place, target, found]
  cases Placement.find n.isUnshareable n.isFilter request request.target heads with
  | shared after symbol => exact ⟨rfl, tracks.unshareable, tracks.next⟩
  | appended symbol? =>
    cases symbol? with
    | some symbol =>
      refine ⟨?_, tracks.unshareable, tracks.next⟩
      simp only [List.map_append]
      rfl
    | none =>
      refine ⟨?_, tracks.unshareable, next⟩
      have fresh : r.symbol (n.numbering.last + 1) = m.numbering.last + 1 := tracks.next 0
      simp only [Placement.rename, Option.map_none, Numbering.fresh, List.map_append, List.map_singleton,
        Head.rename, fresh]
      rfl

theorem addTo (tracks : n.Tracks r m) (request : Head.Request) (b : Body) (shard : Nat) :
    (n.addTo request b shard).1.Tracks r (m.addTo (request.rename r) (b.rename r) shard).1 ∧
      (m.addTo (request.rename r) (b.rename r) shard).2 = r.symbol (n.addTo request b shard).2 := by
  have heads := tracks.headsIn shard b
  simp only [NormalForm.headsIn] at heads
  simp only [NormalForm.addTo, update]
  generalize ((n.shards[shard]?).map (·.tables.headsOf b)).getD [] = before at heads
  rw [heads]
  obtain ⟨placed, unshareable, next⟩ := tracks.place request before
  refine ⟨⟨⟨tracks.filters, by simp [tracks.size], fun i s t isOld isNew => ?_, unshareable,
    tracks.labels, tracks.structural⟩, next⟩, congrArg Prod.snd placed⟩
  rw [Array.getElem?_modify] at isOld isNew
  split at isOld
  · next here =>
    rw [if_pos here] at isNew
    obtain ⟨s, found, rfl⟩ := Option.map_eq_some_iff.mp isOld
    obtain ⟨t, found', rfl⟩ := Option.map_eq_some_iff.mp isNew
    have renamed := tracks.shards i s t found found'
    exact ⟨renamed.locales, congrArg Prod.fst placed ▸ renamed.tables.setHeads _ b⟩
  · next other =>
    rw [if_neg other] at isNew
    exact tracks.shards i s t isOld isNew

theorem addPart (tracks : n.Tracks r m) (part : Part) (shard : Nat) :
    (n.addPart part shard).1.Tracks r (m.addPart (part.rename r) shard).1 ∧
      (m.addPart (part.rename r) shard).2 = r.symbol (n.addPart part shard).2 := by
  cases part with
  | literal text caseSensitive =>
    have added := tracks.addTo {} (literalBody text caseSensitive) shard
    rw [Head.Request.rename_gap] at added
    simp only [NormalForm.addPart, Part.rename, addLiteral_eq]
    exact added
  | symbol s => exact ⟨tracks, rfl⟩

theorem addParts (tracks : n.Tracks r m) (shard : Nat) (parts : List Part) :
    (n.addParts shard parts).1.Tracks r (m.addParts shard (parts.map (Part.rename r))).1 ∧
      (m.addParts shard (parts.map (Part.rename r))).2 =
        (n.addParts shard parts).2.map r.symbol := by
  induction parts generalizing n m with
  | nil => exact ⟨tracks, rfl⟩
  | cons part rest ih =>
    obtain ⟨tracks', first⟩ := tracks.addPart part shard
    obtain ⟨tracks'', others⟩ := ih tracks'
    exact ⟨tracks'', congr (congrArg List.cons first) others⟩

theorem addChain (tracks : n.Tracks r m) (request : Head.Request) (shard : Nat) (prev : Symbol)
    (symbols : List Symbol) :
    (n.addChain request shard prev symbols).1.Tracks r
        (m.addChain (request.rename r) shard (r.symbol prev) (symbols.map r.symbol)).1 ∧
      (m.addChain (request.rename r) shard (r.symbol prev) (symbols.map r.symbol)).2 =
        r.symbol (n.addChain request shard prev symbols).2 := by
  induction symbols generalizing n m prev with
  | nil => exact ⟨tracks, rfl⟩
  | cons next rest ih =>
    cases rest with
    | nil => exact tracks.addTo request (.binary prev next) shard
    | cons last rest =>
      obtain ⟨tracks', joined⟩ := tracks.addTo { gap := request.gap } (.binary prev next) shard
      rw [Head.Request.rename_gap] at tracks' joined
      have chained := ih tracks' (n.addTo { gap := request.gap } (.binary prev next) shard).2
      rw [← joined] at chained
      exact chained

/-- Adding a rule to both of them, with the symbols that each has for it. -/
theorem addRule (tracks : n.Tracks r m) (request : Head.Request) (parts : List Part) (shard : Nat) :
    (n.addRule request parts shard).1.Tracks r
        (m.addRule (request.rename r) (parts.map (Part.rename r)) shard).1 ∧
      (m.addRule (request.rename r) (parts.map (Part.rename r)) shard).2 =
        (n.addRule request parts shard).2.map r.symbol := by
  match parts with
  | [] => exact ⟨tracks, rfl⟩
  | [.literal text caseSensitive] =>
    obtain ⟨tracks', symbol⟩ := tracks.addTo request (literalBody text caseSensitive) shard
    simp only [NormalForm.addRule, List.map_singleton, Part.rename, addLiteral_eq]
    exact ⟨tracks', congrArg some symbol⟩
  | [.symbol operand] =>
    have silent : ((request.rename r).target.isNone && (request.rename r).callback.isSilent) =
        (request.target.isNone && request.callback.isSilent) := by
      simp only [Head.Request.rename, Option.isNone_map, r.isSilent_callback]
    simp only [NormalForm.addRule, List.map_singleton, Part.rename, addUnary_eq, silent]
    split
    · exact ⟨tracks, rfl⟩
    · obtain ⟨tracks', symbol⟩ := tracks.addTo request (.unary operand) shard
      exact ⟨tracks', congrArg some symbol⟩
  | first :: second :: rest =>
    obtain ⟨tracks', symbols⟩ := tracks.addParts shard (first :: second :: rest)
    obtain ⟨s, others, prepared⟩ : ∃ s others,
        (n.addParts shard (first :: second :: rest)).2 = s :: others := ⟨_, _, rfl⟩
    rw [prepared] at symbols
    obtain ⟨tracks'', symbol⟩ := tracks'.addChain request shard s others
    simp only [List.map_cons] at symbols tracks'' symbol ⊢
    rw [addRule_eq_addChain prepared, addRule_eq_addChain symbols]
    exact ⟨tracks'', congrArg some symbol⟩

theorem bind (tracks : n.Tracks r m) (name other : String) (s t : Symbol) :
    (n.bind name s).Tracks r (m.bind other t) := by
  obtain ⟨last, unshareable⟩ := bind_numbering n name s
  obtain ⟨last', unshareable'⟩ := bind_numbering m other t
  refine { tracks with unshareable := fun u => ?_, next := fun k => ?_ }
  · refine Eq.trans ?_ ((tracks.unshareable u).trans ?_)
    · exact congrArg (Std.TreeSet.contains · (r.symbol u)) unshareable'
    · exact congrArg (Std.TreeSet.contains · u) unshareable.symm
  · refine (congrArg (fun top => r.symbol (top + 1 + k)) last).trans ((tracks.next k).trans ?_)
    exact congrArg (· + 1 + k) last'.symm

/-- A new symbol for both of them. -/
theorem addUnshareable (tracks : n.Tracks r m) (name : String) :
    (n.addUnshareable name).1.Tracks r (m.addUnshareable name).1 ∧
      (m.addUnshareable name).2 = r.symbol (n.addUnshareable name).2 := by
  have fresh : r.symbol (n.numbering.last + 1) = m.numbering.last + 1 := tracks.next 0
  refine ⟨{ tracks with unshareable := fun s => ?_, next := fun k => ?_ }, fresh.symm⟩
  · rw [Bool.eq_iff_iff, addUnshareable_isUnshareable, addUnshareable_isUnshareable, ← fresh,
      r.symbol_injective.eq_iff, tracks.unshareable]
  · rw [addUnshareable_last, addUnshareable_last]
    have later := tracks.next (1 + k)
    simpa only [Nat.add_assoc] using later

end Tracks

end NormalForm

/-- Symbols up to `m` stay, and those after it make room for `k` more. -/
def shift (m k s : Nat) : Nat := if s ≤ m then s else s + k

theorem shift_strictMono (m k : Nat) : StrictMono (shift m k) := by
  intro s t lt
  unfold shift
  split <;> split <;> omega

theorem le_shift (m k s : Nat) : s ≤ shift m k s := by
  unfold shift
  split <;> omega

/-- There is room for `k` more symbols after the first `m`. -/
theorem room_of_shift {m k low top : Nat} (next : ∀ i, shift m k (low + 1 + i) = top + 1 + i) :
    k = 0 ∨ m + k ≤ top := by
  have first := next 0
  have later := next m
  unfold shift at first later
  split at first <;> split at later <;> omega

/-- Moves the numbers between `m` and `top` on by `k`. Those that would come to stand above `top` take
the places that have become free, and one that stands in such a place stays there. -/
def rotate (m k top v : Nat) : Nat :=
  if v ≤ m then v
  else if v + k ≤ top then v + k
  else if v ≤ top then m + 1 + (v - (m + 1)) % k
  else v

section
variable {m k top v : Nat}

theorem rotate_injective (room : k = 0 ∨ m + k ≤ top) : Function.Injective (rotate m k top) := by
  intro v w same
  have free (v : Nat) (positive : 0 < k) : (v - (m + 1)) % k < k := Nat.mod_lt _ positive
  have turned (_ : ¬v ≤ m) (_ : ¬v + k ≤ top) (_ : v ≤ top) (_ : ¬w ≤ m) (_ : ¬w + k ≤ top)
      (_ : w ≤ top) (places : (v - (m + 1)) % k = (w - (m + 1)) % k) : v = w := by
    have near : |((w - (m + 1) : Nat) : Int) - ((v - (m + 1) : Nat) : Int)| < k := by
      rw [abs_lt]
      omega
    have equal : v - (m + 1) = w - (m + 1) := Nat.ModEq.eq_of_abs_lt places near
    omega
  have low := free v
  have high := free w
  unfold rotate at same
  split_ifs at same <;> omega

theorem rotate_le (room : k = 0 ∨ m + k ≤ top) : rotate m k top v ≤ max v top := by
  have free (positive : 0 < k) : (v - (m + 1)) % k < k := Nat.mod_lt _ positive
  unfold rotate
  split_ifs <;> omega

theorem rotate_eq_shift (bound : shift m k v ≤ top) :
    rotate m k top v = shift m k v := by
  unfold shift at bound ⊢
  unfold rotate
  split_ifs at bound ⊢ <;> omega

/-- A number stays if it is not one that moves, nor one that another moves to. -/
theorem rotate_eq_self
    (still : ∀ s, shift m k s ≤ top → v = s ∨ v = shift m k s → shift m k s = s) :
    rotate m k top v = v := by
  unfold rotate
  split_ifs with below within inside
  · rfl
  · have moved : shift m k v = v + k := if_neg below
    exact moved.symm.trans (still v (moved ▸ within) (.inl rfl))
  · have free : v - (m + 1) < k := by
      by_contra reached
      have target : shift m k (v - k) = v := by
        rw [shift, if_neg (by omega)]
        omega
      have here := still (v - k) (target.symm ▸ inside) (.inr target.symm)
      omega
    rw [Nat.mod_eq_of_lt free]
    omega
  · rfl

end

/-- The callback of an excluded symbol when symbols make room. -/
def Callback.rotate (m k top : Nat) (c : Callback) : Callback :=
  if c.id = Builtin.exclusion.id then ⟨c.id, UInt64.ofNat (Phrasebook.rotate m k top c.param.toNat)⟩
  else c

namespace Callback

variable {m k top : Nat}

theorem rotate_id (c : Callback) : (c.rotate m k top).id = c.id := by
  unfold rotate
  split
  · rfl
  · rfl

theorem rotate_of_ne {c : Callback} (other : c.id ≠ Builtin.exclusion.id) :
    c.rotate m k top = c :=
  if_neg other

theorem rotate_exclusion (param : UInt64) :
    rotate m k top ⟨Builtin.exclusion.id, param⟩ =
      ⟨Builtin.exclusion.id, UInt64.ofNat (Phrasebook.rotate m k top param.toNat)⟩ :=
  if_pos rfl

theorem rotate_injective (room : k = 0 ∨ m + k ≤ top) (fits : top < 2 ^ 64) :
    Function.Injective (rotate m k top) := by
  have small (v : UInt64) : (UInt64.ofNat (Phrasebook.rotate m k top v.toNat)).toNat =
      Phrasebook.rotate m k top v.toNat := by
    refine UInt64.toNat_ofNat_of_lt' (Nat.lt_of_le_of_lt (rotate_le room) ?_)
    exact Nat.max_lt.mpr ⟨v.toNat_lt, fits⟩
  intro ⟨id, param⟩ ⟨id', param'⟩ same
  obtain rfl : id = id' := by simpa only [rotate_id] using congrArg Callback.id same
  by_cases isExclusion : id = Builtin.exclusion.id
  · subst isExclusion
    rw [rotate_exclusion, rotate_exclusion] at same
    have params := congrArg (fun c => c.param.toNat) same
    simp only [small] at params
    rw [UInt64.toNat_inj.mp (Phrasebook.rotate_injective room params)]
  · rwa [rotate_of_ne isExclusion, rotate_of_ne isExclusion] at same

end Callback

/-- The renaming that makes room for `k` more symbols after the first `m`. Callbacks of excluded
symbols follow, and numbers that have nothing to do with the move stay as they are. -/
def Renaming.displacing (m k top : Nat) (room : k = 0 ∨ m + k ≤ top) (fits : top < 2 ^ 64) : Renaming where
  symbol := shift m k
  callback := Callback.rotate m k top
  symbol_injective := (shift_strictMono m k).injective
  callback_injective := Callback.rotate_injective room fits
  callback_id := Callback.rotate_id
  callback_default := rfl

end Phrasebook
