import Phrasebook.Proofs.RuleSet.Interning

/-!
Interning without an index. The hash maps of the interner tell where a record or a head set has been
written, and so does a search through what is written. The bytes of a grammar therefore do not depend
on hashes, and `encode_eq_listed` computes them without any.
-/

namespace Phrasebook.RuleSet

/-- The records and head sets written so far. -/
structure Listing where
  records : List Head := []
  sets : List (List Int) := []

namespace Listing

/-- The place of `a` among `items`, at the end if it is new. -/
def place [BEq α] (a : α) (items : List α) : Nat × List α :=
  match items.idxOf? a with
  | some i => (i, items)
  | none => (items.length, items ++ [a])

def head (head : Head) : StateM Listing Int := fun l =>
  if head.isPlain then (toSigned (head.symbol % wordBound), l)
  else
    let (index, records) := place head l.records
    (-index - 1, { l with records })

def set (heads : List Head) : StateM Listing Nat := do
  let entries ← heads.mapM head
  fun l =>
    let (index, sets) := place entries l.sets
    (index, { l with sets })

def table (table : List (κ × List Head)) : StateM Listing (List (κ × Nat)) :=
  table.mapM fun (key, heads) => return (key, ← set heads)

def shard (terminals strings : Pool) (shard : Shard) : StateM Listing (List UInt8) := do
  let exact ← table shard.tables.exact.toList
  let folded ← table shard.tables.folded.toList
  let unary ← table shard.tables.unary.toList
  let binary ← table shard.tables.binary.toList
  return Numbered.bytes { exact, folded, unary, binary } terminals strings shard.locales

end Listing

/-- What an interner has written, without its indices. -/
def Interned.listing (t : Interned) : Listing := ⟨t.records.toList, t.sets.toList⟩

/-- The indices tell where each record and each set is. -/
structure Interned.Indexed (t : Interned) : Prop where
  records : ∀ head, t.recordIndex[head]? = t.records.toList.idxOf? head
  sets : ∀ entries, t.setIndex[entries]? = t.sets.toList.idxOf? entries

/-- From an indexed state, `op` writes and returns what `op'` does. -/
def Follows (op : Interning α) (op' : StateM Listing α) : Prop :=
  ∀ t : Interned, t.Indexed → (op t).2.Indexed ∧ op' t.listing = ((op t).1, (op t).2.listing)

namespace Follows

theorem returns (a : α) : Follows (pure a) (pure a) := fun _ indexed => ⟨indexed, rfl⟩

theorem bind {x : Interning α} {x' : StateM Listing α} {f : α → Interning β}
    {f' : α → StateM Listing β} (first : Follows x x') (second : ∀ a, Follows (f a) (f' a)) :
    Follows (x >>= f) (x' >>= f') := by
  intro t indexed
  obtain ⟨indexed, same⟩ := first t indexed
  obtain ⟨indexed, same'⟩ := second (x t).1 (x t).2 indexed
  refine ⟨indexed, ?_⟩
  calc
    (x' >>= f') t.listing = f' (x t).1 (x t).2.listing := by simp only [Bind.bind, StateT.bind, same]
    _ = _ := same'

theorem mapM {f : α → Interning β} {f' : α → StateM Listing β} (each : ∀ a, Follows (f a) (f' a))
    (items : List α) : Follows (items.mapM f) (items.mapM f') := by
  induction items with
  | nil => exact returns []
  | cons a rest ih =>
    rw [List.mapM_cons, List.mapM_cons]
    exact (each a).bind fun b => ih.bind fun bs => returns (b :: bs)

end Follows

section
variable [BEq α] [Hashable α] {index : Std.HashMap α Nat} {items : List α} {a : α}

theorem place_of_known (known : ∀ b, index[b]? = items.idxOf? b) {i : Nat}
    (found : index[a]? = some i) : Listing.place a items = (i, items) := by
  rw [known] at found
  rw [Listing.place, found]

theorem place_of_new (known : ∀ b, index[b]? = items.idxOf? b) (new : index[a]? = none) :
    Listing.place a items = (items.length, items ++ [a]) := by
  rw [known] at new
  rw [Listing.place, new]

/-- A new item is found at the end, and every other one where it was. -/
theorem getElem?_insert_length [LawfulBEq α] [LawfulHashable α]
    (known : ∀ b, index[b]? = items.idxOf? b) (new : index[a]? = none) (b : α) :
    (index.insert a items.length)[b]? = (items ++ [a]).idxOf? b := by
  have found : (items ++ [a]).idxOf? b =
      (index[b]?).or (([a].idxOf? b).map (· + items.length)) := by
    rw [known, List.idxOf?, List.findIdx?_append]
  rw [found, Std.HashMap.getElem?_insert]
  by_cases same : a = b
  · subst same
    simp [new]
  · simp [same]

end

theorem follows_head (head : Head) : Follows (internHead head) (Listing.head head) := by
  intro t indexed
  rw [run_internHead, Listing.head]
  by_cases plain : head.isPlain = true
  · rw [if_pos plain, if_pos plain]
    exact ⟨indexed, rfl⟩
  rw [if_neg plain, if_neg plain]
  cases found : t.recordIndex[head]? with
  | some i =>
    refine ⟨indexed, ?_⟩
    rw [Interned.listing, place_of_known indexed.records found]
  | none =>
    have grown := getElem?_insert_length indexed.records found
    rw [Array.length_toList, ← Array.toList_push] at grown
    refine ⟨⟨grown, indexed.sets⟩, ?_⟩
    rw [Interned.listing, place_of_new indexed.records found, Array.length_toList,
      ← Array.toList_push]
    rfl

theorem follows_set (heads : List Head) : Follows (internSet heads) (Listing.set heads) := by
  refine (Follows.mapM follows_head heads).bind fun entries t indexed => ?_
  dsimp only [bind, StateT.bind, get, getThe, MonadStateOf.get, StateT.get, pure]
  cases found : t.setIndex[entries]? with
  | some i =>
    refine ⟨indexed, ?_⟩
    rw [Interned.listing, place_of_known indexed.sets found]
    rfl
  | none =>
    have grown := getElem?_insert_length indexed.sets found
    rw [Array.length_toList, ← Array.toList_push] at grown
    refine ⟨⟨indexed.records, grown⟩, ?_⟩
    rw [Interned.listing, place_of_new indexed.sets found, Array.length_toList, ← Array.toList_push]
    rfl

theorem follows_shard (terminals strings : Pool) (shard : Shard) :
    Follows (encodeShard terminals strings shard) (Listing.shard terminals strings shard) := by
  have tables {κ : Type} (table : List (κ × List Head)) :
      Follows (internTable table) (Listing.table table) :=
    Follows.mapM (fun (key, heads) => (follows_set heads).bind fun set => .returns (key, set)) table
  refine (tables _).bind fun exact => (tables _).bind fun folded => ?_
  exact (tables _).bind fun unary => (tables _).bind fun binary => .returns _

/-- The sections of a compiled grammar, interned by searching. -/
def Blocks.listed (n : NormalForm) (withNames : Bool) : Blocks :=
  let written := (n.shards.toList.mapM (Listing.shard (Pool.ofTexts (literalsOf n))
    (Pool.ofTexts (stringsOf n withNames)))).run {}
  { ofNormalForm n withNames with
    records := written.2.records
    sets := written.2.sets
    shards := written.1 }

theorem Blocks.ofNormalForm_eq_listed : ofNormalForm = listed := by
  funext n withNames
  have empty : ({} : Interned).Indexed := ⟨by simp, by simp⟩
  have written : StateT.run (n.shards.toList.mapM (Listing.shard (Pool.ofTexts (literalsOf n))
      (Pool.ofTexts (stringsOf n withNames)))) {} = _ :=
    (Follows.mapM (follows_shard _ _) n.shards.toList {} empty).2
  rw [listed, written]
  rfl

/-- The bytes of a grammar, computed without an index. -/
theorem encode_eq_listed : encode = fun n withNames => (Blocks.listed n withNames).bytes := by
  funext n withNames
  rw [encode, Blocks.ofNormalForm_eq_listed]

/-- What a check has been computed for exists. -/
theorem exists_ok_of_any {x : Except ε α} {wanted : α → Bool} (meets : x.toOption.any wanted = true) :
    ∃ a, x = .ok a ∧ wanted a = true := by
  cases x with
  | error e => cases meets
  | ok a => exact ⟨a, rfl, meets⟩

end Phrasebook.RuleSet
