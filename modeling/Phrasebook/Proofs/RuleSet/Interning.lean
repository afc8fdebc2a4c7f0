import Phrasebook.Proofs.Grammar.Language
import Phrasebook.Proofs.RuleSet.Bytes

namespace Phrasebook.RuleSet

/-- An entry stands for a head: by its symbol, or by the number of its record. -/
def EntryOf (records : Array Head) (entry : Int) (head : Head) : Prop :=
  (head.isPlain = true ∧ entry = toSigned (head.symbol % wordBound)) ∨
    (∃ i : Nat, records[i]? = some head ∧ entry = -i - 1)

namespace Interned

/-- The set numbered `set` has the entries of `heads`. -/
def Holds (t : Interned) (heads : List Head) (set : Nat) : Prop :=
  ∃ entries, t.sets[set]? = some entries ∧ List.Forall₂ (EntryOf t.records) entries heads

/-- Every indexed record and set is where the index says, and stands for heads that meet `P`. -/
structure Sound (P : Head → Prop) (t : Interned) : Prop where
  records : ∀ head (i : Nat), t.recordIndex[head]? = some i → t.records[i]? = some head
  sets : ∀ entries (i : Nat), t.setIndex[entries]? = some i → t.sets[i]? = some entries
  recordsMeet : ∀ (i : Nat) head, t.records[i]? = some head → P head
  setsMeet : ∀ (i : Nat) entries, t.sets[i]? = some entries →
    ∃ heads, List.Forall₂ (EntryOf t.records) entries heads ∧ ∀ head ∈ heads, P head

/-- Records and sets keep their numbers. -/
structure Grows (s t : Interned) : Prop where
  records : ∀ (i : Nat) head, s.records[i]? = some head → t.records[i]? = some head
  sets : ∀ (i : Nat) entries, s.sets[i]? = some entries → t.sets[i]? = some entries

theorem Grows.refl (t : Interned) : Grows t t := ⟨fun _ _ => id, fun _ _ => id⟩

theorem Grows.trans {s t u : Interned} (first : Grows s t) (second : Grows t u) : Grows s u :=
  ⟨fun i head found => second.records i head (first.records i head found),
    fun i entries found => second.sets i entries (first.sets i entries found)⟩

end Interned

theorem EntryOf.grows {s t : Interned} (grows : s.Grows t) {entry : Int} {head : Head}
    (h : EntryOf s.records entry head) : EntryOf t.records entry head := by
  rcases h with plain | ⟨i, found, eq⟩
  · exact .inl plain
  · exact .inr ⟨i, grows.records i head found, eq⟩

/-- From a sound state `s` an operation leads to a sound one that has grown, with a result that meets
`Q` from then on. -/
def InternsAt (P : Head → Prop) (s : Interned) (op : Interning α) (Q : α → Interned → Prop) : Prop :=
  (op s).2.Sound P ∧ s.Grows (op s).2 ∧ ∀ t, (op s).2.Grows t → Q (op s).1 t

def Interns (P : Head → Prop) (op : Interning α) (Q : α → Interned → Prop) : Prop :=
  ∀ s : Interned, s.Sound P → InternsAt P s op Q

section
variable {P : Head → Prop}

namespace Interns

/-- The second operation starts where the result of the first is met. -/
theorem bindAt {x : Interning α} {f : α → Interning β} {Q : α → Interned → Prop}
    {Q' : β → Interned → Prop} (first : Interns P x Q)
    (second : ∀ a s, s.Sound P → Q a s → InternsAt P s (f a) fun b t => Q a t → Q' b t) :
    Interns P (x >>= f) Q' := by
  intro s sound
  obtain ⟨sound₁, grows₁, meets₁⟩ := first s sound
  obtain ⟨sound₂, grows₂, meets₂⟩ := second (x s).1 (x s).2 sound₁ (meets₁ _ (.refl _))
  refine ⟨sound₂, grows₁.trans grows₂, ?_⟩
  intro t grows
  exact meets₂ t grows (meets₁ t (grows₂.trans grows))

theorem bind {x : Interning α} {f : α → Interning β} {Q : α → Interned → Prop}
    {Q' : β → Interned → Prop} (first : Interns P x Q)
    (second : ∀ a, Interns P (f a) fun b t => Q a t → Q' b t) : Interns P (x >>= f) Q' :=
  first.bindAt fun a s sound _ => second a s sound

theorem returns {a : α} {Q : α → Interned → Prop} (h : ∀ t, Q a t) :
    Interns P (pure a : Interning α) Q :=
  fun s sound => ⟨sound, .refl s, fun t _ => h t⟩

theorem mapM {f : α → Interning β} {Q : α → β → Interned → Prop} {items : List α}
    (each : ∀ a ∈ items, Interns P (f a) (Q a)) : Interns P (items.mapM f) fun results t =>
      List.Forall₂ (fun result item => Q item result t) results items := by
  induction items with
  | nil => exact returns fun t => .nil
  | cons a rest ih =>
    rw [List.mapM_cons]
    refine (each a List.mem_cons_self).bind fun b => ?_
    refine (ih fun a member => each a (List.mem_cons_of_mem _ member)).bind fun results => ?_
    exact returns fun t later here => .cons here later

end Interns

theorem run_internHead (head : Head) (s : Interned) :
    internHead head s =
      if head.isPlain then (toSigned (head.symbol % wordBound), s)
      else
        match s.recordIndex[head]? with
        | some index => (-index - 1, s)
        | none =>
          (-s.records.size - 1,
            { s with
              records := s.records.push head
              recordIndex := s.recordIndex.insert head s.records.size }) := by
  by_cases plain : head.isPlain = true
  · rw [if_pos plain, internHead, if_pos plain]
    rfl
  · rw [if_neg plain, internHead, if_neg plain]
    dsimp only [bind, StateT.bind, get, getThe, MonadStateOf.get, StateT.get, pure, StateT.pure]
    cases s.recordIndex[head]? <;> rfl

theorem interns_head {head : Head} (meets : P head) :
    Interns P (internHead head) fun entry t => EntryOf t.records entry head := by
  intro s sound
  rw [InternsAt, run_internHead]
  by_cases plain : head.isPlain = true
  · rw [if_pos plain]
    exact ⟨sound, .refl s, fun t _ => .inl ⟨plain, rfl⟩⟩
  rw [if_neg plain]
  cases known : s.recordIndex[head]? with
  | some i =>
    refine ⟨sound, .refl s, fun t grows => .inr ⟨i, ?_, rfl⟩⟩
    exact grows.records i head (sound.records head i known)
  | none =>
    have pushed (i : Nat) (h : Head) (found : s.records[i]? = some h) :
        (s.records.push head)[i]? = some h := by
      have inRange := (Array.getElem?_eq_some_iff.mp found).1
      rwa [Array.getElem?_push, if_neg (by omega)]
    have grows : s.Grows { s with
        records := s.records.push head
        recordIndex := s.recordIndex.insert head s.records.size } := ⟨pushed, fun _ _ => id⟩
    refine ⟨⟨fun h i found => ?_, sound.sets, fun i h found => ?_, fun i entries found => ?_⟩, grows,
      fun t grows => .inr ⟨s.records.size, ?_, rfl⟩⟩
    · rw [Std.HashMap.getElem?_insert] at found
      split at found
      · next same =>
        obtain rfl := Option.some.inj found
        simp [eq_of_beq same]
      · exact pushed i h (sound.records h i found)
    · rw [Array.getElem?_push] at found
      split at found
      · exact Option.some.inj found ▸ meets
      · exact sound.recordsMeet i h found
    · obtain ⟨heads, each, meet⟩ := sound.setsMeet i entries found
      exact ⟨heads, each.imp fun _ _ => EntryOf.grows grows, meet⟩
    · exact grows.records _ head (by simp)

/-- The second half of `internSet`, once the entries are known. -/
theorem interns_entries {s : Interned} (sound : s.Sound P) {entries : List Int} {heads : List Head}
    (each : List.Forall₂ (EntryOf s.records) entries heads) (meet : ∀ head ∈ heads, P head) :
    InternsAt P s (do
      let state ← get
      match state.setIndex[entries]? with
      | some index => return index
      | none =>
        let index := state.sets.size
        set { state with
          sets := state.sets.push entries
          setIndex := state.setIndex.insert entries index }
        return index : Interning Nat) fun i t => t.sets[i]? = some entries := by
  simp only [InternsAt, bind, StateT.bind, get, getThe, MonadStateOf.get, StateT.get, pure]
  cases known : s.setIndex[entries]? with
  | some i =>
    exact ⟨sound, .refl s, fun t grows => grows.sets i entries (sound.sets entries i known)⟩
  | none =>
    have pushed (i : Nat) (other : List Int) (found : s.sets[i]? = some other) :
        (s.sets.push entries)[i]? = some other := by
      have inRange := (Array.getElem?_eq_some_iff.mp found).1
      rwa [Array.getElem?_push, if_neg (by omega)]
    refine ⟨⟨sound.records, fun other i found => ?_, sound.recordsMeet, fun i other found => ?_⟩,
      ⟨fun _ _ => id, pushed⟩, fun t grows => grows.sets _ entries ?_⟩
    · replace found : (s.setIndex.insert entries s.sets.size)[other]? = some i := found
      rw [Std.HashMap.getElem?_insert] at found
      refine (?_ : (s.sets.push entries)[i]? = some other)
      split at found
      · next same =>
        obtain rfl := Option.some.inj found
        simp [eq_of_beq same]
      · exact pushed i other (sound.sets other i found)
    · replace found : (s.sets.push entries)[i]? = some other := found
      rw [Array.getElem?_push] at found
      split at found
      · exact Option.some.inj found ▸ ⟨heads, each, meet⟩
      · exact sound.setsMeet i other found
    · refine (?_ : (s.sets.push entries)[s.sets.size]? = some entries)
      simp

theorem interns_set {heads : List Head} (meet : ∀ head ∈ heads, P head) :
    Interns P (internSet heads) fun set t => t.Holds heads set := by
  unfold internSet
  refine (Interns.mapM fun head member => interns_head (meet head member)).bindAt ?_
  intro entries s sound each
  obtain ⟨sound', grows, found⟩ := interns_entries sound each meet
  exact ⟨sound', grows, fun t later each => ⟨entries, found t later, each⟩⟩

/-- Each record has the key of a production and the number of its head set. -/
def Interned.Tabulates (t : Interned) (records : List (κ × Nat)) (table : List (κ × List Head)) :
    Prop :=
  List.Forall₂ (fun record entry => record.1 = entry.1 ∧ t.Holds entry.2 record.2) records table

theorem interns_table {table : List (κ × List Head)}
    (meet : ∀ entry ∈ table, ∀ head ∈ entry.2, P head) :
    Interns P (internTable table) fun records t => t.Tabulates records table := by
  refine Interns.mapM fun entry member => ?_
  exact (interns_set (meet entry member)).bind fun set => .returns fun t holds => ⟨rfl, holds⟩

/-- The tables of a shard with head sets replaced by their numbers. -/
structure Numbered where
  exact : List (String × Nat)
  folded : List (String × Nat)
  unary : List (Symbol × Nat)
  binary : List ((Symbol × Symbol) × Nat)

def Numbered.bytes (n : Numbered) (terminals strings : Pool) (locales : List Locale) : List UInt8 :=
  word locales.length ++ words (locales.map (strings.offset ·.display)) ++
    encodeLiterals terminals n.exact ++ encodeLiterals terminals n.folded ++
    word n.unary.length ++ n.unary.flatMap (fun (operand, set) => word operand ++ word set) ++
    encodeBinary n.binary

/-- The numbers are those of the head sets in `t`. -/
structure Interned.Numbers (t : Interned) (tables : Tables) (n : Numbered) : Prop where
  exact : t.Tabulates n.exact tables.exact.toList
  folded : t.Tabulates n.folded tables.folded.toList
  unary : t.Tabulates n.unary tables.unary.toList
  binary : t.Tabulates n.binary tables.binary.toList

theorem interns_shard (terminals strings : Pool) {shard : Shard}
    (meet : ∀ b, ∀ head ∈ shard.tables.headsOf b, P head) :
    Interns P (encodeShard terminals strings shard) fun bytes t =>
      ∃ n, t.Numbers shard.tables n ∧ bytes = n.bytes terminals strings shard.locales := by
  have listed {κ : Type} {cmp : κ → κ → Ordering} [Std.TransCmp cmp] [Std.LawfulEqCmp cmp]
      {m : Std.TreeMap κ (List Head) cmp} (body : κ → Body)
      (isBody : ∀ key, shard.tables.headsOf (body key) = m.getD key []) :
      ∀ entry ∈ m.toList, ∀ head ∈ entry.2, P head := by
    intro entry member head isHead
    refine meet (body entry.1) head ?_
    rw [isBody, Std.TreeMap.getD_eq_getD_getElem?,
      Std.TreeMap.mem_toList_iff_getElem?_eq_some.mp member]
    exact isHead
  unfold encodeShard
  refine (interns_table (listed (.literal · true) fun _ => rfl)).bind fun exact => ?_
  refine (interns_table (listed (.literal · false) fun _ => rfl)).bind fun folded => ?_
  refine (interns_table (listed .unary fun _ => rfl)).bind fun unary => ?_
  refine (interns_table (listed (fun key => .binary key.1 key.2) fun _ => rfl)).bind fun binary => ?_
  exact .returns fun t isBinary isUnary isFolded isExact =>
    ⟨⟨exact, folded, unary, binary⟩, ⟨isExact, isFolded, isUnary, isBinary⟩, rfl⟩

end

/-- What all shards of a normal form are written as. -/
theorem interns_shards (n : NormalForm) (terminals strings : Pool) :
    ((n.shards.toList.mapM (encodeShard terminals strings)).run {}).2.Sound
        (fun head => ∃ b, n.Has b head) ∧
    ∃ numbered : List Numbered,
      ((n.shards.toList.mapM (encodeShard terminals strings)).run {}).1 =
        List.zipWith (fun tables (shard : Shard) => tables.bytes terminals strings shard.locales)
          numbered n.shards.toList ∧
      List.Forall₂ (fun tables (shard : Shard) =>
        ((n.shards.toList.mapM (encodeShard terminals strings)).run {}).2.Numbers shard.tables tables)
        numbered n.shards.toList := by
  have empty : ({} : Interned).Sound fun head => ∃ b, n.Has b head :=
    ⟨by simp, by simp, by simp, by simp⟩
  have meet (shard : Shard) (member : shard ∈ n.shards.toList) (b : Body) (head : Head)
      (isHead : head ∈ shard.tables.headsOf b) : ∃ b, n.Has b head := by
    obtain ⟨i, found⟩ := Array.mem_iff_getElem?.mp (Array.mem_toList_iff.mp member)
    exact ⟨b, i, shard, found, isHead⟩
  obtain ⟨sound, _, each⟩ := Interns.mapM (fun shard member =>
    interns_shard terminals strings (meet shard member)) {} empty
  have each := each _ (.refl _)
  refine ⟨sound, ?_⟩
  simp only [StateT.run]
  generalize n.shards.toList.mapM (encodeShard terminals strings) {} = result at each ⊢
  obtain ⟨bytes, t⟩ := result
  dsimp only at each ⊢
  generalize n.shards.toList = shards at each
  induction each with
  | nil => exact ⟨[], rfl, .nil⟩
  | cons here _ ih =>
    obtain ⟨tables, numbers, eq⟩ := here
    obtain ⟨numbered, eqs, all⟩ := ih
    exact ⟨tables :: numbered, by rw [eq, eqs]; rfl, .cons numbers all⟩

end Phrasebook.RuleSet
