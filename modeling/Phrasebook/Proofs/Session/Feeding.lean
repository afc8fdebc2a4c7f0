import Phrasebook.Proofs.Session.FeedOrder
import Phrasebook.Proofs.Session.Limits
import Phrasebook.Proofs.Text.LetterCase

namespace Phrasebook

open Session

namespace Token

/-- Some character is uppercase and none is lowercase. -/
def isUppercase (piece : Token) : Bool :=
  piece.value.toList.any Unicode.uppercase.contains &&
    !piece.value.toList.any Unicode.lowercase.contains

def isDigits (piece : Token) : Bool := piece.value.toList.all Char.isDigit

/-- The structural symbols of a piece, in the order in which they are handed over. -/
def symbols (structural : Structural.Symbols) (piece : Token) : List Symbol :=
  [structural.token] ++
    (if piece.isUppercase then [structural.uppercaseToken] else []) ++
    (if piece.isDigits then [structural.digits] else []) ++
    (if piece.isDigits ∧ piece.span.length ≤ Structural.longestRun then
      [structural.digitRun piece.span.length]
    else [])

end Token

namespace Feed

/-- Something that hands symbols over: a piece with the end of the one before it, or a label with its
place in the caller's list. -/
inductive Source
  | piece (offset : Nat) (piece : Token)
  | label (label : Label) (index : Nat)

namespace Source

def piece? : Source → Option (Nat × Token)
  | .piece offset p => some (offset, p)
  | .label .. => none

def label? : Source → Option (Label × Nat)
  | .piece .. => none
  | .label a index => some (a, index)

/-- Labels go by their ends, those with one end as they are listed. A label comes before the pieces
that start where it ends or later, and after the others. -/
def Precedes : Source → Source → Prop
  | .piece .., .piece .. => True
  | .piece _ p, .label a _ => p.span.start < a.span.stop
  | .label a _, .piece _ p => a.span.stop ≤ p.span.start
  | .label a i, .label b j => a.span.stop < b.span.stop ∨ a.span.stop = b.span.stop ∧ i < j

/-- What a source hands over. -/
def items (rules : RuleSet) (tokens : List Token) : Source → List FeedItem
  | .piece offset p =>
    .terminal p.span offset p.value ::
      (p.symbols rules.layout.structural).flatMap fun symbol => symbolItem symbol p.span offset
  | .label a index =>
    (rules.label? a.name).toList.flatMap fun symbol =>
      symbolItem symbol a.span (labelOffset (solidPieces tokens) a) (.label index)

end Source

/-- Every piece and every label of a text is there once, the pieces as they stand and the labels
where they end. -/
structure Arranged (tokens : List Token) (labels : List Label) (sources : List Source) : Prop where
  pieces : sources.filterMap Source.piece? = place 0 (solidPieces tokens)
  labels : (sources.filterMap Source.label?).Perm labels.zipIdx
  order : sources.Pairwise Source.Precedes

/-- Everything that is handed over: the start of the text, what the sources give, and its end. -/
def handed (rules : RuleSet) (tokens : List Token) (sources : List Source) : List FeedItem :=
  symbolItem rules.layout.structural.start ⟨0, 0⟩ 0 ++
    sources.flatMap (Source.items rules tokens) ++
    symbolItem rules.layout.structural.stop ⟨textEnd tokens, textEnd tokens⟩ (textEnd tokens)

/-- The pieces and labels in the order in which they are merged. -/
def sources (tokens : List Token) (labels : List Label) : List Source :=
  merge (fun a => .label a.1 a.2) .piece (byStop labels) 0 (solidPieces tokens)

theorem map_merge (f : β → γ) (ofLabel : Label × Nat → β) (ofPiece : Nat → Token → β)
    (labels : List (Label × Nat)) (last : Nat) (pieces : List Token) :
    (merge ofLabel ofPiece labels last pieces).map f =
      merge (fun a => f (ofLabel a)) (fun offset piece => f (ofPiece offset piece)) labels last
        pieces := by
  induction pieces generalizing labels last with
  | nil => simp [merge]
  | cons piece rest ih => simp [merge, ih]

theorem filterMap_piece?_merge (labels : List (Label × Nat)) (last : Nat) (pieces : List Token) :
    (merge (fun a => .label a.1 a.2) .piece labels last pieces).filterMap Source.piece? =
      place last pieces := by
  have none (labels : List (Label × Nat)) :
      (labels.map fun a => Source.label a.1 a.2).filterMap Source.piece? = [] := by
    simp [List.filterMap_map, Function.comp_def, Source.piece?]
  induction pieces generalizing labels last with
  | nil => exact none labels
  | cons piece rest ih =>
    simp [merge, place, none, ih, Source.piece?]

theorem filterMap_label?_merge (labels : List (Label × Nat)) (last : Nat) (pieces : List Token) :
    (merge (fun a => .label a.1 a.2) .piece labels last pieces).filterMap Source.label? = labels := by
  have all (labels : List (Label × Nat)) :
      (labels.map fun a => Source.label a.1 a.2).filterMap Source.label? = labels := by
    simp [List.filterMap_map, Function.comp_def, Source.label?]
  induction pieces generalizing labels last with
  | nil => exact all labels
  | cons piece rest ih =>
    simp only [merge, List.span_eq_takeWhile_dropWhile, List.filterMap_append, all]
    rw [List.filterMap_cons_none rfl, ih, List.takeWhile_append_dropWhile]

/-- Sorting by the ends keeps labels with one end as they are listed. -/
theorem pairwise_byStop_index (labels : List Label) :
    (byStop labels).Pairwise fun a b =>
      a.1.span.stop < b.1.span.stop ∨ a.1.span.stop = b.1.span.stop ∧ a.2 < b.2 := by
  let ends : Label × Nat → Label × Nat → Bool := fun a b => a.1.span.stop ≤ b.1.span.stop
  have transitive : ∀ a b c, ends a b = true → ends b c = true → ends a c = true := by
    simp only [ends, decide_eq_true_eq]
    omega
  have total : ∀ a b, (ends a b || ends b a) = true := by
    simp only [ends, Bool.or_eq_true, decide_eq_true_eq]
    omega
  have ordered : (labels.zipIdx.zipIdx.mergeSort (List.zipIdxLE ends)).Pairwise
      fun x y => List.zipIdxLE ends x y = true :=
    List.pairwise_mergeSort (List.zipIdxLE_trans transitive) (List.zipIdxLE_total total) _
  have places : ((labels.zipIdx.zipIdx.mergeSort (List.zipIdxLE ends)).map (·.2)).Nodup := by
    rw [((List.mergeSort_perm _ _).map _).nodup_iff]
    exact List.nodup_zipIdx_map_snd _
  have number {x : (Label × Nat) × Nat}
      (member : x ∈ labels.zipIdx.zipIdx.mergeSort (List.zipIdxLE ends)) : x.2 = x.1.2 := by
    rw [List.mem_mergeSort] at member
    have found := List.mk_mem_zipIdx_iff_getElem?.mp member
    rw [List.getElem?_zipIdx, Option.map_eq_some_iff] at found
    obtain ⟨_, _, same⟩ := found
    simp [← same]
  have sorted : (labels.zipIdx.zipIdx.mergeSort (List.zipIdxLE ends)).map (·.1) = byStop labels :=
    List.mergeSort_zipIdx
  rw [← sorted, List.pairwise_map]
  apply (ordered.and (List.pairwise_map.mp places)).imp_of_mem
  rintro x y isX isY ⟨le, ne⟩
  rw [number isX, number isY] at ne
  simp only [List.zipIdxLE, ends, Bool.ite_eq_true_distrib, decide_eq_true_eq, number isX,
    number isY] at le
  split_ifs at le with forth back
  · omega
  · omega

/-- The order in which pieces and labels are merged. -/
theorem arranged_sources {tokens : List Token} (laid : Token.Laid tokens) (labels : List Label) :
    Arranged tokens labels (sources tokens labels) where
  pieces := filterMap_piece?_merge _ _ _
  labels := by
    rw [sources, filterMap_label?_merge]
    exact List.mergeSort_perm _ _
  order := by
    apply pairwise_merge (pairwise_byStop labels) (solidPieces_laid laid).ordered
      (fun _ => solidPieces_pos laid)
    · exact pairwise_byStop_index labels
    · intro a _ x _ le
      exact le
    · intro x _ a _ lt
      exact lt
    · exact List.pairwise_of_forall_mem_list fun _ _ _ _ => trivial

/-- What a piece hands over, said of its characters. -/
theorem pieceItems_eq {structural : Structural.Symbols} {tokens : List Token}
    (laid : Token.Laid tokens) (offset : Nat) {piece : Token} (member : piece ∈ solidPieces tokens) :
    pieceItems structural offset piece =
      .terminal piece.span offset piece.value ::
        (piece.symbols structural).flatMap fun symbol => symbolItem symbol piece.span offset := by
  have solid : piece.value.toList ≠ [] := by
    have sized := (solidPieces_laid laid).sized piece member
    have pos := solidPieces_pos laid member
    intro empty
    rw [← String.length_toList, empty, Span.length] at sized
    simp at sized
    omega
  have upper : (Makeup.ofText piece.value).isUppercase = piece.isUppercase :=
    Makeup.isUppercase_ofText _
  have digits : (Makeup.ofText piece.value).isDigits = piece.isDigits :=
    Makeup.isDigits_ofText solid
  simp only [pieceItems, upper, digits, Token.symbols]
  cases piece.isUppercase <;> cases piece.isDigits <;>
    by_cases short : piece.span.length ≤ Structural.longestRun <;> simp [short]

theorem labelItems_eq (rules : RuleSet) (pieces : List Token) (a : Label × Nat) :
    labelItems rules pieces a =
      (rules.label? a.1.name).toList.flatMap fun symbol =>
        symbolItem symbol a.1.span (labelOffset pieces a.1) (.label a.2) := by
  rw [labelItems]
  cases rules.label? a.1.name with
  | none => rfl
  | some symbol => simp

theorem merge_congr {ofLabel : Label × Nat → β} {ofPiece ofPiece' : Nat → Token → β}
    {pieces : List Token} (same : ∀ offset, ∀ piece ∈ pieces, ofPiece offset piece = ofPiece' offset piece)
    (labels : List (Label × Nat)) (last : Nat) :
    merge ofLabel ofPiece labels last pieces = merge ofLabel ofPiece' labels last pieces := by
  induction pieces generalizing labels last with
  | nil => rfl
  | cons piece rest ih =>
    obtain ⟨here, later⟩ := List.forall_mem_cons.mp (fun piece member offset => same offset piece member)
    simp only [merge, here, ih fun offset piece member => later piece member offset]

/-- Pieces and labels as they are arranged hand over what the pass is handed. -/
theorem handed_sources (rules : RuleSet) {tokens : List Token} (laid : Token.Laid tokens)
    (labels : List Label) :
    handed rules tokens (sources tokens labels) = Pass.feed rules tokens labels := by
  have same : (sources tokens labels).map (Source.items rules tokens) =
      merge (labelItems rules (solidPieces tokens)) (pieceItems rules.layout.structural)
        (byStop labels) 0 (solidPieces tokens) := by
    have ofLabel : (fun a : Label × Nat => Source.items rules tokens (.label a.1 a.2)) =
        labelItems rules (solidPieces tokens) :=
      funext fun a => (labelItems_eq rules _ a).symm
    rw [sources, map_merge, ofLabel]
    apply merge_congr
    intro offset piece member
    exact (pieceItems_eq laid offset member).symm
  rw [handed, Pass.feed, items, List.flatMap_def, same, List.append_assoc]
  rfl

theorem le_foldl_max {xs : List Nat} {a x : Nat} (h : x ≤ a ∨ x ∈ xs) : x ≤ xs.foldl max a := by
  induction xs generalizing a with
  | nil => simpa using h
  | cons y rest ih =>
    apply ih
    rcases h with le | member
    · exact .inl (Nat.le_trans le (Nat.le_max_left _ _))
    · rcases List.mem_cons.mp member with rfl | later
      · exact .inl (Nat.le_max_right _ _)
      · exact .inr later

/-- A label hangs on the last piece that ends before it starts, or on the start of the text. -/
theorem isGreatest_labelOffset (pieces : List Token) (label : Label) :
    IsGreatest {n | n = 0 ∨ ∃ piece ∈ pieces, piece.span.stop = n ∧ n ≤ label.span.start}
      (labelOffset pieces label) := by
  have ends {n : Nat} : n ∈ (pieces.map (·.span.stop)).filter (· ≤ label.span.start) ↔
      ∃ piece ∈ pieces, piece.span.stop = n ∧ n ≤ label.span.start := by
    simp only [List.mem_filter, List.mem_map, decide_eq_true_eq]
    constructor
    · rintro ⟨⟨piece, member, stop⟩, le⟩
      exact ⟨piece, member, stop, le⟩
    · rintro ⟨piece, member, stop, le⟩
      exact ⟨⟨piece, member, stop⟩, le⟩
  constructor
  · rcases foldl_max_cases ((pieces.map (·.span.stop)).filter (· ≤ label.span.start)) 0 with
      zero | member
    · exact .inl zero
    · exact .inr (ends.mp member)
  · rintro n (rfl | isEnd)
    · exact Nat.zero_le _
    · exact le_foldl_max (.inr (ends.mpr isEnd))

end Feed

namespace Task

/-- There is still something to be handed over. -/
def isFeed : Task → Bool
  | .feed (_ :: _) => true
  | _ => false

variable {setting : Setting} {tokens : List Token} {labels : List Label}

/-- The match that a head makes is one that it yields. -/
theorem yields_stepHead {s : Session} {site : Match} {gap : Option Nat}
    {shared : Option (MatchId × Symbol)} {head : Head} {rest : List Head}
    (due : (Task.execute site gap shared (head :: rest)).Sound setting tokens labels s.arena)
    {m : Match} (made : (stepHead setting s site gap shared head rest).1.arena = s.arena.push m) :
    Yields setting tokens s.arena head m := by
  have grown : s.arena ≠ s.arena.push m := by
    intro same
    have size := congrArg Arena.size same
    rw [Arena.size_push] at size
    omega
  simp only [stepHead] at made
  split at made
  · exact absurd made grown
  · next allowed =>
    have yields := due.1 head List.mem_cons_self (by simpa using allowed)
    split at made
    · exact absurd made grown
    · rcases allocate_cases s setting.capacity { site with symbol := head.symbol } with
        ⟨_, allocated⟩ | ⟨_, dropped⟩
      · have arena : s.arena.push { site with symbol := head.symbol } = s.arena.push m := by
          rw [allocated] at made
          dsimp only at made
          split at made <;> exact made
        have same : { site with symbol := head.symbol } = m := by
          have found := congrArg (·.get? s.arena.size) arena
          simpa [Arena.get?_push] using found
        exact same ▸ yields
      · rw [dropped] at made
        exact absurd made grown

/-- Whatever a step makes is yielded by a head, unless it is handed over. -/
theorem yields_step {s : Session} {task : Task} (inner : task.isFeed = false)
    (due : task.Sound setting tokens labels s.arena) {m : Match}
    (made : (task.step setting .collector s).1.arena = s.arena.push m) :
    ∃ h, Yields setting tokens s.arena h m := by
  have still (same : (task.step setting .collector s).1.arena.size = s.arena.size) :
      ∃ h, Yields setting tokens s.arena h m := by
    rw [made, Arena.size_push] at same
    omega
  cases task with
  | execute site gap shared heads =>
    cases heads with
    | nil => exact still rfl
    | cons head rest => exact ⟨head, yields_stepHead due made⟩
  | fire id callback => exact still (fire_answers s id callback).size
  | combine shard id m lefts =>
    cases lefts with
    | nil => exact still rfl
    | cons left rest => exact still (by simp only [step]; split <;> rfl)
  | propagate id m shards => cases shards <;> exact still rfl
  | literals site text folded shards => cases shards <;> exact still rfl
  | enter | drain | process => exact still (by simp only [step]; split <;> rfl)
  | feed items =>
    cases items with
    | nil => exact still rfl
    | cons => cases inner
  | enqueue | lookLeft | settle => exact still rfl

/-- Nothing is handed over in the course of a step. -/
theorem isFeed_step {s : Session} {task : Task} (inner : task.isFeed = false) :
    ∀ later ∈ (task.step setting .collector s).2, later.isFeed = false := by
  cases task with
  | execute site gap shared heads =>
    cases heads with
    | nil => simp [step]
    | cons head rest =>
      simp only [step, stepHead]
      split
      · simp [isFeed]
      · split
        · simp [isFeed]
        · split
          · simp [isFeed]
          · split <;> simp [isFeed]
  | combine shard id m lefts =>
    cases lefts with
    | nil => simp [step]
    | cons left rest => simp only [step]; split <;> simp [isFeed, ofSet]
  | propagate id m shards => cases shards <;> simp [step, isFeed, ofSet]
  | literals site text folded shards => cases shards <;> simp [step, isFeed, ofSet]
  | enter | drain | process => simp only [step]; split <;> simp [isFeed]
  | feed items =>
    cases items with
    | nil => simp [step]
    | cons => cases inner
  | fire | enqueue | lookLeft | settle => simp [step, isFeed]

end Task

theorem Session.Begins.keepsArena {s t : Session} (begins : s.Begins t) : s.arena.Keeps t.arena := by
  intro id m found
  exact ⟨m.kind, (begins.kept id (Arena.lt_size_of_get? found)).trans found⟩

/-- Every match that `t` has beyond those of `s` is yielded by a head. -/
structure Session.Derives (setting : Setting) (tokens : List Token) (s t : Session) : Prop
    extends s.Begins t where
  yields : ∀ (id : Nat) m, s.arena.size ≤ id → t.arena.get? id = some m →
    ∃ h, Yields setting tokens t.arena h m
  dropped : s.stats.dropped ≤ t.stats.dropped

namespace Session.Derives

variable {setting : Setting} {tokens : List Token} {labels : List Label} {s t u : Session}

theorem refl (s : Session) : s.Derives setting tokens s where
  toBegins := .of_same rfl rfl
  yields _ _ old found := absurd (Arena.lt_size_of_get? found) (Nat.not_lt.mpr old)
  dropped := Nat.le_refl _

/-- Matches that were there keep their reasons, so only those that are new need one. -/
theorem onward (derives : s.Derives setting tokens t) (begins : s.Begins u)
    (keeps : t.arena.Keeps u.arena) (dropped : t.stats.dropped ≤ u.stats.dropped)
    (new : ∀ (id : Nat) m, t.arena.size ≤ id → u.arena.get? id = some m →
      ∃ h, Yields setting tokens u.arena h m) : s.Derives setting tokens u where
  toBegins := begins
  yields id m old found := by
    by_cases late : t.arena.size ≤ id
    · exact new id m late found
    · obtain ⟨n, before⟩ := Arena.get?_of_lt_size (Nat.lt_of_not_le late)
      obtain ⟨h, yields⟩ := derives.yields id n old before
      obtain ⟨kind, kept⟩ := keeps id n before
      obtain rfl := Option.some.inj (found.symm.trans kept)
      exact ⟨h, (yields.keeps keeps).setKind kind⟩
  dropped := Nat.le_trans derives.dropped dropped

/-- One step that hands nothing over. -/
theorem step {task : Task} (derives : s.Derives setting tokens t)
    (begins : s.Begins (task.step setting .collector t).1)
    (due : task.Sound setting tokens labels t.arena) (inner : task.isFeed = false) :
    s.Derives setting tokens (task.step setting .collector t).1 := by
  have effect := Task.effect_step setting t task
  have yields (m : Match) (made : (task.step setting .collector t).1.arena = t.arena.push m) :
      ∃ h, Yields setting tokens t.arena h m := Task.yields_step inner due made
  generalize task.step setting .collector t = result at *
  obtain ⟨u, tasks⟩ := result
  have still (size : u.arena.size = t.arena.size) (id : Nat) (m : Match)
      (late : t.arena.size ≤ id) (found : u.arena.get? id = some m) :
      ∃ h, Yields setting tokens u.arena h m := by
    have small := Arena.lt_size_of_get? found
    omega
  cases effect with
  | rests rests =>
    apply derives.onward begins
    · exact rests.arena ▸ .refl _
    · exact Nat.le_of_eq rests.dropped.symm
    · exact still (congrArg Arena.size rests.arena)
  | answers id callback answers =>
    apply derives.onward begins answers.keeps
    · exact Nat.le_of_eq answers.dropped.symm
    · exact still answers.size
  | makes room makes =>
    obtain ⟨made, arena⟩ := makes.arena
    have keeps : t.arena.Keeps u.arena := arena ▸ .push _ _
    apply derives.onward begins keeps
    · exact Nat.le_of_eq makes.dropped.symm
    · intro id m late found
      rw [arena, Arena.get?_push] at found
      split at found
      · obtain ⟨h, yields⟩ := yields made arena
        exact Option.some.inj found ▸ ⟨h, yields.keeps keeps⟩
      · exact absurd (Arena.lt_size_of_get? found) (Nat.not_lt.mpr late)
  | drops full drops =>
    apply derives.onward begins
    · exact drops.arena ▸ .refl _
    · exact drops.dropped ▸ Nat.le_succ _
    · exact still (congrArg Arena.size drops.arena)

end Session.Derives

namespace Machine

variable {setting : Setting} {tokens : List Token} {labels : List Label}

/-- The machine goes on from `s` and has nothing more handed over. -/
structure Derives (setting : Setting) (tokens : List Token) (labels : List Label) (s : Session)
    (a : Machine) : Prop extends BuildsOn s a where
  sound : a.Sound setting tokens labels
  inner : ∀ task ∈ a.tasks, task.isFeed = false
  derives : s.Derives setting tokens a.session

theorem Derives.next {s : Session} {a b : Machine} (derives : Derives setting tokens labels s a)
    (next : a.next? setting .collector = some b) : Derives setting tokens labels s b := by
  have builds := derives.toBuildsOn.next next
  have sound := sound_next derives.sound next
  obtain ⟨task, rest, here, rfl⟩ := next?_eq_some next
  have isTask : task ∈ a.tasks := by simp [here]
  refine ⟨builds, sound, ?_, ?_⟩
  · intro other member
    rcases List.mem_append.mp member with new | later
    · exact Task.isFeed_step (derives.inner task isTask) other new
    · exact derives.inner other (by simp [here, later])
  · exact derives.derives.step builds.begins (derives.sound.2 task isTask)
      (derives.inner task isTask)

end Machine

/-- The match that an item hands over. A terminal has none. -/
def FeedItem.match? : FeedItem → Option Match
  | .terminal .. => none
  | .symbol m => some m

section
variable {setting : Setting} {tokens : List Token} {labels : List Label}

/-- What is left of a session when an item has been stored and nothing yet derived from it. -/
structure Session.Stores (s t : Session) (item : FeedItem) : Prop extends s.Begins t where
  dropped : s.stats.dropped ≤ t.stats.dropped
  stored : t.stats.dropped = s.stats.dropped → t.arena = item.match?.elim s.arena s.arena.push

theorem Task.stores_step (s : Session) (item : FeedItem) :
    s.Stores ((Task.feed [item]).step setting .collector s).1 item ∧
      ((Task.feed [item]).step setting .collector s).2.flatMap touches = [] ∧
      ∀ task ∈ ((Task.feed [item]).step setting .collector s).2, task.isFeed = false := by
  cases item with
  | terminal span offset text =>
    refine ⟨⟨.of_same rfl rfl, Nat.le_refl _, fun _ => rfl⟩, rfl, ?_⟩
    simp [step, isFeed]
  | symbol m =>
    simp only [step]
    rcases allocate_cases s setting.capacity m with ⟨_, made⟩ | ⟨_, dropped⟩
    · rw [made]
      refine ⟨⟨.push rfl rfl, Nat.le_refl _, fun _ => rfl⟩, rfl, ?_⟩
      simp [isFeed]
    · rw [dropped]
      refine ⟨⟨.of_same rfl rfl, Nat.le_succ _, fun whole => ?_⟩, rfl, ?_⟩
      · exact absurd whole (Nat.succ_ne_self _)
      · simp [isFeed]

/-- Taking an item stores its match, and all else that it makes is yielded by heads. -/
theorem derives_take {s : Session} {item : FeedItem} (sound : s.Sound setting tokens labels)
    (due : item.Due setting.rules tokens labels) :
    (take setting .collector s item).Sound setting tokens labels ∧
      ∃ base : Session, s.Stores base item ∧
        base.Derives setting tokens (take setting .collector s item) := by
  obtain ⟨stores, touches, inner⟩ :
      s.Stores ((Task.feed [item]).step setting .collector s).1 item ∧ _ ∧ _ :=
    Task.stores_step s item
  let start : Machine := ⟨s, [.feed [item]]⟩
  let stored : Machine := ⟨((Task.feed [item]).step setting .collector s).1,
    ((Task.feed [item]).step setting .collector s).2 ++ []⟩
  have isNext : start.next? setting .collector = some stored := rfl
  have reach : Machine.Reaches setting .collector stored ⟨take setting .collector s item, []⟩ :=
    ((Machine.Reaches.refl start).next isNext).onward (Machine.does_feed [item] s []) rfl
  have soundStart : start.Sound setting tokens labels := by
    refine ⟨sound, ?_⟩
    simp only [start, List.mem_singleton, forall_eq]
    exact fun other member => List.mem_singleton.mp member ▸ due
  have derives : Machine.Derives setting tokens labels stored.session stored := by
    refine ⟨⟨.of_same rfl rfl, ?_⟩, Machine.sound_next soundStart isNext, ?_, .refl _⟩
    · simp [stored, touches]
    · simpa [stored] using inner
  have done := reach.preserves (fun _ _ => Machine.Derives.next) derives
  exact ⟨done.sound.1, stored.session, stores, done.derives⟩

/-- From `start` on the matches of `handed` stand in the arena at `ids`, in this order and just as
they were handed over, and every other match there is yielded by a head. -/
structure Arena.Stands (setting : Setting) (tokens : List Token) (a : Arena) (start : Nat)
    (handed : List Match) (ids : List Nat) : Prop where
  ordered : ids.Pairwise (· < ·)
  later : ∀ id ∈ ids, start ≤ id
  found : ids.map a.get? = handed.map some
  others : ∀ id m, start ≤ id → a.get? id = some m → id ∉ ids → ∃ h, Yields setting tokens a h m

/-- If nothing is dropped, each symbol that is handed over becomes one match. -/
theorem stands_foldl {items : List FeedItem} {s : Session} (sound : s.Sound setting tokens labels)
    (due : ∀ item ∈ items, item.Due setting.rules tokens labels) :
    s.Begins (items.foldl (take setting .collector) s) ∧
      s.stats.dropped ≤ (items.foldl (take setting .collector) s).stats.dropped ∧
      ((items.foldl (take setting .collector) s).stats.dropped = s.stats.dropped →
        ∃ ids, (items.foldl (take setting .collector) s).arena.Stands setting tokens s.arena.size
          (items.filterMap FeedItem.match?) ids) := by
  induction items generalizing s with
  | nil =>
    refine ⟨.of_same rfl rfl, Nat.le_refl _, fun _ => ⟨[], .nil, by simp, rfl, ?_⟩⟩
    intro id m late found
    exact absurd (Arena.lt_size_of_get? found) (Nat.not_lt.mpr late)
  | cons item rest ih =>
    obtain ⟨here, later⟩ := List.forall_mem_cons.mp due
    obtain ⟨soundNext, base, stores, derives⟩ := derives_take sound here
    obtain ⟨begins, dropped, stands⟩ := ih soundNext later
    rw [List.foldl_cons]
    generalize take setting .collector s item = u at *
    generalize rest.foldl (take setting .collector) u = t at *
    have fromBase := derives.toBegins.trans begins
    have storesDropped := stores.dropped
    have derivesDropped := derives.dropped
    refine ⟨stores.toBegins.trans fromBase, by omega, fun whole => ?_⟩
    obtain ⟨ids, stands⟩ := stands (by omega)
    have arena := stores.stored (by omega)
    have others (id : Nat) (m : Match) (late : base.arena.size ≤ id)
        (found : t.arena.get? id = some m) (new : id ∉ ids) :
        ∃ h, Yields setting tokens t.arena h m := by
      by_cases known : id < u.arena.size
      · have before : u.arena.get? id = some m := (begins.kept id known).symm.trans found
        obtain ⟨h, yields⟩ := derives.yields id m late before
        exact ⟨h, yields.keeps begins.keepsArena⟩
      · exact stands.others id m (Nat.le_of_not_lt known) found new
    have afterBase : ∀ id ∈ ids, base.arena.size ≤ id :=
      fun id member => Nat.le_trans derives.size (stands.later id member)
    cases item with
    | terminal span offset text =>
      have same : base.arena.size = s.arena.size := congrArg Arena.size arena
      rw [same] at others afterBase
      exact ⟨ids, stands.ordered, afterBase, stands.found, others⟩
    | symbol m =>
      have pushed : base.arena = s.arena.push m := arena
      have size : base.arena.size = s.arena.size + 1 := by rw [pushed, Arena.size_push]
      have here : t.arena.get? s.arena.size = some m := by
        rw [fromBase.kept _ (by omega), pushed, Arena.get?_push, if_pos rfl]
      refine ⟨s.arena.size :: ids, ?_, ?_, ?_, ?_⟩
      · apply List.pairwise_cons.mpr
        exact ⟨fun id member => by have := afterBase id member; omega, stands.ordered⟩
      · intro id member
        rcases List.mem_cons.mp member with rfl | later
        · exact Nat.le_refl _
        · have := afterBase id later
          omega
      · simp [FeedItem.match?, here, stands.found]
      · intro id n late found new
        rw [List.mem_cons, not_or] at new
        exact others id n (by omega) found new.2

end

end Phrasebook
