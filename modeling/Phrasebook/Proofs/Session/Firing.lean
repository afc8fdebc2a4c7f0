import Mathlib.Data.List.SplitBy
import Phrasebook.Grammar.Lowering
import Phrasebook.Pass
import Phrasebook.Proofs.Grammar.Built
import Phrasebook.Proofs.RuleSet.Listing
import Phrasebook.Proofs.Session.Evaluation
import Phrasebook.Proofs.Session.Growth

namespace Phrasebook

open Session

namespace Setting

variable (setting : Setting)

/-- The callback of the head decides whether the match goes on. -/
def isFilter (head : Head) : Bool :=
  !head.callback.isSilent && setting.rules.isFilter head.callback.id

/-- The match of one head serves the other too. -/
def joins (head next : Head) : Bool :=
  !setting.isFilter head && (head.symbol == next.symbol && !setting.isFilter next)

/-- The heads of a set that allow a gap. -/
def allowed (gap : Option Nat) (set : Nat) : List Head :=
  (setting.rules.heads set).filter (allows · gap)

/-- The allowed heads, cut where one does not share the match of the one before. -/
def runs (gap : Option Nat) (set : Nat) : List (List Head) :=
  (setting.allowed gap set).splitBy setting.joins

/-- No head of one run could share the match of an earlier run. -/
def Apart (runs : List (List Head)) : Prop :=
  runs.Pairwise fun run later => ∀ a ∈ run, ∀ c ∈ later, setting.joins a c = false

/-- Heads that could share a match share it with everything between them. -/
def Contiguous (heads : List Head) : Prop :=
  ∀ a b c, [a, b, c].Sublist heads → setting.joins a c = true → setting.joins a b = true

variable {setting}

theorem joins_iff {a b : Head} : setting.joins a b = true ↔
    setting.isFilter a = false ∧ a.symbol = b.symbol ∧ setting.isFilter b = false := by
  simp [joins]

/-- Heads that share a match share it with the same others. -/
theorem joins_congr {a b : Head} (shared : setting.joins a b = true) (c : Head) :
    setting.joins b c = setting.joins a c := by
  obtain ⟨isPlain, symbol, isPlain'⟩ := joins_iff.mp shared
  simp [joins, isPlain, isPlain', symbol]

theorem joins_of_mem_takeWhile {head a : Head} {rest : List Head}
    (member : a ∈ rest.takeWhile (setting.joins head)) : setting.joins head a = true :=
  List.all_eq_true.mp List.all_takeWhile a member

theorem joins_of_head?_dropWhile {head next : Head} {rest : List Head}
    (isNext : (rest.dropWhile (setting.joins head)).head? = some next) :
    setting.joins head next = false := by
  have fails := List.head?_dropWhile_not (setting.joins head) rest
  rwa [isNext] at fails

/-- All of a run share their match with the same heads. -/
theorem joins_eq_of_mem {head a : Head} {rest : List Head}
    (member : a ∈ head :: rest.takeWhile (setting.joins head)) (c : Head) :
    setting.joins a c = setting.joins head c := by
  rcases List.mem_cons.mp member with rfl | later
  · rfl
  · exact joins_congr (joins_of_mem_takeWhile later) c

/-- The first run goes up to the first head that does not share the match of the first one. -/
theorem splitBy_joins_cons (head : Head) (rest : List Head) :
    (head :: rest).splitBy setting.joins =
      (head :: rest.takeWhile (setting.joins head)) ::
        (rest.dropWhile (setting.joins head)).splitBy setting.joins := by
  have isRun : (head :: rest.takeWhile (setting.joins head)).Pairwise (setting.joins · ·) := by
    apply List.pairwise_cons.mpr
    refine ⟨fun a member => joins_of_mem_takeWhile member, ?_⟩
    apply List.pairwise_of_forall_mem_list
    intro a isA b isB
    rw [joins_congr (joins_of_mem_takeWhile isA)]
    exact joins_of_mem_takeWhile isB
  have cut : ∀ last ∈ (head :: rest.takeWhile (setting.joins head)).getLast?,
      ∀ next ∈ (rest.dropWhile (setting.joins head)).head?, setting.joins last next = false := by
    intro last isLast next isNext
    rw [joins_eq_of_mem (List.mem_of_getLast? isLast)]
    exact joins_of_head?_dropWhile isNext
  calc (head :: rest).splitBy setting.joins
      = ((head :: rest.takeWhile (setting.joins head)) ++
          rest.dropWhile (setting.joins head)).splitBy setting.joins := by
        rw [List.cons_append, List.takeWhile_append_dropWhile]
    _ = _ := by
        rw [List.splitBy_append cut, List.splitBy_of_isChain (List.cons_ne_nil _ _) isRun.isChain]
        rfl

/-- Induction run by run. -/
theorem runs_induction (setting : Setting) {P : List Head → Prop} (nil : P [])
    (run : ∀ head rest, P (rest.dropWhile (setting.joins head)) → P (head :: rest))
    (heads : List Head) : P heads := by
  match heads with
  | [] => exact nil
  | head :: rest => exact run head rest (runs_induction setting nil run _)
termination_by heads.length
decreasing_by exact Nat.lt_succ_of_le (List.dropWhile_sublist _).length_le

/-- What the first run leaves over decides whether heads that share a match are contiguous. -/
theorem contiguous_cons {head : Head} {rest : List Head} :
    setting.Contiguous (head :: rest) ↔
      (∀ c ∈ rest.dropWhile (setting.joins head), setting.joins head c = false) ∧
        setting.Contiguous (rest.dropWhile (setting.joins head)) := by
  constructor
  · intro contiguous
    constructor
    · intro c member
      apply Bool.eq_false_iff.mpr
      intro joined
      cases left : rest.dropWhile (setting.joins head) with
      | nil => simp [left] at member
      | cons next others =>
        have fails : setting.joins head next = false := joins_of_head?_dropWhile (by rw [left]; rfl)
        have within : (next :: others).Sublist rest := left ▸ List.dropWhile_sublist _
        rcases List.mem_cons.mp (left ▸ member) with rfl | between
        · simp [joined] at fails
        · have inOrder : [head, next, c].Sublist (head :: rest) :=
            (((List.singleton_sublist.mpr between).cons_cons next).trans within).cons_cons head
          simp [contiguous head next c inOrder joined] at fails
    · intro a b c inOrder joined
      have within := (List.dropWhile_sublist (setting.joins head) (l := rest)).cons head
      exact contiguous a b c (inOrder.trans within) joined
  · rintro ⟨none, contiguous⟩ a b c inOrder joined
    rw [← List.takeWhile_append_dropWhile (p := setting.joins head) (l := rest),
      ← List.cons_append, List.sublist_append_iff] at inOrder
    obtain ⟨first, second, split, inRun, after⟩ := inOrder
    have notAfter (isA : a ∈ first) : c ∉ second := by
      intro isC
      rw [joins_eq_of_mem (inRun.subset isA), none c (after.subset isC)] at joined
      cases joined
    match first, split with
    | [], split => exact contiguous a b c (split ▸ after) joined
    | [_], split | [_, _], split =>
      simp only [List.cons_append, List.nil_append, List.cons.injEq] at split
      exact absurd (by simp [← split]) (notAfter (by simp [split]))
    | [_, _, _], split =>
      simp only [List.cons_append, List.nil_append, List.cons.injEq] at split
      obtain ⟨rfl, rfl, rfl, _⟩ := split
      rw [joins_eq_of_mem (inRun.subset (by simp))]
      exact joins_of_mem_takeWhile (inRun.tail.subset (by simp))
    | _ :: _ :: _ :: _ :: _, split => simp at split

/-- The runs of some heads are apart exactly if heads that share a match are contiguous. -/
theorem apart_splitBy_iff (heads : List Head) :
    setting.Apart (heads.splitBy setting.joins) ↔ setting.Contiguous heads := by
  induction heads using runs_induction setting with
  | nil => simp [Apart, Contiguous]
  | run head rest ih =>
    have first : (∀ later ∈ (rest.dropWhile (setting.joins head)).splitBy setting.joins,
          ∀ a ∈ head :: rest.takeWhile (setting.joins head), ∀ c ∈ later,
            setting.joins a c = false) ↔
        ∀ c ∈ rest.dropWhile (setting.joins head), setting.joins head c = false := by
      constructor
      · intro apart c member
        rw [← List.flatten_splitBy setting.joins (rest.dropWhile _)] at member
        obtain ⟨later, isLater, isC⟩ := List.mem_flatten.mp member
        exact apart later isLater head List.mem_cons_self c isC
      · intro none later isLater a isA c isC
        rw [joins_eq_of_mem isA]
        apply none
        rw [← List.flatten_splitBy setting.joins (rest.dropWhile _)]
        exact List.mem_flatten.mpr ⟨later, isLater, isC⟩
    rw [splitBy_joins_cons, Apart, List.pairwise_cons, first, contiguous_cons]
    exact and_congr_right' ih

/-- A run is not empty, and all of it shares the match of its first head. -/
theorem joins_of_mem_splitBy {heads : List Head} :
    ∀ run ∈ heads.splitBy setting.joins, ∃ head rest, run = head :: rest ∧
      ∀ next ∈ rest, setting.joins head next = true := by
  induction heads using runs_induction setting with
  | nil => simp
  | run head rest ih =>
    rw [splitBy_joins_cons]
    intro run member
    rcases List.mem_cons.mp member with rfl | later
    · exact ⟨head, _, rfl, fun next => joins_of_mem_takeWhile⟩
    · exact ih run later

end Setting

namespace Session

variable {setting : Setting} {handler : Handler} {site : Match} {gap : Option Nat}

/-- Counts matches that there was no room for. -/
def drop (s : Session) (count : Nat) : Session :=
  { s with stats := { s.stats with dropped := s.stats.dropped + count } }

/-- Has callbacks of one match answered in order. -/
def fireAll (handler : Handler) (id : MatchId) (s : Session) (heads : List Head) : Session :=
  heads.foldl (fun s head => s.fire handler id head.callback) s

/-- Makes the match of a run: it has the first callback fired, is queued unless that is a filter, and
then has the other callbacks fired. Without room each head counts as a dropped match. -/
def makeRun (setting : Setting) (handler : Handler) (site : Match) (s : Session) :
    (run : List Head) → Session
  | [] => s
  | head :: rest =>
    match s.allocate setting.capacity { site with symbol := head.symbol } with
    | (s, none) => s.drop rest.length
    | (s, some id) =>
      let s := s.fire handler id head.callback
      fireAll handler id (if setting.isFilter head then s else s.enqueue id) rest

theorem execute_cons_allowed (s : Session) (shared : Option (MatchId × Symbol)) {head : Head}
    (rest : List Head) (allowed : allows head gap = true) :
    execute setting handler site gap shared s (head :: rest) =
      match shared.filter fun (_, symbol) => symbol == head.symbol && !setting.isFilter head with
      | some (id, symbol) =>
        execute setting handler site gap (some (id, symbol)) (s.fire handler id head.callback) rest
      | none =>
        match s.allocate setting.capacity { site with symbol := head.symbol } with
        | (s, none) => execute setting handler site gap none s rest
        | (s, some id) =>
          if setting.isFilter head then
            execute setting handler site gap none (s.fire handler id head.callback) rest
          else
            execute setting handler site gap (some (id, head.symbol))
              ((s.fire handler id head.callback).enqueue id) rest := by
  rw [execute, if_neg (by simp [allowed])]
  rfl

/-- Heads that do not allow the gap count for nothing. -/
theorem execute_filter (shared : Option (MatchId × Symbol)) (s : Session) (heads : List Head) :
    execute setting handler site gap shared s heads =
      execute setting handler site gap shared s (heads.filter (allows · gap)) := by
  induction heads generalizing shared s with
  | nil => rfl
  | cons head rest ih =>
    cases allowed : allows head gap with
    | false =>
      rw [execute, if_pos (by simp [allowed]),
        List.filter_cons_of_neg (p := (allows · gap)) (by simp [allowed])]
      exact ih shared s
    | true =>
      rw [List.filter_cons_of_pos (p := (allows · gap)) allowed,
        execute_cons_allowed s shared _ allowed, execute_cons_allowed s shared _ allowed]
      split
      · exact ih _ _
      · split
        · exact ih _ _
        · split <;> exact ih _ _

/-- A match has callbacks fired as long as heads share it. -/
theorem execute_shared (s : Session) (id : MatchId) {first : Head}
    (isPlain : setting.isFilter first = false) (heads : List Head)
    (allowed : ∀ head ∈ heads, allows head gap = true) :
    execute setting handler site gap (some (id, first.symbol)) s heads =
      execute setting handler site gap none
        (fireAll handler id s (heads.takeWhile (setting.joins first)))
        (heads.dropWhile (setting.joins first)) := by
  induction heads generalizing s with
  | nil => rfl
  | cons head rest ih =>
    obtain ⟨here, later⟩ := List.forall_mem_cons.mp allowed
    have known : (some (id, first.symbol)).filter
          (fun (_, symbol) => symbol == head.symbol && !setting.isFilter head) =
        if setting.joins first head then some (id, first.symbol) else none := by
      simp [Option.filter_some, Setting.joins, isPlain]
    rw [execute_cons_allowed s _ _ here, known]
    cases joined : setting.joins first head with
    | true =>
      rw [List.takeWhile_cons_of_pos joined, List.dropWhile_cons_of_pos joined]
      exact ih _ later
    | false =>
      rw [List.takeWhile_cons_of_neg (by simp [joined]), List.dropWhile_cons_of_neg (by simp [joined])]
      exact (execute_cons_allowed s none _ here).symm

/-- In a full arena every head drops its match. -/
theorem execute_full {s : Session} (full : setting.capacity ≤ s.arena.size) (heads : List Head)
    (allowed : ∀ head ∈ heads, allows head gap = true) :
    execute setting handler site gap none s heads = s.drop heads.length := by
  induction heads generalizing s with
  | nil => rfl
  | cons head rest ih =>
    obtain ⟨here, later⟩ := List.forall_mem_cons.mp allowed
    rw [execute_cons_allowed s none _ here]
    simp only [Option.filter_none, allocate, if_neg (Nat.not_lt.mpr full)]
    rw [ih (by exact full) later]
    simp [drop, Nat.add_comm, Nat.add_left_comm]

/-- The execution of a set of heads begins with the first run. -/
theorem execute_run (s : Session) (head : Head) (rest : List Head)
    (allowed : ∀ next ∈ head :: rest, allows next gap = true) :
    execute setting handler site gap none s (head :: rest) =
      execute setting handler site gap none
        (makeRun setting handler site s (head :: rest.takeWhile (setting.joins head)))
        (rest.dropWhile (setting.joins head)) := by
  obtain ⟨here, later⟩ := List.forall_mem_cons.mp allowed
  have laterLeft : ∀ next ∈ rest.dropWhile (setting.joins head), allows next gap = true :=
    fun next member => later next ((List.dropWhile_sublist _).subset member)
  rw [execute_cons_allowed s none _ here, Option.filter_none]
  dsimp only [makeRun]
  rcases allocate_cases s setting.capacity { site with symbol := head.symbol } with
    ⟨_, made⟩ | ⟨full, dropped⟩
  · rw [made]
    cases isFilter : setting.isFilter head with
    | true =>
      have alone (next : Head) : setting.joins head next = false := by
        simp [Setting.joins, isFilter]
      cases rest with
      | nil => rfl
      | cons next others =>
        rw [List.takeWhile_cons_of_neg (by simp [alone]), List.dropWhile_cons_of_neg (by simp [alone])]
        rfl
    | false => exact execute_shared _ _ isFilter rest later
  · have cut := congrArg List.length
      (List.takeWhile_append_dropWhile (p := setting.joins head) (l := rest))
    rw [List.length_append] at cut
    rw [dropped]
    dsimp only
    rw [execute_full (by exact full) rest later, execute_full (by exact full) _ laterLeft, ← cut]
    simp [drop, Nat.add_assoc]

/-- Run after run, for any answers to the callbacks. -/
theorem execute_eq_foldl_runs (s : Session) (heads : List Head)
    (allowed : ∀ head ∈ heads, allows head gap = true) :
    execute setting handler site gap none s heads =
      (heads.splitBy setting.joins).foldl (makeRun setting handler site) s := by
  induction heads using Setting.runs_induction setting generalizing s with
  | nil => rfl
  | run head rest ih =>
    rw [execute_run s head rest allowed, Setting.splitBy_joins_cons, List.foldl_cons]
    apply ih
    intro next member
    exact allowed next (List.mem_cons_of_mem _ ((List.dropWhile_sublist _).subset member))

/-- Executing a head set makes one match for each run of its allowed heads, in order. A run is one
filter or consists of heads of one symbol without filters. All heads of a symbol that are no filters
share one match exactly if no other allowed head stands between them. -/
theorem executeSet_makes_runs (setting : Setting) (handler : Handler) (site : Match)
    (gap : Option Nat) (s : Session) (set : Nat) :
    executeSet setting handler site gap s (some set) =
        (setting.runs gap set).foldl (makeRun setting handler site) s ∧
      (setting.runs gap set).flatten = setting.allowed gap set ∧
      (∀ run ∈ setting.runs gap set, ∃ head rest, run = head :: rest ∧
        ∀ next ∈ rest, setting.isFilter head = false ∧ head.symbol = next.symbol ∧
          setting.isFilter next = false) ∧
      (setting.Apart (setting.runs gap set) ↔ setting.Contiguous (setting.allowed gap set)) := by
  refine ⟨?_, List.flatten_splitBy _ _, ?_, Setting.apart_splitBy_iff _⟩
  · rw [executeSet, execute_filter]
    exact execute_eq_foldl_runs s _ fun head member => (List.mem_filter.mp member).2
  · intro run member
    obtain ⟨head, rest, isRun, joined⟩ := Setting.joins_of_mem_splitBy run member
    exact ⟨head, rest, isRun, fun next isNext => Setting.joins_iff.mp (joined next isNext)⟩

end Session

/-- Two root rules for one nonterminal and, between them, a rule of another one. -/
def Grammar.interrupted : Grammar :=
  (((ofShards []).after (.rule "<1>" ["1"] (.root 7))).after (.rule "<2>" ["1"] {})).after
    (.rule "<1>" ["1"] (.root 8))

theorem Grammar.interrupted_eq : interrupted =
    { shards := [[]]
      nonterminals := #[{ name := "<1>" }, { name := "<2>" }]
      rules :=
        #[{ lhs := 0, rhs := [.literal "1"], options := .root 7 },
          { lhs := 1, rhs := [.literal "1"], options := {} },
          { lhs := 0, rhs := [.literal "1"], options := .root 8 }]
      lists := #[[0, 2], [1]] } := by
  unfold interrupted after Declaration.declare add addRule
  rw [distinct_eq_eraseDups]
  with_unfolding_all rfl

/-- The middle one of three heads of a literal keeps the outer ones from sharing a match, and reading
the literal gives matches of the given symbols. -/
def Grammar.interrupts (g : Grammar) (text : String) (symbols : List Symbol) : Bool :=
  match g.compile false with
  | .ok rules =>
    let setting := Setting.ofRules rules [] 1000
    let interrupted (set : Nat) : Bool :=
      match setting.allowed none set with
      | [a, b, c] => setting.joins a c && !setting.joins a b
      | _ => false
    (rules.findTerminal 0 text false).any interrupted &&
      (Pass.run setting (tokenize text) []).arena.entries.toList.map (·.symbol) == symbols
  | .error _ => false

theorem Grammar.interrupted_interrupts : interrupted.interrupts "1" [1, 2, 1] = true := by
  rw [interrupted_eq]
  unfold interrupts compile RuleSet.compile Pass.run
  rw [RuleSet.encode_eq_listed, Pass.session_eq_sessionIn 500]
  decide +kernel

theorem Session.executeSet_makes_runs_interrupted :
    ∃ rules set, Grammar.interrupted.compile false = .ok rules ∧
      rules.findTerminal 0 "1" false = some set ∧
      ¬ (Setting.ofRules rules [] 1000).Apart ((Setting.ofRules rules [] 1000).runs none set) ∧
      (Pass.run (.ofRules rules [] 1000) (tokenize "1") []).arena.entries.toList.map (·.symbol) =
        [1, 2, 1] := by
  have interrupts := Grammar.interrupted_interrupts
  unfold Grammar.interrupts at interrupts
  split at interrupts
  · next rules compiled =>
    simp only [Bool.and_eq_true, Option.any_eq_true, beq_iff_eq] at interrupts
    obtain ⟨⟨set, found, interrupted⟩, symbols⟩ := interrupts
    obtain ⟨-, -, -, apart⟩ := executeSet_makes_runs (.ofRules rules [] 1000) .collector
      { symbol := 0, span := ⟨0, 1⟩, offset := 0 } none {} set
    refine ⟨rules, set, compiled, found, ?_, symbols⟩
    rw [apart]
    intro contiguous
    split at interrupted
    · next a b c heads =>
      rw [Bool.and_eq_true, Bool.not_eq_true'] at interrupted
      have shared := contiguous a b c (heads ▸ List.Sublist.refl _) interrupted.1
      rw [interrupted.2] at shared
      cases shared
    · cases interrupted
  · cases interrupts

end Phrasebook
