import Phrasebook.Proofs.Derivation.Unfolding
import Phrasebook.Proofs.Session.Machine
import Phrasebook.RuleSet.Encode

namespace Phrasebook

open Session

/-- Pieces in order, each with the end of the one before it. -/
def Feed.place (last : Nat) : List Token → List (Nat × Token)
  | [] => []
  | piece :: rest => (last, piece) :: place piece.span.stop rest

namespace Setting

variable (setting : Setting)

/-- The head belongs to a literal of an active shard that reads `text`, exactly or but for case. -/
def HeadOfText (text : String) (h : Head) : Prop :=
  ∃ shard ∈ setting.shards, ∃ set, h ∈ setting.rules.heads set ∧
    (setting.rules.findTerminal shard text true = some set ∨
      setting.rules.findTerminal shard (Lowercase.text text) false = some set)

/-- The head belongs to a unary rule of an active shard. -/
def HeadOfOne (operand : Symbol) (h : Head) : Prop :=
  ∃ shard ∈ setting.shards, ∃ set, h ∈ setting.rules.heads set ∧
    setting.rules.findUnary shard operand = some set

/-- The head belongs to a binary rule of an active shard. -/
def HeadOfTwo (left right : Symbol) (h : Head) : Prop :=
  ∃ shard ∈ setting.shards, ∃ set, h ∈ setting.rules.heads set ∧
    setting.rules.findBinary shard left right = some set

/-- The head belongs to some rule of an active shard. -/
def HasHead (h : Head) : Prop :=
  (∃ text, setting.HeadOfText text h) ∨ (∃ operand, setting.HeadOfOne operand h) ∨
    ∃ left right, setting.HeadOfTwo left right h

end Setting

/-- The structural symbol `symbol` fits a piece of text. -/
inductive Structural.Symbols.Fits (structural : Structural.Symbols) (piece : Token) :
    Symbol → Prop
  | token : Fits structural piece structural.token
  | uppercase (h : (Makeup.ofText piece.value).isUppercase = true) :
      Fits structural piece structural.uppercaseToken
  | digits (h : (Makeup.ofText piece.value).isDigits = true) :
      Fits structural piece structural.digits
  | run (h : (Makeup.ofText piece.value).isDigits = true)
      (short : piece.span.length ≤ Structural.longestRun) :
      Fits structural piece (structural.digitRun piece.span.length)

/-- A match that needs no rule: an end of the text, a piece by its makeup, or a label of the caller
whose name is bound. -/
inductive Supplied (rules : RuleSet) (tokens : List Token) (labels : List Label) : Match → Prop
  | start (used : rules.layout.structural.start ≠ 0) :
      Supplied rules tokens labels
        { symbol := rules.layout.structural.start, span := ⟨0, 0⟩, offset := 0 }
  | stop (used : rules.layout.structural.stop ≠ 0) (last : Nat)
      (h : last = (((solidPieces tokens).getLast?).map (·.span.stop)).getD 0) :
      Supplied rules tokens labels
        { symbol := rules.layout.structural.stop, span := ⟨last, last⟩, offset := last }
  | piece (offset : Nat) (piece : Token) (symbol : Symbol) (used : symbol ≠ 0)
      (member : (offset, piece) ∈ Feed.place 0 (solidPieces tokens))
      (fits : rules.layout.structural.Fits piece symbol) :
      Supplied rules tokens labels { symbol, span := piece.span, offset }
  | label (label : Label) (index : Nat) (symbol : Symbol) (used : symbol ≠ 0)
      (member : labels[index]? = some label) (bound : rules.label? label.name = some symbol) :
      Supplied rules tokens labels
        { symbol, span := label.span, offset := Feed.labelOffset (solidPieces tokens) label,
          kind := .label index }

/-- The head `h` yields the match `m`: its literal reads the piece where `m` stands, or its rule is
completed by the children of `m`. -/
def Yields (setting : Setting) (tokens : List Token) (a : Arena) (h : Head) (m : Match) : Prop :=
  h.symbol = m.symbol ∧
  match m.children with
  | .none =>
    ∃ offset piece, (offset, piece) ∈ Feed.place 0 (solidPieces tokens) ∧
      m.span = piece.span ∧ m.offset = offset ∧ setting.HeadOfText piece.value h
  | .one child =>
    ∃ c, a.get? child = some c ∧ m.span = c.span ∧ m.offset = c.offset ∧
      setting.HeadOfOne c.symbol h
  | .two left right =>
    left ≠ right ∧ ∃ l r, a.get? left = some l ∧ a.get? right = some r ∧
      r.offset = l.span.stop ∧ m.span = ⟨l.span.start, r.span.stop⟩ ∧ m.offset = l.offset ∧
      setting.HeadOfTwo l.symbol r.symbol h ∧ (h.gap < 0 ∨ (r.gap : Int) ≤ h.gap.toInt)

/-- The match `m` with the id `id` was made from smaller ones, and for a reason. -/
structure Justified (setting : Setting) (tokens : List Token) (labels : List Label) (a : Arena)
    (id : Nat) (m : Match) : Prop where
  smaller : ∀ child ∈ m.children.toList, child < id
  reason : (m.children = .none ∧ Supplied setting.rules tokens labels m) ∨
    ∃ h, Yields setting tokens a h m

/-- A derivation names a match that one of its rule's heads yields. -/
def Derivation.Earned (setting : Setting) (tokens : List Token) (a : Arena) (d : Derivation) :
    Prop :=
  ∃ m h, a.get? d.root = some m ∧ h.callback = ⟨Builtin.rootRule.id, d.ruleId⟩ ∧
    Yields setting tokens a h m

section
variable {setting : Setting} {tokens : List Token} {labels : List Label}

/-- What yields a match belongs to a rule. -/
theorem Yields.hasHead {a : Arena} {h : Head} {m : Match} (yields : Yields setting tokens a h m) :
    setting.HasHead h := by
  obtain ⟨_, reason⟩ := yields
  cases children : m.children with
  | none =>
    simp only [children] at reason
    obtain ⟨_, piece, _, _, _, found⟩ := reason
    exact .inl ⟨piece.value, found⟩
  | one child =>
    simp only [children] at reason
    obtain ⟨c, _, _, _, found⟩ := reason
    exact .inr (.inl ⟨c.symbol, found⟩)
  | two left right =>
    simp only [children] at reason
    obtain ⟨_, l, r, _, _, _, _, _, found, _⟩ := reason
    exact .inr (.inr ⟨l.symbol, r.symbol, found⟩)

theorem Yields.keeps {a b : Arena} {h : Head} {m : Match} (keeps : a.Keeps b)
    (yields : Yields setting tokens a h m) : Yields setting tokens b h m := by
  obtain ⟨symbol, reason⟩ := yields
  refine ⟨symbol, ?_⟩
  cases children : m.children with
  | none => simpa only [children] using reason
  | one child =>
    simp only [children] at reason ⊢
    obtain ⟨c, found, rest⟩ := reason
    obtain ⟨kind, found'⟩ := keeps child c found
    exact ⟨{ c with kind }, found', rest⟩
  | two left right =>
    simp only [children] at reason ⊢
    obtain ⟨ne, l, r, foundl, foundr, rest⟩ := reason
    obtain ⟨kl, foundl'⟩ := keeps left l foundl
    obtain ⟨kr, foundr'⟩ := keeps right r foundr
    exact ⟨ne, { l with kind := kl }, { r with kind := kr }, foundl', foundr', rest⟩

theorem Yields.setKind {a : Arena} {h : Head} {m : Match} (kind : MatchKind)
    (yields : Yields setting tokens a h m) : Yields setting tokens a h { m with kind } :=
  yields

/-- The children of a match that a head yields are in the arena. -/
theorem Yields.children_lt {a : Arena} {h : Head} {m : Match}
    (yields : Yields setting tokens a h m) : ∀ child ∈ m.children.toList, child < a.size := by
  intro child member
  obtain ⟨_, reason⟩ := yields
  cases children : m.children with
  | none => simp [children, Children.toList] at member
  | one only =>
    simp only [children] at reason
    obtain ⟨c, found, _⟩ := reason
    have same : child = only := by simpa [children, Children.toList] using member
    exact same ▸ Arena.lt_size_of_get? found
  | two left right =>
    simp only [children] at reason
    obtain ⟨_, l, r, foundl, foundr, _⟩ := reason
    have either : child = left ∨ child = right := by
      simpa [children, Children.toList] using member
    rcases either with rfl | rfl
    · exact Arena.lt_size_of_get? foundl
    · exact Arena.lt_size_of_get? foundr

theorem Justified.keeps {a b : Arena} {id : Nat} {m : Match} (keeps : a.Keeps b)
    (justified : Justified setting tokens labels a id m) :
    Justified setting tokens labels b id m := by
  refine ⟨justified.smaller, ?_⟩
  rcases justified.reason with supplied | ⟨h, yields⟩
  · exact .inl supplied
  · exact .inr ⟨h, yields.keeps keeps⟩

theorem Derivation.Earned.keeps {a b : Arena} {d : Derivation} (keeps : a.Keeps b)
    (earned : d.Earned setting tokens a) : d.Earned setting tokens b := by
  obtain ⟨m, h, found, callback, yields⟩ := earned
  obtain ⟨kind, found'⟩ := keeps _ _ found
  exact ⟨{ m with kind }, h, found', callback, (yields.keeps keeps).setKind kind⟩

end

/-- What the matcher is handed comes from the text: a piece of it, or a symbol it supplies. -/
def FeedItem.Due (rules : RuleSet) (tokens : List Token) (labels : List Label) : FeedItem → Prop
  | .terminal span offset text =>
    ∃ piece, (offset, piece) ∈ Feed.place 0 (solidPieces tokens) ∧ span = piece.span ∧
      text = piece.value
  | .symbol m => m.children = .none ∧ Supplied rules tokens labels m

/-- The work under way makes no match without a reason. -/
def Task.Sound (setting : Setting) (tokens : List Token) (labels : List Label) (a : Arena) :
    Task → Prop
  | .execute site gap shared heads =>
    (∀ h ∈ heads, allows h gap = true →
      Yields setting tokens a h { site with symbol := h.symbol }) ∧
    ∀ id symbol, shared = some (id, symbol) → ∃ kind, a.get? id = some { site with symbol, kind }
  | .fire id callback =>
    ∃ m h, a.get? id = some m ∧ h.callback = callback ∧ Yields setting tokens a h m
  | .lookLeft shard id m => shard ∈ setting.shards ∧ ∃ kind, a.get? id = some { m with kind }
  | .combine shard id m lefts =>
    shard ∈ setting.shards ∧ (∃ kind, a.get? id = some { m with kind }) ∧
    ∀ left ∈ lefts, left ≠ id ∧ ∃ l, a.get? left = some l ∧ l.span.stop = m.offset
  | .propagate id m shards =>
    (∀ shard ∈ shards, shard ∈ setting.shards) ∧ ∃ kind, a.get? id = some { m with kind }
  | .literals site text folded shards =>
    (∀ shard ∈ shards, shard ∈ setting.shards) ∧ folded = Lowercase.text text ∧
    ∃ offset piece, (offset, piece) ∈ Feed.place 0 (solidPieces tokens) ∧
      site = siteOfText piece.span offset ∧ text = piece.value
  | .feed items => ∀ item ∈ items, item.Due setting.rules tokens labels
  | .enqueue id | .enter id => id < a.size
  | .drain | .settle | .process => True

/-- Every match and every derivation has a reason, the chart holds matches under their stops, and the
queue holds matches. -/
structure Session.Sound (setting : Setting) (tokens : List Token) (labels : List Label)
    (s : Session) : Prop where
  arena : ∀ id m, s.arena.get? id = some m → Justified setting tokens labels s.arena id m
  sorted : s.chart.Sorted
  chart : ∀ stop, ∀ id ∈ s.chart.endingAt stop, ∃ m, s.arena.get? id = some m ∧ m.span.stop = stop
  derivations : ∀ d ∈ s.derivations, d.Earned setting tokens s.arena
  pending : ∀ id ∈ s.pending, id < s.arena.size

section
variable {setting : Setting} {tokens : List Token} {labels : List Label}

theorem Task.Sound.keeps {a b : Arena} {task : Task} (keeps : a.Keeps b)
    (sound : task.Sound setting tokens labels a) : task.Sound setting tokens labels b := by
  have same {id : Nat} {m : Match} (h : ∃ kind, a.get? id = some { m with kind }) :
      ∃ kind, b.get? id = some { m with kind } := by
    obtain ⟨kind, found⟩ := h
    obtain ⟨kind', found'⟩ := keeps _ _ found
    exact ⟨kind', found'⟩
  cases task with
  | execute site gap shared heads =>
    exact ⟨fun h member allowed => (sound.1 h member allowed).keeps keeps,
      fun id symbol h => same (m := { site with symbol }) (sound.2 id symbol h)⟩
  | fire id callback =>
    obtain ⟨m, h, found, eq, yields⟩ := sound
    obtain ⟨kind, found'⟩ := keeps _ _ found
    exact ⟨_, h, found', eq, (yields.keeps keeps).setKind kind⟩
  | lookLeft => exact ⟨sound.1, same sound.2⟩
  | combine shard id m lefts =>
    refine ⟨sound.1, same sound.2.1, fun left member => ?_⟩
    obtain ⟨ne, l, found, stop⟩ := sound.2.2 left member
    obtain ⟨kind, found'⟩ := keeps _ _ found
    exact ⟨ne, _, found', stop⟩
  | propagate => exact ⟨sound.1, same sound.2⟩
  | enqueue | enter => exact Nat.lt_of_lt_of_le sound keeps.size_le
  | literals | feed | drain | settle | process => exact sound

/-- Changes to anything but arena, chart, derivations and queue do not matter. -/
theorem Session.Sound.congr {s t : Session} (sound : s.Sound setting tokens labels)
    (arena : t.arena = s.arena) (chart : t.chart = s.chart)
    (derivations : t.derivations = s.derivations) (pending : t.pending ⊆ s.pending) :
    t.Sound setting tokens labels := by
  refine ⟨?_, chart ▸ sound.sorted, ?_, ?_, ?_⟩
  · rw [arena]; exact sound.arena
  · rw [arena, chart]; exact sound.chart
  · rw [arena, derivations]; exact sound.derivations
  · rw [arena]; exact fun id member => sound.pending id (pending member)

theorem Session.Sound.enqueue {s : Session} {id : MatchId} (sound : s.Sound setting tokens labels)
    (known : id < s.arena.size) : (s.enqueue id).Sound setting tokens labels :=
  { sound with pending := List.forall_mem_cons.mpr ⟨known, sound.pending⟩ }

theorem Session.Sound.push {s t : Session} {m : Match} (sound : s.Sound setting tokens labels)
    (new : Justified setting tokens labels s.arena s.arena.size m)
    (arena : t.arena = s.arena.push m) (chart : t.chart = s.chart)
    (derivations : t.derivations = s.derivations) (pending : t.pending = s.pending) :
    t.Sound setting tokens labels := by
  have keeps : s.arena.Keeps t.arena := arena ▸ .push _ _
  refine
    { arena := fun id other found => ?arena
      sorted := chart ▸ sound.sorted
      chart := fun stop id member => ?chart
      derivations := ?derivations
      pending := fun id member => ?pending }
  case arena =>
    rw [arena, Arena.get?_push] at found
    split at found
    · next last => exact Option.some.inj found ▸ last ▸ new.keeps keeps
    · exact (sound.arena id other found).keeps keeps
  case chart =>
    obtain ⟨l, found, eq⟩ := sound.chart stop id (chart ▸ member)
    obtain ⟨kind, found'⟩ := keeps _ _ found
    exact ⟨_, found', eq⟩
  case derivations =>
    rw [derivations]
    exact fun d member => (sound.derivations d member).keeps keeps
  case pending => exact Nat.lt_of_lt_of_le (sound.pending id (pending ▸ member)) keeps.size_le

theorem Session.Sound.fire {s : Session} {id : MatchId} {callback : Callback}
    (sound : s.Sound setting tokens labels)
    (due : (Task.fire id callback).Sound setting tokens labels s.arena) :
    (s.fire .collector id callback).Sound setting tokens labels := by
  have answers := fire_answers s id callback
  have keeps := answers.keeps
  obtain ⟨m, h, found, eq, yields⟩ := due
  refine
    { arena := fun other n found' => ?arena
      sorted := answers.chart ▸ sound.sorted
      chart := fun stop other member => ?chart
      derivations := fun d member => ?derivations
      pending := fun other member => ?pending }
  case arena =>
    by_cases same : id = other
    · subst same
      have smaller := (sound.arena _ m found).smaller
      obtain ⟨kind, kept⟩ := keeps _ _ found
      have eq : n = { m with kind } := Option.some.inj (found'.symm.trans kept)
      exact eq ▸ ⟨smaller, .inr ⟨h, (yields.keeps keeps).setKind kind⟩⟩
    · rw [answers.get?_ne same] at found'
      exact (sound.arena other n found').keeps keeps
  case chart =>
    obtain ⟨l, found', eq⟩ := sound.chart stop other (answers.chart ▸ member)
    obtain ⟨kind, kept⟩ := keeps _ _ found'
    exact ⟨_, kept, eq⟩
  case derivations =>
    rcases answers.derivations with same | ⟨root, pushed⟩
    · exact (sound.derivations d (same ▸ member)).keeps keeps
    · rw [pushed, Array.mem_push] at member
      rcases member with old | rfl
      · exact (sound.derivations d old).keeps keeps
      · have earned : Derivation.Earned setting tokens s.arena ⟨callback.param, id⟩ := by
          refine ⟨m, h, found, ?_, yields⟩
          rw [eq, ← root]
        exact earned.keeps keeps
  case pending =>
    rw [answers.size]
    rcases answers.pending with same | queued
    · exact sound.pending other (same ▸ member)
    · rcases List.mem_cons.mp (queued ▸ member) with rfl | waits
      · exact Arena.lt_size_of_get? found
      · exact sound.pending other waits

theorem Session.Sound.insert {s : Session} {id : MatchId} {m : Match}
    (sound : s.Sound setting tokens labels) (found : s.arena.get? id = some m) :
    ({ s with chart := s.chart.insert m.span.stop id } : Session).Sound setting tokens labels := by
  refine ⟨sound.arena, sound.sorted.insert _ _, fun stop other member => ?_, sound.derivations,
    sound.pending⟩
  simp only [Chart.endingAt_insert sound.sorted] at member
  split at member
  · next same =>
    rcases List.mem_cons.mp member with rfl | old
    · exact ⟨m, found, same.symm⟩
    · exact sound.chart stop other old
  · exact sound.chart stop other member

/-- A step whose task is sound leaves a sound session and sound tasks behind. -/
def Task.Leads (setting : Setting) (tokens : List Token) (labels : List Label) (a : Arena)
    (r : Session × List Task) : Prop :=
  r.1.Sound setting tokens labels ∧ a.Keeps r.1.arena ∧
    ∀ task ∈ r.2, task.Sound setting tokens labels r.1.arena

theorem Task.Leads.of_same {s : Session} {tasks : List Task} (sound : s.Sound setting tokens labels)
    (due : ∀ task ∈ tasks, task.Sound setting tokens labels s.arena) :
    Task.Leads setting tokens labels s.arena (s, tasks) :=
  ⟨sound, .refl _, due⟩

theorem Task.sound_ofSet {a : Arena} {site : Match} {gap : Option Nat} {set : Option Nat}
    (yields : ∀ i, set = some i → ∀ h ∈ setting.rules.heads i, allows h gap = true →
      Yields setting tokens a h { site with symbol := h.symbol }) :
    (Task.ofSet setting site gap set).Sound setting tokens labels a := by
  cases set with
  | none => exact ⟨by simp, by simp⟩
  | some i => exact ⟨fun h member => yields i rfl h (by simpa using member), by simp⟩

theorem Task.leads_stepHead {s : Session} {site : Match} {gap : Option Nat}
    {shared : Option (MatchId × Symbol)} {head : Head} {rest : List Head}
    (sound : s.Sound setting tokens labels)
    (due : (Task.execute site gap shared (head :: rest)).Sound setting tokens labels s.arena) :
    Task.Leads setting tokens labels s.arena
      (Task.stepHead setting s site gap shared head rest) := by
  obtain ⟨yields, same⟩ := due
  have later (a : Arena) (keeps : s.arena.Keeps a) (h : Head) (member : h ∈ rest)
      (allowed : allows h gap = true) :
      Yields setting tokens a h { site with symbol := h.symbol } :=
    (yields h (List.mem_cons_of_mem _ member) allowed).keeps keeps
  simp only [Task.stepHead]
  split
  · refine .of_same sound ?_
    simp only [List.mem_singleton, forall_eq]
    exact ⟨later _ (.refl _), same⟩
  · next allowed =>
    have yield := yields head List.mem_cons_self (by simpa using allowed)
    split
    · next id symbol found =>
      obtain ⟨isShared, fits⟩ := Option.filter_eq_some_iff.mp found
      obtain ⟨kind, there⟩ := same id symbol isShared
      have eq : symbol = head.symbol := by
        simp only [Bool.and_eq_true, beq_iff_eq] at fits
        exact fits.1
      subst eq
      refine .of_same sound ?_
      simp only [List.mem_cons, List.not_mem_nil, or_false, forall_eq_or_imp, forall_eq]
      refine ⟨⟨_, head, there, rfl, yield.setKind kind⟩, later _ (.refl _), ?_⟩
      rintro _ _ ⟨⟩
      exact ⟨kind, there⟩
    · rcases allocate_cases s setting.capacity { site with symbol := head.symbol } with
        ⟨room, made⟩ | ⟨full, dropped⟩
      · rw [made]
        have keeps := Arena.Keeps.push s.arena { site with symbol := head.symbol }
        have new : Justified setting tokens labels s.arena s.arena.size
            { site with symbol := head.symbol } :=
          ⟨yield.children_lt, .inr ⟨head, yield⟩⟩
        have there : (s.arena.push { site with symbol := head.symbol }).get? s.arena.size =
            some { site with symbol := head.symbol } := by
          rw [Arena.get?_push, if_pos rfl]
        have fires : (Task.fire s.arena.size head.callback).Sound setting tokens labels
            (s.arena.push { site with symbol := head.symbol }) :=
          ⟨_, head, there, rfl, yield.keeps keeps⟩
        dsimp only
        split
        · refine ⟨sound.push new rfl rfl rfl rfl, keeps, ?_⟩
          simp only [List.mem_cons, List.not_mem_nil, or_false, forall_eq_or_imp, forall_eq]
          exact ⟨fires, later _ keeps, by simp⟩
        · refine ⟨sound.push new rfl rfl rfl rfl, keeps, ?_⟩
          simp only [List.mem_cons, List.not_mem_nil, or_false, forall_eq_or_imp, forall_eq]
          refine ⟨fires, Arena.lt_size_of_get? there, later _ keeps, ?_⟩
          rintro _ _ ⟨⟩
          exact ⟨site.kind, there⟩
      · rw [dropped]
        refine ⟨sound.congr rfl rfl rfl (List.Subset.refl _), .refl _, ?_⟩
        simp only [List.mem_singleton, forall_eq]
        exact ⟨later _ (.refl _), by simp⟩

theorem Task.sound_pair {a : Arena} {shard : Nat} {left id : MatchId} {l m : Match}
    (active : shard ∈ setting.shards) (there : ∃ kind, a.get? id = some { m with kind })
    (ne : left ≠ id) (found : a.get? left = some l) (stop : l.span.stop = m.offset) :
    (Task.ofSet setting (siteOfPair left l id m) (some m.gap)
      (setting.rules.findBinary shard l.symbol m.symbol)).Sound setting tokens labels a := by
  refine Task.sound_ofSet fun set isSet h member allowed => ?_
  obtain ⟨kind, there⟩ := there
  have within : h.gap < 0 ∨ (m.gap : Int) ≤ h.gap.toInt := by
    simpa only [allows, Bool.or_eq_true, decide_eq_true_eq] using allowed
  exact ⟨rfl, ne, l, _, found, there, stop.symm, rfl, rfl, ⟨shard, active, set, member, isSet⟩,
    within⟩

theorem Task.sound_one {a : Arena} {shard : Nat} {id : MatchId} {m : Match}
    (active : shard ∈ setting.shards) (there : ∃ kind, a.get? id = some { m with kind }) :
    (Task.ofSet setting (siteOfOne id m) none
      (setting.rules.findUnary shard m.symbol)).Sound setting tokens labels a := by
  refine Task.sound_ofSet fun set isSet h member _ => ?_
  obtain ⟨kind, there⟩ := there
  exact ⟨rfl, _, there, rfl, rfl, shard, active, set, member, isSet⟩

theorem Task.sound_text {a : Arena} {shard offset : Nat} {piece : Token} {text : String}
    {exact : Bool} (active : shard ∈ setting.shards)
    (placed : (offset, piece) ∈ Feed.place 0 (solidPieces tokens))
    (read : text = piece.value ∧ exact = true ∨ text = Lowercase.text piece.value ∧ exact = false) :
    (Task.ofSet setting (siteOfText piece.span offset) none
      (setting.rules.findTerminal shard text exact)).Sound setting tokens labels a := by
  refine Task.sound_ofSet fun set isSet h member _ => ?_
  refine ⟨rfl, offset, piece, placed, rfl, rfl, shard, active, set, member, ?_⟩
  rcases read with ⟨rfl, rfl⟩ | ⟨rfl, rfl⟩
  · exact .inl isSet
  · exact .inr isSet

section
variable {s : Session}

theorem Task.leads_combine {shard : Nat} {id : MatchId} {m : Match} {lefts : List MatchId}
    (sound : s.Sound setting tokens labels)
    (due : (Task.combine shard id m lefts).Sound setting tokens labels s.arena) :
    Task.Leads setting tokens labels s.arena
      ((Task.combine shard id m lefts).step setting .collector s) := by
  cases lefts with
  | nil => exact .of_same sound (by simp)
  | cons left rest =>
    obtain ⟨active, there, each⟩ := due
    obtain ⟨ne, l, found, stop⟩ := each left List.mem_cons_self
    have others : (Task.combine shard id m rest).Sound setting tokens labels s.arena :=
      ⟨active, there, fun other member => each other (List.mem_cons_of_mem _ member)⟩
    simp only [Task.step, found]
    refine .of_same sound ?_
    simp only [List.mem_cons, List.not_mem_nil, or_false, forall_eq_or_imp, forall_eq]
    exact ⟨Task.sound_pair active there ne found stop, others⟩

theorem Task.leads_propagate {id : MatchId} {m : Match} {shards : List Nat}
    (sound : s.Sound setting tokens labels)
    (due : (Task.propagate id m shards).Sound setting tokens labels s.arena) :
    Task.Leads setting tokens labels s.arena
      ((Task.propagate id m shards).step setting .collector s) := by
  cases shards with
  | nil => exact .of_same sound (by simp)
  | cons shard rest =>
    obtain ⟨active, there⟩ := due
    refine .of_same sound ?_
    simp only [List.mem_cons, List.not_mem_nil, or_false, forall_eq_or_imp, forall_eq]
    exact ⟨Task.sound_one (active shard List.mem_cons_self) there,
      ⟨active shard List.mem_cons_self, there⟩,
      fun other member => active other (List.mem_cons_of_mem _ member), there⟩

theorem Task.leads_enter {id : MatchId} (sound : s.Sound setting tokens labels) :
    Task.Leads setting tokens labels s.arena ((Task.enter id).step setting .collector s) := by
  simp only [Task.step]
  split
  · exact .of_same sound (by simp)
  · next m found =>
    refine ⟨sound.insert found, .refl _, ?_⟩
    simp only [List.mem_singleton, forall_eq]
    exact ⟨fun _ member => member, m.kind, found⟩

theorem Task.leads_drain (sound : s.Sound setting tokens labels) :
    Task.Leads setting tokens labels s.arena (Task.drain.step setting .collector s) := by
  simp only [Task.step]
  split
  · exact .of_same sound (by simp)
  · next id rest queue =>
    have fewer : rest ⊆ s.pending := queue ▸ List.subset_cons_self _ _
    refine ⟨sound.congr rfl rfl rfl fewer, .refl _, ?_⟩
    simp only [List.mem_cons, List.not_mem_nil, or_false, forall_eq_or_imp, forall_eq]
    exact ⟨sound.pending id (queue ▸ List.mem_cons_self), trivial⟩

theorem Task.leads_literals {site : Match} {text folded : String} {shards : List Nat}
    (sound : s.Sound setting tokens labels)
    (due : (Task.literals site text folded shards).Sound setting tokens labels s.arena) :
    Task.Leads setting tokens labels s.arena
      ((Task.literals site text folded shards).step setting .collector s) := by
  cases shards with
  | nil => exact .of_same sound (by simp)
  | cons shard rest =>
    obtain ⟨active, rfl, offset, piece, placed, rfl, rfl⟩ := due
    have here : shard ∈ setting.shards := active shard List.mem_cons_self
    refine .of_same sound ?_
    simp only [List.mem_cons, List.not_mem_nil, or_false, forall_eq_or_imp, forall_eq]
    exact ⟨Task.sound_text here placed (.inl ⟨rfl, rfl⟩),
      Task.sound_text here placed (.inr ⟨rfl, rfl⟩),
      fun other member => active other (List.mem_cons_of_mem _ member), rfl,
      offset, piece, placed, rfl, rfl⟩

theorem Task.leads_feed {items : List FeedItem} (sound : s.Sound setting tokens labels)
    (due : (Task.feed items).Sound setting tokens labels s.arena) :
    Task.Leads setting tokens labels s.arena ((Task.feed items).step setting .collector s) := by
  cases items with
  | nil => exact .of_same sound (by simp)
  | cons item rest =>
    have others : (Task.feed rest).Sound setting tokens labels s.arena :=
      fun other member => due other (List.mem_cons_of_mem _ member)
    have first := due item List.mem_cons_self
    cases item with
    | terminal span offset text =>
      obtain ⟨piece, placed, rfl, rfl⟩ := first
      refine ⟨sound.congr rfl rfl rfl (List.Subset.refl _), .refl _, ?_⟩
      simp only [Task.step, List.mem_cons, List.not_mem_nil, or_false, forall_eq_or_imp,
        forall_eq]
      exact ⟨⟨fun _ member => member, rfl, offset, piece, placed, rfl, rfl⟩, trivial, others⟩
    | symbol m =>
      obtain ⟨leaf, supplied⟩ := first
      have new : Justified setting tokens labels s.arena s.arena.size m :=
        ⟨by simp [leaf, Children.toList], .inl ⟨leaf, supplied⟩⟩
      simp only [Task.step]
      rcases allocate_cases s setting.capacity m with ⟨room, made⟩ | ⟨full, dropped⟩
      · rw [made]
        refine ⟨sound.push new rfl rfl rfl rfl, .push _ _, ?_⟩
        simp only [List.mem_cons, List.not_mem_nil, or_false, forall_eq_or_imp, forall_eq]
        have known : s.arena.size < (s.arena.push m).size := by
          rw [Arena.size_push]
          exact Nat.lt_succ_self _
        exact ⟨known, trivial, others⟩
      · rw [dropped]
        refine ⟨sound.congr rfl rfl rfl (List.Subset.refl _), .refl _, ?_⟩
        simp only [List.mem_singleton, forall_eq]
        exact others

/-- One step of a sound task. -/
theorem Task.leads_step {task : Task} (sound : s.Sound setting tokens labels)
    (due : task.Sound setting tokens labels s.arena) :
    Task.Leads setting tokens labels s.arena (task.step setting .collector s) := by
  have same : s.pending ⊆ s.pending := List.Subset.refl _
  cases task with
  | execute site gap shared heads =>
    cases heads with
    | nil => exact .of_same sound (by simp)
    | cons head rest => exact Task.leads_stepHead sound due
  | fire id callback => exact ⟨sound.fire due, (fire_answers s id callback).keeps, by simp [Task.step]⟩
  | enqueue id => exact ⟨sound.enqueue due, .refl _, by simp [Task.step]⟩
  | lookLeft shard id m =>
    refine .of_same sound ?_
    simp only [List.mem_singleton, forall_eq]
    refine ⟨due.1, due.2, fun left member => ?_⟩
    obtain ⟨member, ne⟩ := List.mem_filter.mp member
    exact ⟨by simpa using ne, sound.chart m.offset left member⟩
  | combine => exact Task.leads_combine sound due
  | propagate => exact Task.leads_propagate sound due
  | enter => exact Task.leads_enter sound
  | drain => exact Task.leads_drain sound
  | settle => exact ⟨sound.congr rfl rfl rfl same, .refl _, by simp [Task.step]⟩
  | process =>
    simp only [Task.step]
    split
    · exact .of_same sound (by simp)
    · exact ⟨sound.congr rfl rfl rfl same, .refl _, by simp [Task.Sound]⟩
  | literals => exact Task.leads_literals sound due
  | feed => exact Task.leads_feed sound due

end

/-- Session and tasks of a machine are sound. -/
def Machine.Sound (setting : Setting) (tokens : List Token) (labels : List Label) (a : Machine) :
    Prop :=
  a.session.Sound setting tokens labels ∧
    ∀ task ∈ a.tasks, task.Sound setting tokens labels a.session.arena

theorem Machine.sound_next {a b : Machine} (sound : a.Sound setting tokens labels)
    (step : a.next? setting .collector = some b) : b.Sound setting tokens labels := by
  obtain ⟨s, tasks⟩ := a
  cases tasks with
  | nil => simp [Machine.next?] at step
  | cons task rest =>
    obtain ⟨session, due⟩ := sound
    obtain ⟨after, keeps, new⟩ := Task.leads_step session (due task List.mem_cons_self)
    obtain rfl : _ = b := Option.some.inj step
    refine ⟨after, fun other member => ?_⟩
    rcases List.mem_append.mp member with member | member
    · exact new other member
    · exact (due other (List.mem_cons_of_mem _ member)).keeps keeps

end

namespace Feed

variable {rules : RuleSet} {tokens : List Token} {labels : List Label}

theorem due_symbolItem {symbol : Symbol} {span : Span} {offset : Nat} {kind : MatchKind}
    (supplied : symbol ≠ 0 → Supplied rules tokens labels { symbol, span, offset, kind })
    {item : FeedItem} (member : item ∈ symbolItem symbol span offset kind) :
    item.Due rules tokens labels := by
  unfold symbolItem at member
  split at member
  · cases member
  · next used =>
    obtain rfl := List.mem_singleton.mp member
    exact ⟨rfl, supplied used⟩

theorem due_pieceItems {offset : Nat} {piece : Token}
    (placed : (offset, piece) ∈ place 0 (solidPieces tokens)) {item : FeedItem}
    (member : item ∈ pieceItems rules.layout.structural offset piece) :
    item.Due rules tokens labels := by
  have fits {symbol : Symbol} (fit : rules.layout.structural.Fits piece symbol)
      (member : item ∈ symbolItem symbol piece.span offset) : item.Due rules tokens labels :=
    due_symbolItem (fun used => .piece offset piece symbol used placed fit) member
  simp only [pieceItems, List.mem_append, List.mem_cons] at member
  rcases member with ((rfl | token) | uppercase) | digits
  · exact ⟨piece, placed, rfl, rfl⟩
  · exact fits .token token
  · split at uppercase
    · next h => exact fits (.uppercase h) uppercase
    · cases uppercase
  · split at digits
    · next h =>
      rcases List.mem_append.mp digits with all | run
      · exact fits (.digits h) all
      · split at run
        · next short => exact fits (.run h short) run
        · cases run
    · cases digits

theorem due_labelItems {label : Label × Nat} (member : labels[label.2]? = some label.1)
    {item : FeedItem} (isItem : item ∈ labelItems rules (solidPieces tokens) label) :
    item.Due rules tokens labels := by
  unfold labelItems at isItem
  split at isItem
  · cases isItem
  · next symbol bound =>
    exact due_symbolItem (fun used => .label label.1 label.2 symbol used member bound) isItem

/-- What is merged comes from a label or from a piece in its place. -/
theorem mem_merge {ofLabel : Label × Nat → β} {ofPiece : Nat → Token → β}
    {labels : List (Label × Nat)} {last : Nat} {pieces : List Token} {items : β}
    (member : items ∈ merge ofLabel ofPiece labels last pieces) :
    (∃ label ∈ labels, items = ofLabel label) ∨
      ∃ offset piece, (offset, piece) ∈ place last pieces ∧ items = ofPiece offset piece := by
  induction pieces generalizing labels last with
  | nil =>
    obtain ⟨label, isLabel, rfl⟩ := List.mem_map.mp member
    exact .inl ⟨label, isLabel, rfl⟩
  | cons piece rest ih =>
    have parts : (labels.span (·.1.span.stop ≤ piece.span.start)).1 ++
        (labels.span (·.1.span.stop ≤ piece.span.start)).2 = labels := by
      simp [List.span_eq_takeWhile_dropWhile]
    simp only [merge, List.mem_append, List.mem_cons, List.mem_map] at member
    rcases member with ⟨label, due, rfl⟩ | rfl | later
    · exact .inl ⟨label, parts ▸ List.mem_append_left _ due, rfl⟩
    · exact .inr ⟨last, piece, List.mem_cons_self, rfl⟩
    · rcases ih later with ⟨label, isLater, rfl⟩ | ⟨offset, other, placed, rfl⟩
      · exact .inl ⟨label, parts ▸ List.mem_append_right _ isLater, rfl⟩
      · exact .inr ⟨offset, other, List.mem_cons_of_mem _ placed, rfl⟩

end Feed

theorem Pass.feed_due (rules : RuleSet) (tokens : List Token) (labels : List Label) :
    ∀ item ∈ Pass.feed rules tokens labels, item.Due rules tokens labels := by
  intro item member
  simp only [Pass.feed, Feed.items, List.mem_append, List.mem_flatten] at member
  rcases member with start | ⟨items, merged, member⟩ | stop
  · exact Feed.due_symbolItem .start start
  · rcases Feed.mem_merge merged with ⟨label, isLabel, rfl⟩ | ⟨offset, piece, placed, rfl⟩
    · have sorted := List.mem_mergeSort.mp isLabel
      exact Feed.due_labelItems (List.mk_mem_zipIdx_iff_getElem?.mp sorted) member
    · exact Feed.due_pieceItems placed member
  · exact Feed.due_symbolItem (fun used => .stop used _ rfl) stop

theorem Pass.sound_start (setting : Setting) (tokens : List Token) (labels : List Label) :
    (Pass.start setting tokens labels).Sound setting tokens labels := by
  refine ⟨⟨?_, Chart.sorted_empty, ?_, ?_, ?_⟩, ?_⟩
  · intro id m found
    simp [Pass.start, Arena.get?] at found
  · simp [Pass.start]
  · simp [Pass.start]
  · simp [Pass.start]
  · simp only [Pass.start, List.mem_singleton, forall_eq]
    exact Pass.feed_due setting.rules tokens labels

/-- Whatever session a pass goes through is sound. -/
theorem Pass.visits_sound {setting : Setting} {tokens : List Token} {labels : List Label}
    {s : Session} (visits : Pass.Visits setting tokens labels s) :
    s.Sound setting tokens labels := by
  obtain ⟨tasks, reach⟩ := visits
  have sound := reach.preserves (fun _ _ => Machine.sound_next)
    (Pass.sound_start setting tokens labels)
  exact sound.1

/-- The matches of a session that a pass goes through are made after their children. -/
theorem Session.Sound.childrenFirst {setting : Setting} {tokens : List Token} {labels : List Label}
    {s : Session} (sound : s.Sound setting tokens labels) : s.arena.ChildrenFirst := by
  intro id m found
  exact (sound.arena id m found).smaller

theorem Pass.childrenFirst_session (setting : Setting) (tokens : List Token) (labels : List Label) :
    (session setting tokens labels).arena.ChildrenFirst :=
  (visits_sound (visits_session setting tokens labels)).childrenFirst

/-- In every session that a pass goes through, every match of the arena has its reason. -/
theorem Pass.visits_justified (rules : RuleSet) (locales : List Locale) (limit : Nat)
    (tokens : List Token) (labels : List Label) (s : Session)
    (visits : Pass.Visits (.ofRules rules locales limit) tokens labels s) (id : Nat) (m : Match)
    (found : s.arena.get? id = some m) :
    Justified (.ofRules rules locales limit) tokens labels s.arena id m :=
  (Pass.visits_sound visits).arena id m found

/-- Two ends of the text, 1 and 3, the first of which is also a 2, and a 4 made of 2 and 3. -/
def RuleSet.ends : RuleSet where
  buffer := (words [1, 0, 24, 1, 28, 1, 2, 4, 0, 1, 2, 3, 1]).toArray
  layout :=
    { hasNames := false
      symbolCount := 4
      terminals := {}
      strings := {}
      records := {}
      sets := ⟨8, 2⟩
      filters := {}
      labels := {}
      names := {}
      structural := { start := 1, stop := 3 }
      shards := [{ unary := ⟨0, 1⟩, buckets := ⟨32, 1⟩, binary := ⟨40, 1⟩ }] }

set_option maxRecDepth 10000 in
theorem Pass.visits_justified_ends :
    Justified (.ofRules .ends [] 1000) [] [] (Pass.session (.ofRules .ends [] 1000) [] []).arena 3
      { symbol := 4, span := ⟨0, 0⟩, offset := 0, children := .two 1 2 } :=
  Pass.visits_justified .ends [] 1000 [] [] _ (Pass.visits_session _ _ _) 3 _ (by cbv)

end Phrasebook
