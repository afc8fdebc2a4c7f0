import Phrasebook.Proofs.Grammar.Preservation
import Phrasebook.Proofs.RuleSet.Listing
import Phrasebook.Proofs.Session.Evaluation
import Phrasebook.Proofs.Session.Recognition

namespace Phrasebook

namespace Structural

/-- The piece is of the kind that the structural nonterminal stands for. The ends of a text are no
pieces. -/
def Fits (piece : Token) : Structural → Prop
  | .start => False
  | .stop => False
  | .token => True
  | .uppercaseToken => (Makeup.ofText piece.value).isUppercase = true
  | .digits => (Makeup.ofText piece.value).isDigits = true
  | .digitRun length =>
    (Makeup.ofText piece.value).isDigits = true ∧ piece.span.length = length

theorem ofName?_name {kind : Structural} (known : kind ∈ all) : ofName? kind.name = some kind := by
  obtain ⟨other, found⟩ := Option.isSome_iff_exists.mp (isSome_ofName? known)
  obtain ⟨isKnown, named⟩ := ofName?_eq_some found
  rw [found, name_injOn other isKnown kind known named]

theorem digitRun_mem_all {length : Nat} (solid : 0 < length) (short : length ≤ longestRun) :
    digitRun length ∈ all := by
  refine List.mem_append_right _ (List.mem_map.mpr ⟨length - 1, List.mem_range.mpr ?_, ?_⟩)
  · omega
  · rw [Nat.sub_add_cancel solid]

namespace Symbols

/-- A symbol fits a piece when it is that of a structural nonterminal the piece is of. -/
theorem fits_iff {structural : Symbols} {piece : Token} (solid : 0 < piece.span.length)
    (s : Symbol) :
    structural.Fits piece s ↔
      ∃ kind ∈ Structural.all, kind.Fits piece ∧ structural.get kind = s := by
  constructor
  · intro fits
    cases fits with
    | token => exact ⟨.token, by decide, trivial, rfl⟩
    | uppercase h => exact ⟨.uppercaseToken, by decide, h, rfl⟩
    | digits h => exact ⟨.digits, by decide, h, rfl⟩
    | run h short => exact ⟨.digitRun _, digitRun_mem_all solid short, ⟨h, rfl⟩, rfl⟩
  · rintro ⟨kind, known, fits, rfl⟩
    cases kind with
    | start => cases fits
    | stop => cases fits
    | token => exact .token
    | uppercaseToken => exact .uppercase fits
    | digits => exact .digits fits
    | digitRun length =>
      obtain ⟨h, rfl⟩ := fits
      exact .run h (Nat.le_of_lt_succ (lt_of_digitRun known))

theorem get_mem_toList (structural : Symbols) {kind : Structural} (known : kind ∈ Structural.all) :
    structural.get kind ∈ structural.toList := by
  cases kind with
  | digitRun length =>
    have inRange := lt_of_digitRun known
    refine List.mem_append_right _ ?_
    have found : structural.digitRun length = structural.runs[length] := by
      simp [Symbols.digitRun, Vector.getD, inRange]
    rw [get, found]
    exact Vector.mem_toList_iff.mpr (Vector.getElem_mem inRange)
  | _ => simp [get, toList]

theorem exists_get_of_mem_toList {structural : Symbols} {s : Symbol}
    (member : s ∈ structural.toList) : ∃ kind, structural.get kind = s := by
  rcases List.mem_append.mp member with named | isRun
  · simp only [List.mem_cons, List.not_mem_nil, or_false] at named
    rcases named with rfl | rfl | rfl | rfl | rfl
    · exact ⟨.start, rfl⟩
    · exact ⟨.stop, rfl⟩
    · exact ⟨.token, rfl⟩
    · exact ⟨.uppercaseToken, rfl⟩
    · exact ⟨.digits, rfl⟩
  · obtain ⟨i, inRange, rfl⟩ := Vector.getElem_of_mem (Vector.mem_toList_iff.mp isRun)
    exact ⟨.digitRun i, by simp [get, Symbols.digitRun, Vector.getD, inRange]⟩

end Symbols

end Structural

section
variable {n : NormalForm} {rules : RuleSet}

/-- The heads found under a key are those of the table, as they are read back. -/
theorem RuleSet.mem_heads_iff {found : Option Nat} {heads : Option (List Head)}
    (same : found.map rules.heads = heads.map (·.map Head.stored)) (h : Head) :
    (∃ set, h ∈ rules.heads set ∧ found = some set) ↔ ∃ k ∈ heads.getD [], h = k.stored := by
  cases found with
  | none =>
    cases heads with
    | none => simp
    | some heads => cases same
  | some set =>
    cases heads with
    | none => cases same
    | some heads =>
      have isSet : rules.heads set = heads.map Head.stored := Option.some.inj same
      constructor
      · rintro ⟨_, member, ⟨⟩⟩
        rw [isSet] at member
        obtain ⟨k, isHead, rfl⟩ := List.mem_map.mp member
        exact ⟨k, isHead, rfl⟩
      · rintro ⟨k, isHead, rfl⟩
        exact ⟨set, isSet ▸ List.mem_map.mpr ⟨k, isHead, rfl⟩, rfl⟩

namespace RuleSet.Faithful

/-- What the shards find under a right-hand side is what the normal form has there. -/
theorem has_iff (faithful : Faithful n rules) (b : Body) {find : Nat → Option Nat}
    (same : ∀ (i : Nat) shard, n.shards[i]? = some shard →
      (find i).map rules.heads = (shard.tables.find? b).map (·.map Head.stored)) (h : Head) :
    (∃ i ∈ List.range rules.shardCount, ∃ set, h ∈ rules.heads set ∧ find i = some set) ↔
      ∃ k : Head, h = k.stored ∧ n.Has b k := by
  rw [faithful.shards]
  constructor
  · rintro ⟨i, active, found⟩
    have inRange : i < n.shards.size := List.mem_range.mp active
    have isShard : n.shards[i]? = some n.shards[i] := Array.getElem?_eq_getElem inRange
    obtain ⟨k, member, stored⟩ := (mem_heads_iff (same i _ isShard) h).mp found
    exact ⟨k, stored, i, _, isShard, by rwa [Tables.headsOf_eq]⟩
  · rintro ⟨k, stored, i, shard, isShard, member⟩
    have inRange := (Array.getElem?_eq_some_iff.mp isShard).1
    rw [Tables.headsOf_eq] at member
    exact ⟨i, List.mem_range.mpr inRange, (mem_heads_iff (same i shard isShard) h).mpr
      ⟨k, member, stored⟩⟩

variable {setting : Setting}

theorem headOfOne_iff (faithful : Faithful n setting.rules)
    (all : setting.shards = List.range setting.rules.shardCount) (operand : Symbol) (h : Head) :
    setting.HeadOfOne operand h ↔ ∃ k : Head, h = k.stored ∧ n.Has (.unary operand) k := by
  rw [Setting.HeadOfOne, all]
  exact faithful.has_iff (.unary operand)
    (fun i shard isShard => faithful.unary i shard isShard operand) h

theorem headOfTwo_iff (faithful : Faithful n setting.rules)
    (all : setting.shards = List.range setting.rules.shardCount) (left right : Symbol) (h : Head) :
    setting.HeadOfTwo left right h ↔ ∃ k : Head, h = k.stored ∧ n.Has (.binary left right) k := by
  rw [Setting.HeadOfTwo, all]
  exact faithful.has_iff (.binary left right)
    (fun i shard isShard => faithful.binary i shard isShard left right) h

theorem headOfText_iff (faithful : Faithful n setting.rules)
    (all : setting.shards = List.range setting.rules.shardCount) (text : String) (h : Head) :
    setting.HeadOfText text h ↔ ∃ k : Head, h = k.stored ∧
      (n.Has (.literal text true) k ∨ n.Has (.literal (Lowercase.text text) false) k) := by
  have exact_ := faithful.has_iff (.literal text true)
    (fun i shard isShard => faithful.exact i shard isShard text) h
  have folded := faithful.has_iff (.literal (Lowercase.text text) false)
    (fun i shard isShard => faithful.folded i shard isShard (Lowercase.text text)) h
  rw [Setting.HeadOfText, all]
  constructor
  · rintro ⟨i, active, set, member, isExact | isFolded⟩
    · obtain ⟨k, stored, has⟩ := exact_.mp ⟨i, active, set, member, isExact⟩
      exact ⟨k, stored, .inl has⟩
    · obtain ⟨k, stored, has⟩ := folded.mp ⟨i, active, set, member, isFolded⟩
      exact ⟨k, stored, .inr has⟩
  · rintro ⟨k, stored, has | has⟩
    · obtain ⟨i, active, set, member, isExact⟩ := exact_.mpr ⟨k, stored, has⟩
      exact ⟨i, active, set, member, .inl isExact⟩
    · obtain ⟨i, active, set, member, isFolded⟩ := folded.mpr ⟨k, stored, has⟩
      exact ⟨i, active, set, member, .inr isFolded⟩

/-- Every head that the matcher can meet is one of the normal form. -/
theorem exists_of_hasHead (faithful : Faithful n setting.rules)
    (inRange : ∀ i ∈ setting.shards, i < setting.rules.shardCount) {h : Head}
    (isHead : setting.HasHead h) : ∃ b k, n.Has b k ∧ h = k.stored := by
  have has {b : Body} {find : Nat → Option Nat}
      (same : ∀ (i : Nat) shard, n.shards[i]? = some shard →
        (find i).map setting.rules.heads = (shard.tables.find? b).map (·.map Head.stored))
      (found : ∃ i ∈ setting.shards, ∃ set, h ∈ setting.rules.heads set ∧ find i = some set) :
      ∃ b k, n.Has b k ∧ h = k.stored := by
    obtain ⟨i, active, isSet⟩ := found
    obtain ⟨k, stored, has⟩ :=
      (faithful.has_iff b same h).mp ⟨i, List.mem_range.mpr (inRange i active), isSet⟩
    exact ⟨b, k, has, stored⟩
  rcases isHead with ⟨text, i, active, set, member, isExact | isFolded⟩ | ⟨operand, found⟩ |
    ⟨left, right, found⟩
  · exact has (b := .literal text true) (fun i shard isShard => faithful.exact i shard isShard text)
      ⟨i, active, set, member, isExact⟩
  · exact has (b := .literal (Lowercase.text text) false)
      (fun i shard isShard => faithful.folded i shard isShard (Lowercase.text text))
      ⟨i, active, set, member, isFolded⟩
  · exact has (b := .unary operand)
      (fun i shard isShard => faithful.unary i shard isShard operand) found
  · exact has (b := .binary left right)
      (fun i shard isShard => faithful.binary i shard isShard left right) found

end RuleSet.Faithful

end

namespace Grammar

/-- How the pieces of a text are read. Each stands behind the end of the piece before it, and what
lies between the two is white space. -/
def reading (g : Grammar) : Reading Nat (Nat × Token) where
  text? x := some x.2.value
  stands index x := ∃ m kind, g.nonterminals[index]? = some m ∧
    Structural.ofName? m.name = some kind ∧ kind.Fits x.2
  gap x := x.2.span.start - x.1

/-- Nothing holds a match back or comes from outside of the text: no label is bound, the ends of the
text are not mentioned, no rule has an exclusion, and every filter is a built-in one. -/
structure Unguarded (g : Grammar) : Prop where
  labels : ∀ m ∈ g.nonterminals, m.label = none
  ends : ∀ m ∈ g.nonterminals, m.name ≠ Structural.start.name ∧ m.name ≠ Structural.stop.name
  exclusions : ∀ rule ∈ g.rules, rule.options.callback.id ≠ Builtin.exclusion.id
  filters : ∀ rule ∈ g.rules, rule.options.callback.isSilent = false →
    g.filters.contains rule.options.callback.id = true →
    ∃ b ∈ Builtin.filters, b.id = rule.options.callback.id

namespace Progress

variable {g : Grammar} {p : Progress}

/-- A structural symbol in use is that of a nonterminal. -/
theorem Tidy.exists_given (tidy : p.Tidy g) {kind : Structural} (known : kind ∈ Structural.all)
    (used : p.normal.structural.get kind ≠ 0) :
    ∃ i m, g.IsGiven i ∧ g.nonterminals[i]? = some m ∧
      p.normal.symbol? m.name = some (p.normal.structural.get kind) ∧
      Structural.ofName? m.name = some kind := by
  have isSymbol : p.normal.symbol? kind.name = some (p.normal.structural.get kind) := by
    have structural := tidy.structural kind known
    cases named : p.normal.symbol? kind.name with
    | none =>
      rw [named] at structural
      exact absurd structural used
    | some t =>
      rw [named] at structural
      rw [structural]
      rfl
  obtain ⟨m, member, isName⟩ := tidy.known _ _ isSymbol
  obtain ⟨i, found⟩ := Array.mem_iff_getElem?.mp member
  have isKind : Structural.ofName? m.name = some kind := by
    rw [isName]
    exact Structural.ofName?_name known
  exact ⟨i, m, ⟨m, found, .inl (by rw [isKind]; rfl)⟩, found, isName ▸ isSymbol, isKind⟩

/-- Pieces stand for the structural symbols that fit them. -/
theorem Tidy.stands_iff (tidy : p.Tidy g) {x : Nat × Token} (solid : 0 < x.2.span.length)
    (s : Symbol) :
    (g.reading.through g p.normal).stands s x ↔ s ≠ 0 ∧ p.normal.structural.Fits x.2 s := by
  rw [Structural.Symbols.fits_iff solid]
  constructor
  · rintro ⟨i, m, isGiven, found, named, m', kind, found', isKind, fits⟩
    obtain rfl := Option.some.inj (found.symm.trans found')
    obtain ⟨known, isName⟩ := Structural.ofName?_eq_some isKind
    obtain ⟨t, isSymbol, positive⟩ := tidy.given i isGiven
    obtain rfl : t = s := by
      rw [tidy.named i m found, isSymbol] at named
      exact Option.some.inj named
    refine ⟨Nat.ne_of_gt positive, kind, known, fits, ?_⟩
    rw [tidy.structural kind known, isName, named]
    rfl
  · rintro ⟨used, kind, known, fits, rfl⟩
    obtain ⟨i, m, isGiven, found, isSymbol, isKind⟩ := tidy.exists_given known used
    exact ⟨i, m, isGiven, found, isSymbol, m, kind, found, isKind, fits⟩

/-- A structural nonterminal that the grammar does not mention has no symbol. -/
theorem Tidy.get_eq_zero (tidy : p.Tidy g) {kind : Structural} (known : kind ∈ Structural.all)
    (unnamed : ∀ m ∈ g.nonterminals, m.name ≠ kind.name) : p.normal.structural.get kind = 0 := by
  rw [tidy.structural kind known]
  cases named : p.normal.symbol? kind.name with
  | none => rfl
  | some s =>
    obtain ⟨m, member, isName⟩ := tidy.known _ _ named
    exact absurd isName (unnamed m member)

theorem Tidy.labels_isEmpty (tidy : p.Tidy g) (unlabelled : ∀ m ∈ g.nonterminals, m.label = none) :
    p.normal.labels.isEmpty = true := by
  rw [Std.TreeMap.isEmpty_iff_forall_not_mem]
  intro tag isTag
  obtain ⟨m, member, isLabel⟩ := tidy.labels tag isTag
  rw [unlabelled m member] at isLabel
  cases isLabel

/-- Every symbol of the normal form heads a production or is structural. -/
theorem Holds.heads_or_slot {R : Reading Nat α} (holds : p.Holds g R [])
    (unlabelled : ∀ m ∈ g.nonterminals, m.label = none) {s : Symbol} (positive : 0 < s)
    (bound : s ≤ p.normal.symbolCount) :
    p.normal.Heads s ∨ s ∈ p.normal.structural.toList := by
  rcases holds.used s positive bound with heads | ⟨i, ⟨m, found, given⟩, isSymbol⟩ | ⟨_, none, _⟩
  · exact .inl heads
  · rw [unlabelled m (Array.mem_of_getElem? found)] at given
    obtain ⟨kind, isKind⟩ := Option.isSome_iff_exists.mp (given.resolve_right (by simp))
    obtain ⟨known, isName⟩ := Structural.ofName?_eq_some isKind
    have structural := holds.structural kind known
    rw [isName, holds.named i m found, isSymbol, Option.getD_some] at structural
    exact .inr (structural ▸ p.normal.structural.get_mem_toList known)
  · cases none

theorem Tidy.slot_le (tidy : p.Tidy g) {s : Symbol} (member : s ∈ p.normal.structural.toList) :
    s ≤ p.normal.symbolCount := by
  obtain ⟨kind, rfl⟩ := Structural.Symbols.exists_get_of_mem_toList member
  exact tidy.slots_le kind

/-- The compiled form of a grammar is faithful to its normal form. -/
theorem Holds.faithful {R : Reading Nat α} (holds : p.Holds g R [])
    (unlabelled : ∀ m ∈ g.nonterminals, m.label = none) {withNames : Bool} {rules : RuleSet}
    (compiled : RuleSet.compile p.normal withNames = .ok rules)
    (fit : rules.buffer.size < wordBound) : RuleSet.Faithful p.normal rules := by
  have length : (RuleSet.encode p.normal withNames).length < wordBound := by
    rw [(RuleSet.ofBytes_eq_ok.mp compiled).1, List.size_toArray] at fit
    exact fit
  have few := RuleSet.few_of_used length fun s positive bound =>
    (holds.heads_or_slot unlabelled positive bound).imp_right .inl
  exact (RuleSet.Compiled.of_compile compiled fit holds.bounded few fun s => holds.slot_le).faithful

/-- Filters among the heads are built in and let matches go on. -/
theorem Tidy.accepting (tidy : p.Tidy g) (unguarded : g.Unguarded) {setting : Setting}
    (faithful : RuleSet.Faithful p.normal setting.rules)
    (inRange : ∀ i ∈ setting.shards, i < setting.rules.shardCount) : setting.Accepting := by
  intro h isHead loud isFilter
  obtain ⟨b, k, has, rfl⟩ := faithful.exists_of_hasHead inRange isHead
  have loud : k.callback.isSilent = false := loud
  have isFilter : g.filters.contains k.callback.id = true := by
    rw [← tidy.filters, ← faithful.isFilter]
    exact isFilter
  obtain ⟨rule, member, same⟩ := (tidy.callbacks b k has).resolve_left (by simp [loud])
  have isLoud : rule.options.callback.isSilent = false := by
    rw [Callback.isSilent, same]
    exact loud
  obtain ⟨builtin, known, isId⟩ := unguarded.filters rule member isLoud (same ▸ isFilter)
  have isId : k.callback.id = builtin.id := same.symm.trans isId.symm
  cases builtin with
  | setType => exact .inl (congrArg Builtin.ofId? isId)
  | assertion => exact .inr (.inl (congrArg Builtin.ofId? isId))
  | mapping => exact .inr (.inr (congrArg Builtin.ofId? isId))
  | exclusion => exact absurd (same.trans isId) (unguarded.exclusions rule member)
  | rootRule => simp [Builtin.filters] at known

/-- Matching with all shards of a compiled grammar runs the productions of its normal form. -/
theorem Holds.runs (holds : p.Holds g g.reading []) (unguarded : g.Unguarded) {setting : Setting}
    {withNames : Bool} (compiled : RuleSet.compile p.normal withNames = .ok setting.rules)
    (fit : setting.rules.buffer.size < wordBound)
    (all : setting.shards = List.range setting.rules.shardCount) {tokens : List Token}
    (laid : Token.Laid tokens) :
    setting.Runs p.normal (g.reading.through g p.normal) tokens := by
  have tidy := holds.toTidy
  have faithful := holds.faithful unguarded.labels compiled fit
  have start : p.normal.structural.get .start = 0 :=
    tidy.get_eq_zero (by decide) fun m member => (unguarded.ends m member).1
  have stop : p.normal.structural.get .stop = 0 :=
    tidy.get_eq_zero (by decide) fun m member => (unguarded.ends m member).2
  refine ⟨faithful.headOfText_iff all, faithful.headOfOne_iff all, faithful.headOfTwo_iff all,
    tidy.accepting unguarded faithful (fun i active => List.mem_range.mp (all ▸ active)), ?_, ?_,
    faithful.labels (tidy.labels_isEmpty unguarded.labels), fun _ => rfl, fun _ => rfl, ?_⟩
  · rw [faithful.structural]
    exact start
  · rw [faithful.structural]
    exact stop
  · intro x member s
    have solid : 0 < x.2.span.length :=
      Nat.sub_pos_of_lt (solidPieces_pos laid (Feed.mem_of_mem_place member))
    rw [faithful.structural]
    exact tidy.stands_iff solid s

end Progress

theorem compile_eq_ok {g : Grammar} {withNames : Bool} {rules : RuleSet}
    (compiled : g.compile withNames = .ok rules) :
    ∃ n, g.normalize = .ok n ∧ RuleSet.compile n withNames = .ok rules := by
  unfold compile at compiled
  cases normal : g.normalize with
  | error e =>
    rw [normal] at compiled
    cases compiled
  | ok n =>
    rw [normal] at compiled
    refine ⟨n, rfl, ?_⟩
    simp only [bind, Except.bind] at compiled
    split at compiled
    · next result => exact result.trans (congrArg _ (Except.ok.inj compiled))
    · cases compiled

theorem compile_of_normalize {g : Grammar} {n : NormalForm} {withNames : Bool} {rules : RuleSet}
    (normal : g.normalize = .ok n) (compiled : RuleSet.compile n withNames = .ok rules) :
    g.compile withNames = .ok rules := by
  simp [compile, normal, compiled, bind, Except.bind, pure, Except.pure]

end Grammar

/-- A pass that drops no match reports a root rule, with all shards of a grammar active, on exactly
those stretches of pieces that one of the rules with its number spells out. -/
theorem Grammar.recognition {g : Grammar} {withNames : Bool} {rules : RuleSet} (built : g.Built)
    (unguarded : g.Unguarded) (compiled : g.compile withNames = .ok rules)
    (fit : rules.buffer.size < wordBound) (locales : List Locale)
    (all : rules.selectShards locales = List.range rules.shardCount) (limit : Nat)
    (split : Words.Splitter) (text : String) (labels : List Label)
    (whole :
      (Pass.run (.ofRules rules locales limit) (tokenize text split) labels).stats.dropped = 0)
    (ruleId : UInt64) (span : Span) :
    (∃ d ∈ (Pass.run (.ofRules rules locales limit) (tokenize text split) labels).candidates,
      d.ruleId = ruleId ∧
        (Pass.run (.ofRules rules locales limit) (tokenize text split) labels).arena.spanOf d =
          span) ↔
    ∃ i j first last, i < j ∧ (solidPieces (tokenize text split))[i]? = some first ∧
      (solidPieces (tokenize text split))[j - 1]? = some last ∧
      span = ⟨first.span.start, last.span.stop⟩ ∧
      ∃ rule ∈ g.rules, rule.options.callback = ⟨Builtin.rootRule.id, ruleId⟩ ∧
        g.Spells g.reading rule.options rule.rhs
          (Feed.stretch (solidPieces (tokenize text split)) i j) := by
  obtain ⟨n, normal, isCompiled⟩ := compile_eq_ok compiled
  obtain ⟨p, rfl, holds, _⟩ := normalize_holds built normal g.reading
  have laid : Token.Laid (tokenize text split) := Token.laid_layOut _ _
  have runs : (Setting.ofRules rules locales limit).Runs p.normal (g.reading.through g p.normal)
      (tokenize text split) := holds.runs unguarded isCompiled fit all laid
  have other : Builtin.rootRule.id ≠ Builtin.exclusion.id := by decide
  have fires (w : List (Nat × Token)) :
      p.normal.Fires (g.reading.through g p.normal) ⟨Builtin.rootRule.id, ruleId⟩ w ↔
        g.Allowed g.reading ⟨Builtin.rootRule.id, ruleId⟩ w :=
    holds.fires_iff built.wellFormed rfl other w
  have noted := Pass.noted_iff_fires runs laid labels whole ruleId span
  simp only [fires, Allowed] at noted
  simpa only [Pass.run, Pass.ofSession, Array.mem_toList_iff] using noted

/-- A grammar that reports a one before a two, at most one blank apart. -/
def Grammar.oneTwo : Grammar :=
  (ofShards []).after (.rule "<1>" ["1", "2"] { RuleOptions.root 7 with gap := 1 })

theorem Grammar.oneTwo_eq : oneTwo =
    { shards := [[]]
      nonterminals := #[{ name := "<1>" }]
      rules := #[{
        lhs := 0
        rhs := [.literal "1", .literal "2"]
        options := { RuleOptions.root 7 with gap := 1 } }]
      lists := #[[0]] } := by
  unfold oneTwo after Declaration.declare add addRule
  rw [distinct_eq_eraseDups]
  with_unfolding_all rfl

theorem Grammar.oneTwo_nonterminals : oneTwo.nonterminals = #[{ name := "<1>" }] := by
  rw [oneTwo_eq]

theorem Grammar.oneTwo_rules :
    oneTwo.rules = #[{
      lhs := 0
      rhs := [.literal "1", .literal "2"]
      options := { RuleOptions.root 7 with gap := 1 } }] := by
  rw [oneTwo_eq]

set_option maxRecDepth 10000 in
theorem Grammar.oneTwo_unguarded : oneTwo.Unguarded := by
  refine ⟨?_, ?_, ?_, ?_⟩
  · rw [oneTwo_nonterminals]
    simp
  · rw [oneTwo_nonterminals]
    simp [Structural.name]
  · rw [oneTwo_rules]
    simp [RuleOptions.root, Builtin.id]
  · rw [oneTwo_rules]
    simp only [List.mem_toArray, List.mem_singleton, forall_eq]
    intro _ isFilter
    have none : oneTwo.filters.contains (RuleOptions.root 7).callback.id = false := by
      rw [oneTwo_eq]
      decide +kernel
    rw [none] at isFilter
    cases isFilter

/-- Compiling a grammar and matching a text with it go without loss. -/
def Grammar.runsWhole (g : Grammar) (text : String) : Bool :=
  match g.compile false with
  | .ok rules =>
    decide (rules.buffer.size < wordBound) &&
      rules.selectShards [] == List.range rules.shardCount &&
      (Pass.run (.ofRules rules [] 1000) (tokenize text) []).stats.dropped == 0
  | .error _ => false

theorem Grammar.oneTwo_runsWhole : oneTwo.runsWhole "1 2" = true := by
  rw [oneTwo_eq]
  unfold runsWhole compile RuleSet.compile Pass.run
  rw [RuleSet.encode_eq_listed, Pass.session_eq_sessionIn 500]
  decide +kernel

theorem solidPieces_oneTwo :
    solidPieces (tokenize "1 2") = [⟨"1", ⟨0, 1⟩⟩, ⟨"2", ⟨2, 3⟩⟩] := by
  decide +kernel

theorem Grammar.recognition_oneTwo :
    ∃ rules, oneTwo.compile false = .ok rules ∧
      ∃ d ∈ (Pass.run (.ofRules rules [] 1000) (tokenize "1 2") []).candidates, d.ruleId = 7 ∧
        (Pass.run (.ofRules rules [] 1000) (tokenize "1 2") []).arena.spanOf d = ⟨0, 3⟩ := by
  have runs := oneTwo_runsWhole
  unfold runsWhole at runs
  split at runs
  · next rules compiled =>
    simp only [Bool.and_eq_true, decide_eq_true_eq, beq_iff_eq] at runs
    obtain ⟨⟨fit, all⟩, whole⟩ := runs
    refine ⟨rules, compiled, ?_⟩
    have built : oneTwo.Built := .after (.ofShards []) _
    refine (recognition built oneTwo_unguarded compiled fit [] all 1000 Words.split "1 2" [] whole 7
      ⟨0, 3⟩).mpr ?_
    rw [solidPieces_oneTwo, oneTwo_rules]
    refine ⟨0, 2, _, _, Nat.zero_lt_two, rfl, rfl, rfl, _, List.mem_toArray.mpr List.mem_cons_self,
      rfl, ?_⟩
    have one : oneTwo.Spells oneTwo.reading { RuleOptions.root 7 with gap := 1 } [.literal "1"]
        [(0, ⟨"1", ⟨0, 1⟩⟩)] := .literal ⟨_, _, rfl, rfl, rfl⟩
    have two : oneTwo.Spells oneTwo.reading { RuleOptions.root 7 with gap := 1 } [.literal "2"]
        [(1, ⟨"2", ⟨2, 3⟩⟩)] := .literal ⟨_, _, rfl, rfl, rfl⟩
    exact .cons one two (.inr (by decide))
  · cases runs

end Phrasebook
