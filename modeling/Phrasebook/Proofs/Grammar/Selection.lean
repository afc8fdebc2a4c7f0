import Phrasebook.Proofs.Grammar.Isolation
import Phrasebook.Proofs.Grammar.Recognition
import Phrasebook.Proofs.RuleSet.Listing
import Phrasebook.Proofs.Session.Evaluation

/-!
Matching with the shards that the locales of a text select. Every reported span is filled by marks of
the text that rules of these shards spell out, with rules of other shards in between only where they
give a symbol a second name. `candidates_selected` is the main statement; the grammar after it
reports a rule that refers to such a name.
-/

namespace Phrasebook

/-- What a text is made of: its pieces, each with the end of the one before it, and its two ends. -/
inductive Mark
  | start
  | piece (offset : Nat) (token : Token)
  | stop (last : Nat)
  deriving DecidableEq, Repr

namespace Mark

def span : Mark → Span
  | .start => ⟨0, 0⟩
  | .piece _ token => token.span
  | .stop last => ⟨last, last⟩

/-- Where the text before the mark ends. -/
def offset : Mark → Nat
  | .start => 0
  | .piece offset _ => offset
  | .stop last => last

def text? : Mark → Option String
  | .piece _ token => some token.value
  | .start | .stop _ => none

/-- The mark is of the kind that the structural nonterminal stands for. -/
def Fits : Mark → Structural → Prop
  | .start, kind => kind = .start
  | .piece _ token, kind => kind.Fits token
  | .stop _, kind => kind = .stop

def ofTokens (tokens : List Token) : List Mark :=
  let pieces := (Feed.place 0 (solidPieces tokens)).map fun x => Mark.piece x.1 x.2
  Mark.start :: (pieces ++ [Mark.stop (Feed.textEnd tokens)])

/-- Marks of the text, each where the one before it ends, fill a span. The text before the first of
them ends at an offset. -/
inductive Fills (tokens : List Token) : Nat → Span → List Mark → Prop
  | one {x : Mark} (member : x ∈ ofTokens tokens) : Fills tokens x.offset x.span [x]
  | cons {x : Mark} {span : Span} {w : List Mark} (member : x ∈ ofTokens tokens)
      (rest : Fills tokens x.span.stop span w) :
      Fills tokens x.offset ⟨x.span.start, span.stop⟩ (x :: w)

variable {tokens : List Token}

theorem Fills.join {offset : Nat} {first second : Span} {v u : List Mark}
    (left : Fills tokens offset first v) (right : Fills tokens first.stop second u) :
    Fills tokens offset ⟨first.start, second.stop⟩ (v ++ u) := by
  induction left with
  | one member => exact .cons member right
  | cons member _ ih =>
    have longer := Fills.cons member (ih right)
    exact longer

theorem Fills.head {offset : Nat} {span : Span} {w : List Mark} (fills : Fills tokens offset span w) :
    ∃ x rest, w = x :: rest ∧ x.span.start - x.offset = span.start - offset := by
  cases fills with
  | one => exact ⟨_, _, rfl, rfl⟩
  | cons => exact ⟨_, _, rfl, rfl⟩

theorem fills_piece {x : Nat × Token} (member : x ∈ Feed.place 0 (solidPieces tokens)) :
    Fills tokens x.1 x.2.span [.piece x.1 x.2] := by
  refine Fills.one (x := .piece x.1 x.2) ?_
  simp only [ofTokens, List.mem_cons, List.mem_append, List.mem_map]
  exact .inr (.inl ⟨x, member, rfl⟩)

theorem fills_start : Fills tokens 0 ⟨0, 0⟩ [.start] :=
  Fills.one (x := .start) (by simp [ofTokens])

theorem fills_stop : Fills tokens (Feed.textEnd tokens) ⟨Feed.textEnd tokens, Feed.textEnd tokens⟩
    [.stop (Feed.textEnd tokens)] :=
  Fills.one (x := .stop (Feed.textEnd tokens)) (by simp [ofTokens])

end Mark

/-- How the marks of a text are read. -/
def Grammar.markReading (g : Grammar) : Reading Nat Mark where
  text? := Mark.text?
  stands index x := ∃ m kind, g.nonterminals[index]? = some m ∧
    Structural.ofName? m.name = some kind ∧ x.Fits kind
  gap x := x.span.start - x.offset

/-- What some shards find under a right-hand side, the normal form has there. -/
theorem RuleSet.Faithful.has_only {n : NormalForm} {rules : RuleSet} {shards : List Nat}
    (faithful : Faithful n rules) (inRange : ∀ i ∈ shards, i < rules.shardCount) {b : Body}
    {find : Nat → Option Nat}
    (same : ∀ (i : Nat) shard, n.shards[i]? = some shard →
      (find i).map rules.heads = (shard.tables.find? b).map (·.map Head.stored)) {h : Head}
    (found : ∃ i ∈ shards, ∃ set, h ∈ rules.heads set ∧ find i = some set) :
    ∃ k : Head, h = k.stored ∧ (n.only (shards.contains ·)).Has b k := by
  obtain ⟨i, active, found⟩ := found
  have inRange := inRange i active
  rw [faithful.shards] at inRange
  have isShard : n.shards[i]? = some n.shards[i] := Array.getElem?_eq_getElem inRange
  obtain ⟨k, member, stored⟩ := (mem_heads_iff (same i _ isShard) h).mp found
  refine ⟨k, stored, NormalForm.has_only.mpr ⟨i, _, by simpa using active, isShard, ?_⟩⟩
  rwa [Tables.headsOf_eq]

namespace Grammar

namespace Progress

variable {g : Grammar} {p : Progress} {setting : Setting} {tokens : List Token}
  {labels : List Label}

/-- Marks stand for the structural symbols that they fit. -/
theorem Tidy.stands_mark (tidy : p.Tidy g) {kind : Structural} (known : kind ∈ Structural.all)
    (used : p.normal.structural.get kind ≠ 0) {x : Mark} (fits : x.Fits kind) :
    (g.markReading.through g p.normal).stands (p.normal.structural.get kind) x := by
  obtain ⟨i, m, isGiven, found, isSymbol, isKind⟩ := tidy.exists_given known used
  exact ⟨i, m, isGiven, found, isSymbol, m, kind, found, isKind, fits⟩

/-- What a text supplies without labels is a mark of it. -/
theorem Tidy.supplied (tidy : p.Tidy g) (unlabelled : ∀ m ∈ g.nonterminals, m.label = none)
    {rules : RuleSet} (faithful : RuleSet.Faithful p.normal rules) (laid : Token.Laid tokens)
    {m : Match} (supplied : Supplied rules tokens labels m) :
    ∃ x, Mark.Fills tokens m.offset m.span [x] ∧
      (g.markReading.through g p.normal).stands m.symbol x := by
  have structural := faithful.structural
  cases supplied with
  | start used =>
    rw [structural] at used ⊢
    have known : Structural.start ∈ Structural.all := by decide
    exact ⟨_, Mark.fills_start, tidy.stands_mark known used rfl⟩
  | stop used last isLast =>
    rw [structural] at used ⊢
    subst isLast
    have known : Structural.stop ∈ Structural.all := by decide
    exact ⟨_, Mark.fills_stop, tidy.stands_mark known used rfl⟩
  | piece offset piece symbol used member fits =>
    have solid : 0 < piece.span.length :=
      Nat.sub_pos_of_lt (solidPieces_pos laid (Feed.mem_of_mem_place member))
    rw [structural] at fits
    obtain ⟨kind, known, isKind, rfl⟩ := (Structural.Symbols.fits_iff solid symbol).mp fits
    exact ⟨_, Mark.fills_piece member, tidy.stands_mark known used isKind⟩
  | label label index symbol used member bound =>
    rw [faithful.labels (tidy.labels_isEmpty unlabelled)] at bound
    cases bound

/-- Matching with some shards of a compiled grammar runs the productions of these shards. -/
theorem Holds.covering {R : Reading Nat α} (holds : p.Holds g R [])
    (unlabelled : ∀ m ∈ g.nonterminals, m.label = none) {withNames : Bool}
    (compiled : RuleSet.compile p.normal withNames = .ok setting.rules)
    (fit : setting.rules.buffer.size < wordBound)
    (inRange : ∀ i ∈ setting.shards, i < setting.rules.shardCount) (laid : Token.Laid tokens) :
    setting.Covering (p.normal.only (setting.shards.contains ·)) (g.markReading.through g p.normal)
      tokens labels (Mark.Fills tokens) := by
  have faithful := holds.faithful unlabelled compiled fit
  refine ⟨fun text h isHead => ?_, fun operand h isHead => ?_, fun left right h isHead => ?_,
    fun m => holds.toTidy.supplied unlabelled faithful laid,
    fun offset piece member => ⟨_, Mark.fills_piece member, rfl⟩, fun _ _ _ _ _ => .join,
    fun _ _ _ => Mark.Fills.head⟩
  · obtain ⟨i, active, set, member, isExact | isFolded⟩ := isHead
    · obtain ⟨k, stored, has⟩ := faithful.has_only (b := .literal text true) inRange
        (fun i shard isShard => faithful.exact i shard isShard text) ⟨i, active, set, member, isExact⟩
      exact ⟨k, stored, .inl has⟩
    · obtain ⟨k, stored, has⟩ := faithful.has_only (b := .literal (Lowercase.text text) false) inRange
        (fun i shard isShard => faithful.folded i shard isShard (Lowercase.text text))
        ⟨i, active, set, member, isFolded⟩
      exact ⟨k, stored, .inr has⟩
  · exact faithful.has_only (b := .unary operand) inRange
      (fun i shard isShard => faithful.unary i shard isShard operand) isHead
  · exact faithful.has_only (b := .binary left right) inRange
      (fun i shard isShard => faithful.binary i shard isShard left right) isHead

end Progress

end Grammar

/-- Every candidate of a pass spans marks of the text that a root rule of a selected shard spells
out, through rules of the selected shards and rules that rename. -/
theorem Pass.candidates_selected {g : Grammar} {withNames : Bool} {rules : RuleSet}
    (built : g.Built) (unlabelled : ∀ m ∈ g.nonterminals, m.label = none)
    (compiled : g.compile withNames = .ok rules) (fit : rules.buffer.size < wordBound)
    (locales : List Locale) (limit : Nat) (split : Words.Splitter) (text : String)
    (labels : List Label) (d : Derivation)
    (member : d ∈
      (Pass.run (.ofRules rules locales limit) (tokenize text split) labels).candidates) :
    ∃ offset w, Mark.Fills (tokenize text split) offset
        ((Pass.run (.ofRules rules locales limit) (tokenize text split) labels).arena.spanOf d) w ∧
      ∃ rule ∈ g.rules, rule.options.shard ∈ rules.selectShards locales ∧
        rule.options.callback = ⟨Builtin.rootRule.id, d.ruleId⟩ ∧
        (g.within ((rules.selectShards locales).contains ·)).Spells g.markReading rule.options
          rule.rhs w := by
  obtain ⟨n, normal, isCompiled⟩ := Grammar.compile_eq_ok compiled
  obtain ⟨p, rfl, isolated⟩ := Grammar.normalize_isolated built normal g.markReading
    ((rules.selectShards locales).contains ·)
  have inRange : ∀ i ∈ rules.selectShards locales, i < rules.shardCount :=
    fun i active => List.mem_range.mp (List.mem_filter.mp active).1
  have covering : (Setting.ofRules rules locales limit).Covering _ _ (tokenize text split) labels _ :=
    isolated.toHolds.covering unlabelled isCompiled fit inRange (Token.laid_layOut _ _)
  have sound := Pass.visits_sound
    (Pass.visits_session (.ofRules rules locales limit) (tokenize text split) labels)
  simp only [Pass.run, Pass.ofSession, Array.mem_toList_iff] at member
  obtain ⟨m, w, found, fills, fires⟩ := (sound.derivations d member).fires covering sound
  have isSpan : (Pass.run (.ofRules rules locales limit) (tokenize text split) labels).arena.spanOf d =
      m.span := by
    simp only [Pass.run, Pass.ofSession, Arena.spanOf, found]
    rfl
  have other : Builtin.rootRule.id ≠ Builtin.exclusion.id := by decide
  obtain ⟨rule, isMember, callback, spells⟩ := isolated.allowed rfl other fires
  obtain ⟨isRule, kept | renames⟩ := Grammar.mem_within.mp isMember
  · exact ⟨m.offset, w, isSpan ▸ fills, rule, isRule, by simpa using kept, callback, spells⟩
  · obtain ⟨isAlias, _⟩ := Bool.and_eq_true_iff.mp renames
    obtain ⟨_, silent⟩ := Rule.isAlias_iff.mp isAlias
    rw [callback] at silent
    cases silent

/-- A grammar whose root rule refers to a name that another shard gives. -/
def Grammar.renamed : Grammar :=
  (((ofShards [[], [.german]]).after (.rule "<1>" ["1"] {})).after
    (.rule "<2>" ["<1>"] { shard := 1 })).after (.rule "<3>" ["<2>"] (.root 7))

theorem Grammar.renamed_eq : renamed =
    { shards := [[], [.german]]
      nonterminals := #[{ name := "<1>" }, { name := "<2>" }, { name := "<3>" }]
      rules :=
        #[{ lhs := 0, rhs := [.literal "1"], options := {} },
          { lhs := 1, rhs := [.reference 0], options := { shard := 1 } },
          { lhs := 2, rhs := [.reference 1], options := .root 7 }]
      lists := #[[0], [1], [2]] } := by
  unfold renamed after Declaration.declare add addRule
  rw [distinct_eq_eraseDups]
  with_unfolding_all rfl

/-- A pass over the text goes with the given shards, drops no match and reports the given rules. -/
def Grammar.reports (g : Grammar) (text : String) (shards : List Nat) (ruleIds : List UInt64) :
    Bool :=
  match g.compile false with
  | .ok rules =>
    let pass := Pass.run (.ofRules rules [] 1000) (tokenize text) []
    decide (rules.buffer.size < wordBound) && rules.selectShards [] == shards &&
      pass.stats.dropped == 0 && pass.candidates.map (·.ruleId) == ruleIds
  | .error _ => false

theorem Grammar.renamed_reports : renamed.reports "1" [0] [7] = true := by
  rw [renamed_eq]
  unfold reports compile RuleSet.compile Pass.run
  rw [RuleSet.encode_eq_listed, Pass.session_eq_sessionIn 500]
  decide +kernel

/-- Without that name the root rule spells nothing. -/
theorem Grammar.renamed_not_allowed (w : List Mark) :
    ¬ ({ renamed with rules := renamed.rules.filter (·.options.shard == 0) } : Grammar).Allowed
      renamed.markReading ⟨Builtin.rootRule.id, 7⟩ w := by
  have isMember {rule : Rule} (member : rule ∈ renamed.rules.filter (·.options.shard == 0)) :
      rule = { lhs := 0, rhs := [.literal "1"], options := {} } ∨
        rule = { lhs := 2, rhs := [.reference 1], options := .root 7 } := by
    simp only [renamed_eq, Array.mem_filter, List.mem_toArray, List.mem_cons,
      List.not_mem_nil, or_false] at member
    obtain ⟨rfl | rfl | rfl, active⟩ := member
    · exact .inl rfl
    · cases active
    · exact .inr rfl
  rintro ⟨rule, member, callback, spells⟩
  rcases isMember member with rfl | rfl
  · cases callback
  · rcases spells_singleton.mp spells with ⟨⟨m, found, given⟩, _⟩ | ⟨other, isRule, isLhs, _⟩
    · simp only [renamed_eq] at found
      obtain rfl := Option.some.inj found
      revert given
      decide +kernel
    · rcases isMember isRule with rfl | rfl
      · cases isLhs
      · cases isLhs

theorem Pass.candidates_selected_renamed :
    ∃ rules, Grammar.renamed.compile false = .ok rules ∧ rules.selectShards [] = [0] ∧
      (Pass.run (.ofRules rules [] 1000) (tokenize "1") []).stats.dropped = 0 ∧
      ∃ d ∈ (Pass.run (.ofRules rules [] 1000) (tokenize "1") []).candidates, d.ruleId = 7 ∧
        (∃ offset w, Mark.Fills (tokenize "1") offset
            ((Pass.run (.ofRules rules [] 1000) (tokenize "1") []).arena.spanOf d) w ∧
          (Grammar.renamed.within ([0].contains ·)).Allowed Grammar.renamed.markReading
            ⟨Builtin.rootRule.id, 7⟩ w) ∧
        ∀ w, ¬ ({ Grammar.renamed with
          rules := Grammar.renamed.rules.filter (·.options.shard == 0) } : Grammar).Allowed
            Grammar.renamed.markReading ⟨Builtin.rootRule.id, 7⟩ w := by
  have reports := Grammar.renamed_reports
  unfold Grammar.reports at reports
  split at reports
  · next rules compiled =>
    simp only [Bool.and_eq_true, decide_eq_true_eq, beq_iff_eq] at reports
    obtain ⟨⟨⟨fit, selected⟩, whole⟩, ids⟩ := reports
    have built : Grammar.renamed.Built := .after (.after (.after (.ofShards _) _) _) _
    have unlabelled : ∀ m ∈ Grammar.renamed.nonterminals, m.label = none := by
      rw [Grammar.renamed_eq]
      simp
    obtain ⟨d, member, isSeven⟩ := List.mem_map.mp (ids ▸ List.mem_singleton_self (7 : UInt64))
    obtain ⟨offset, w, fills, rule, isRule, isSelected, callback, spells⟩ :=
      candidates_selected built unlabelled compiled fit [] 1000 Words.split "1" [] d member
    rw [selected] at isSelected spells
    rw [isSeven] at callback
    refine ⟨rules, compiled, selected, whole, d, member, isSeven,
      ⟨offset, w, fills, rule, ?_, callback, spells⟩, Grammar.renamed_not_allowed⟩
    exact Grammar.mem_within.mpr ⟨isRule, .inl (by simpa using isSelected)⟩
  · cases reports

end Phrasebook
