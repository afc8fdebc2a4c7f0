import Phrasebook.Proofs.Session.Closure
import Phrasebook.Proofs.Session.Coverage
import Phrasebook.Proofs.Session.Covering

namespace Phrasebook

open Session

/-- The matcher runs all productions of `n`, lets every match go on, and hands over the pieces as `R`
reads them, without ends of the text and without labels. -/
structure Setting.Runs (setting : Setting) (n : NormalForm) (R : Reading Symbol (Nat × Token))
    (tokens : List Token) : Prop where
  ofText : ∀ text h, setting.HeadOfText text h ↔ ∃ k : Head, h = k.stored ∧
    (n.Has (.literal text true) k ∨ n.Has (.literal (Lowercase.text text) false) k)
  ofOne : ∀ operand h, setting.HeadOfOne operand h ↔
    ∃ k : Head, h = k.stored ∧ n.Has (.unary operand) k
  ofTwo : ∀ left right h, setting.HeadOfTwo left right h ↔
    ∃ k : Head, h = k.stored ∧ n.Has (.binary left right) k
  accepting : setting.Accepting
  noStart : setting.rules.layout.structural.start = 0
  noStop : setting.rules.layout.structural.stop = 0
  noLabel : ∀ name, setting.rules.label? name = none
  shows : ∀ x, R.text? x = some x.2.value
  gaps : ∀ x, R.gap x = x.2.span.start - x.1
  stands : ∀ x ∈ Feed.place 0 (solidPieces tokens), ∀ s,
    R.stands s x ↔ s ≠ 0 ∧ setting.rules.layout.structural.Fits x.2 s

/-- The leaves are those of a stretch of pieces that a match in this place covers. -/
def Feed.OnStretch (pieces : List Token) (offset : Nat) (span : Span) (w : List (Nat × Token)) :
    Prop :=
  ∃ i j, Match.Covers { symbol := 0, span, offset } pieces i j ∧ w = stretch pieces i j

/-- Some match of the symbol covers the stretch. -/
def Session.Finds (s : Session) (pieces : List Token) (symbol : Symbol) (i j : Nat) : Prop :=
  ∃ (id : Nat) (m : Match), s.arena.get? id = some m ∧ m.symbol = symbol ∧ m.Covers pieces i j

/-- Matches cover stretches of pieces. Only pieces are supplied by the text. -/
theorem Setting.Runs.covering {setting : Setting} {n : NormalForm}
    {R : Reading Symbol (Nat × Token)} {tokens : List Token} (runs : setting.Runs n R tokens)
    (laid : Token.Laid tokens) (labels : List Label) :
    setting.Covering n R tokens labels (Feed.OnStretch (solidPieces tokens)) := by
  have onStretch {x : Nat × Token} (member : x ∈ Feed.place 0 (solidPieces tokens)) :
      Feed.OnStretch (solidPieces tokens) x.1 x.2.span [x] := by
    obtain ⟨i, found⟩ := List.mem_iff_getElem?.mp member
    exact ⟨i, i + 1, .of_piece found rfl rfl, (Feed.stretch_one found).symm⟩
  refine ⟨fun text h => (runs.ofText text h).mp, fun operand h => (runs.ofOne operand h).mp,
    fun left right h => (runs.ofTwo left right h).mp, fun m supplied => ?_,
    fun offset piece member => ⟨_, onStretch member, runs.shows _⟩, ?_, ?_⟩
  · cases supplied with
    | start used => exact absurd runs.noStart used
    | stop used => exact absurd runs.noStop used
    | piece offset piece symbol used member fits =>
      exact ⟨_, onStretch member, (runs.stands _ member symbol).mpr ⟨used, fits⟩⟩
    | label label index symbol used member bound =>
      rw [runs.noLabel] at bound
      cases bound
  · rintro offset first second _ _ ⟨i, j, covers, rfl⟩ ⟨i', j', covers', rfl⟩
    obtain rfl := covers.meet (solidPieces_solid laid) covers' rfl
    refine ⟨i, j', covers.join covers' rfl rfl, ?_⟩
    exact Feed.stretch_append (Nat.le_of_lt covers.lt) (Nat.le_of_lt covers'.lt)
  · rintro offset span _ ⟨i, j, covers, rfl⟩
    obtain ⟨x, rest, isStretch, found⟩ := Feed.stretch_head covers.lt covers.le
    exact ⟨x, rest, isStretch, (runs.gaps x).trans (covers.gap_eq found).symm⟩

namespace Feed

/-- What a piece hands over is among the items of the text. -/
theorem mem_merge_of_mem_place {ofLabel : Label × Nat → List FeedItem}
    {ofPiece : Nat → Token → List FeedItem} {labels : List (Label × Nat)} {last : Nat}
    {pieces : List Token} {x : Nat × Token} (member : x ∈ place last pieces) :
    ofPiece x.1 x.2 ∈ merge ofLabel ofPiece labels last pieces := by
  induction pieces generalizing labels last with
  | nil => cases member
  | cons piece rest ih =>
    simp only [merge, List.mem_append, List.mem_cons]
    rcases List.mem_cons.mp member with rfl | later
    · exact .inr (.inl rfl)
    · exact .inr (.inr (ih later))

/-- So is what a label hands over. -/
theorem mem_merge_of_mem_labels {ofLabel : Label × Nat → List FeedItem}
    {ofPiece : Nat → Token → List FeedItem} {labels : List (Label × Nat)} {last : Nat}
    {pieces : List Token} {a : Label × Nat} (member : a ∈ labels) :
    ofLabel a ∈ merge ofLabel ofPiece labels last pieces := by
  induction pieces generalizing labels last with
  | nil => exact List.mem_map_of_mem member
  | cons piece rest ih =>
    have parts : (labels.span (·.1.span.stop ≤ piece.span.start)).1 ++
        (labels.span (·.1.span.stop ≤ piece.span.start)).2 = labels := by
      simp [List.span_eq_takeWhile_dropWhile]
    rw [← parts] at member
    simp only [merge, List.mem_append, List.mem_cons]
    rcases List.mem_append.mp member with due | later
    · exact .inl (List.mem_map_of_mem due)
    · exact .inr (.inr (ih later))

theorem mem_feed {rules : RuleSet} {tokens : List Token} {labels : List Label} {x : Nat × Token}
    (placed : x ∈ place 0 (solidPieces tokens)) {item : FeedItem}
    (member : item ∈ pieceItems rules.layout.structural x.1 x.2) :
    item ∈ Pass.feed rules tokens labels := by
  simp only [Pass.feed, items, List.mem_append, List.mem_flatten]
  exact .inr (.inl ⟨_, mem_merge_of_mem_place placed, member⟩)

/-- A symbol that fits a piece is handed over with it. -/
theorem mem_pieceItems_of_fits {structural : Structural.Symbols} {x : Nat × Token} {symbol : Symbol}
    (used : symbol ≠ 0) (fits : structural.Fits x.2 symbol) :
    .symbol { symbol, span := x.2.span, offset := x.1 } ∈ pieceItems structural x.1 x.2 := by
  have here {symbol : Symbol} (used : symbol ≠ 0) :
      .symbol { symbol, span := x.2.span, offset := x.1 } ∈ symbolItem symbol x.2.span x.1 := by
    rw [symbolItem, if_neg used]
    exact List.mem_singleton_self _
  simp only [pieceItems, List.mem_append, List.mem_cons]
  cases fits with
  | token => exact .inl (.inl (.inr (here used)))
  | uppercase h => exact .inl (.inr (by rw [if_pos h]; exact here used))
  | digits h => exact .inr (by rw [if_pos h]; exact List.mem_append_left _ (here used))
  | run h short =>
    exact .inr (by rw [if_pos h, if_pos short]; exact List.mem_append_right _ (here used))

end Feed

/-- The outcome of a pass that drops no match. -/
structure Session.Complete (setting : Setting) (tokens : List Token) (s : Session) : Prop
    extends Charted setting tokens s where
  propagated : ∀ id, id < s.arena.size → s.Propagated id
  served : ∀ item ∈ Pass.feed setting.rules tokens [], item.Served setting s
  whole : s.stats.dropped = 0

section
variable {setting : Setting} {n : NormalForm} {R : Reading Symbol (Nat × Token)}
  {tokens : List Token} {s : Session}

/-- The match of the head covers the stretch, and what the head reports is noted. -/
def Session.Reports (s : Session) (pieces : List Token) (h : Head) (i j : Nat) : Prop :=
  ∃ (id : Nat) (m : Match), s.arena.get? id = some m ∧ m.symbol = h.symbol ∧ m.Covers pieces i j ∧
    (h.callback.id = Builtin.rootRule.id → ⟨h.callback.param, id⟩ ∈ s.derivations)

theorem Session.Made.reports {site : Match} {h : Head} {pieces : List Token} {i j : Nat}
    (whole : s.stats.dropped = 0) (covers : site.Covers pieces i j) (made : Made setting s site h.stored) :
    s.Reports pieces h i j := by
  rcases made with dropped | ⟨id, kind, found, _, noted⟩
  · omega
  · exact ⟨id, _, found, rfl, covers.congr rfl rfl, noted⟩

/-- The pieces `w`, wherever they stand in the text, are covered by a match of the symbol. -/
def Session.Recognises (s : Session) (pieces : List Token) (symbol : Symbol)
    (w : List (Nat × Token)) : Prop :=
  w ≠ [] ∧ ∀ i j, i < j → j ≤ pieces.length → w = Feed.stretch pieces i j → s.Finds pieces symbol i j

/-- What productions read from stretches that are covered is covered too. -/
theorem Session.Complete.reports (runs : setting.Runs n R tokens) (laid : Token.Laid tokens)
    (complete : s.Complete setting tokens) {b : Body} {h : Head} (has : n.Has b h) {i j : Nat}
    (lt : i < j) (le : j ≤ (solidPieces tokens).length)
    (reads : b.Reads R (s.Recognises (solidPieces tokens)) h.gap
      (Feed.stretch (solidPieces tokens) i j)) :
    s.Reports (solidPieces tokens) h i j := by
  have solid := solidPieces_solid laid
  have literal {x : Nat × Token} (single : Feed.stretch (solidPieces tokens) i j = [x])
      (isHead : setting.HeadOfText x.2.value h.stored) : s.Reports (solidPieces tokens) h i j := by
    obtain ⟨rfl, found⟩ := Feed.eq_of_stretch_eq_singleton lt le single
    have item : .terminal x.2.span x.1 x.2.value ∈ Pass.feed setting.rules tokens [] :=
      Feed.mem_feed (List.mem_of_getElem? found) (by simp [Feed.pieceItems])
    have made := complete.served _ item h.stored isHead
    exact made.reports complete.whole (.of_piece found rfl rfl)
  cases b with
  | literal text caseSensitive =>
    cases caseSensitive with
    | true =>
      obtain ⟨x, single, shows⟩ := reads
      rw [runs.shows] at shows
      obtain rfl := Option.some.inj shows
      exact literal single ((runs.ofText _ _).mpr ⟨h, rfl, .inl has⟩)
    | false =>
      obtain ⟨x, t, single, shows, rfl⟩ := reads
      rw [runs.shows] at shows
      obtain rfl := Option.some.inj shows
      exact literal single ((runs.ofText _ _).mpr ⟨h, rfl, .inr has⟩)
  | unary operand =>
    obtain ⟨id, m, found, rfl, covers⟩ := reads.2 i j lt le rfl
    have inChart := complete.propagated id (Arena.lt_size_of_get? found)
    have site : (Task.siteOfOne id m).Covers (solidPieces tokens) i j := covers.congr rfl rfl
    have made := complete.one id m inChart found h.stored ((runs.ofOne _ _).mpr ⟨h, rfl, has⟩)
    exact made.reports complete.whole site
  | binary left right =>
    obtain ⟨v, x, u, parts, first, second, within⟩ := reads
    obtain ⟨total, isFirst, isSecond⟩ := Feed.stretch_split le (Nat.le_of_lt lt) parts
    have longer : i < i + v.length := Nat.lt_add_of_pos_right (List.length_pos_of_ne_nil first.1)
    rw [List.length_cons] at total
    generalize i + v.length = k at *
    obtain ⟨left', l, foundl, rfl, covers⟩ := first.2 i k longer (by omega) isFirst
    obtain ⟨right', r, foundr, rfl, covers'⟩ := second.2 k j (by omega) le isSecond
    have adjacent : r.offset = l.span.stop := covers'.offset.trans covers.stop.symm
    have before := Feed.edge_lt solid covers.lt covers.le
    have after := Feed.edge_lt solid covers'.lt covers'.le
    have different : left' ≠ right' := by
      rintro rfl
      obtain rfl := Option.some.inj (foundl.symm.trans foundr)
      have := covers.offset.symm.trans covers'.offset
      omega
    have precedes : Precedes setting.rules tokens s.arena left' l r := by
      refine .inl ?_
      rw [covers.stop, covers'.stop]
      exact after
    have allowed : allows h.stored (some r.gap) = true := by
      obtain ⟨y, rest, isStretch, found⟩ := Feed.stretch_head covers'.lt covers'.le
      rw [← isSecond] at isStretch
      obtain ⟨rfl, _⟩ := List.cons.inj isStretch
      rw [runs.gaps, ← covers'.gap_eq found] at within
      simpa only [allows, Bool.or_eq_true, decide_eq_true_eq] using (h.stored_gap _).mpr within
    have made := complete.two left' l right' r
      (complete.propagated _ (Arena.lt_size_of_get? foundl))
      (complete.propagated _ (Arena.lt_size_of_get? foundr)) different foundl foundr adjacent precedes
      h.stored ((runs.ofTwo _ _ _).mpr ⟨h, rfl, has⟩) allowed
    have site : (Task.siteOfPair left' l right' r).Covers (solidPieces tokens) i j :=
      covers.join covers' rfl rfl
    exact made.reports complete.whole site

/-- Whatever the productions derive is found. -/
theorem Session.Complete.recognises (runs : setting.Runs n R tokens) (laid : Token.Laid tokens)
    (complete : s.Complete setting tokens) {symbol : Symbol} {w : List (Nat × Token)}
    (derives : n.Derives R symbol w) : s.Recognises (solidPieces tokens) symbol w := by
  refine derives.le (fun b h has w reads => ⟨?_, fun i j lt le isStretch => ?_⟩)
    fun symbol x stands => ⟨by simp, fun i j lt le isStretch => ?_⟩
  · exact NormalForm.Body.Reads.ne_nil (fun _ _ recognises => recognises.1) reads
  · subst isStretch
    obtain ⟨id, m, found, isSymbol, covers, _⟩ := complete.reports runs laid has lt le reads
    exact ⟨id, m, found, isSymbol, covers⟩
  · obtain ⟨rfl, found⟩ := Feed.eq_of_stretch_eq_singleton lt le isStretch.symm
    have placed := List.mem_of_getElem? found
    obtain ⟨used, fits⟩ := (runs.stands x placed symbol).mp stands
    have item : _ ∈ Pass.feed setting.rules tokens [] :=
      Feed.mem_feed placed (Feed.mem_pieceItems_of_fits used fits)
    rcases complete.served _ item with dropped | ⟨id, kind, isMatch, _⟩
    · have := complete.whole
      omega
    · exact ⟨id, _, isMatch, rfl, .of_piece found rfl rfl⟩

/-- Where a production with the callback of a root rule fires, its derivation is noted. -/
theorem Session.Complete.noted (runs : setting.Runs n R tokens) (laid : Token.Laid tokens)
    (complete : s.Complete setting tokens) {ruleId : UInt64} {i j : Nat} (lt : i < j)
    (le : j ≤ (solidPieces tokens).length)
    (fires : n.Fires R ⟨Builtin.rootRule.id, ruleId⟩ (Feed.stretch (solidPieces tokens) i j)) :
    ∃ d ∈ s.derivations, d.ruleId = ruleId ∧
      ∃ m, s.arena.get? d.root = some m ∧ m.Covers (solidPieces tokens) i j := by
  obtain ⟨b, h, has, callback, reads⟩ := fires
  have recognised := reads.mono fun _ _ _ derives => complete.recognises runs laid derives
  obtain ⟨id, m, found, _, covers, noted⟩ := complete.reports runs laid has lt le recognised
  refine ⟨_, noted (by rw [callback]), ?_, m, found, covers⟩
  rw [callback]

end

/-- Where labels hand nothing over, only the pieces do. -/
theorem Feed.flatten_merge {ofLabel : Label × Nat → List FeedItem}
    {ofPiece : Nat → Token → List FeedItem} (nothing : ∀ label, ofLabel label = [])
    (labels : List (Label × Nat)) (last : Nat) (pieces : List Token) :
    (merge ofLabel ofPiece labels last pieces).flatten =
      (place last pieces).flatMap fun x => ofPiece x.1 x.2 := by
  have none (labels : List (Label × Nat)) : (labels.map ofLabel).flatten = [] := by
    rw [List.flatten_eq_nil_iff]
    intro items member
    obtain ⟨label, _, rfl⟩ := List.mem_map.mp member
    exact nothing label
  induction pieces generalizing labels last with
  | nil => exact none labels
  | cons piece rest ih =>
    simp only [merge, List.flatten_append, List.flatten_cons, none, List.nil_append, ih, place,
      List.flatMap_cons]

theorem Pass.session_unlabelled {setting : Setting}
    (noLabel : ∀ name, setting.rules.label? name = none) (tokens : List Token)
    (labels : List Label) : Pass.session setting tokens labels = Pass.session setting tokens [] := by
  have nothing (label : Label × Nat) :
      Feed.labelItems setting.rules (solidPieces tokens) label = [] := by
    simp only [Feed.labelItems, noLabel]
  have same : Pass.feed setting.rules tokens labels = Pass.feed setting.rules tokens [] := by
    simp only [Pass.feed, Feed.items, Feed.flatten_merge nothing]
  rw [Pass.session_eq_foldl, Pass.session_eq_foldl, same]

/-- A match spans its pieces, from the start of the first to the end of the last. -/
theorem Match.Covers.span_eq {m : Match} {pieces : List Token} {i j : Nat}
    (covers : m.Covers pieces i j) :
    ∃ first last, pieces[i]? = some first ∧ pieces[j - 1]? = some last ∧
      m.span = ⟨first.span.start, last.span.stop⟩ := by
  have lt := covers.lt
  have le := covers.le
  have isFirst : pieces[i]? = some pieces[i] := List.getElem?_eq_getElem (by omega)
  have isLast : pieces[j - 1]? = some pieces[j - 1] := List.getElem?_eq_getElem (by omega)
  have start : pieces[i].span.start = m.span.start := by
    have start := covers.start
    rw [isFirst] at start
    exact Option.some.inj start
  have stop : m.span.stop = pieces[j - 1].span.stop := by
    have stop := covers.stop
    rw [show j = (j - 1) + 1 by omega, Feed.edge, isLast] at stop
    exact stop
  refine ⟨_, _, isFirst, isLast, ?_⟩
  rw [start, ← stop]

theorem Pass.session_complete {setting : Setting} {n : NormalForm}
    {R : Reading Symbol (Nat × Token)} {tokens : List Token} (runs : setting.Runs n R tokens)
    (laid : Token.Laid tokens) (whole : (Pass.session setting tokens []).stats.dropped = 0) :
    (Pass.session setting tokens []).Complete setting tokens := by
  have fit : Feed.LabelsFit tokens [] := by simp [Feed.LabelsFit]
  obtain ⟨settled, served⟩ := Pass.session_settled setting laid fit
  exact { settled with
    propagated := settled.full runs.accepting
    served := served
    whole := whole }

/-- The derivations noted by a pass that drops no match are those of the stretches on which a
production with the callback of a root rule fires. -/
theorem Pass.noted_iff_fires {setting : Setting} {n : NormalForm}
    {R : Reading Symbol (Nat × Token)} {tokens : List Token} (runs : setting.Runs n R tokens)
    (laid : Token.Laid tokens) (labels : List Label)
    (whole : (Pass.session setting tokens labels).stats.dropped = 0) (ruleId : UInt64)
    (span : Span) :
    (∃ d ∈ (Pass.session setting tokens labels).derivations, d.ruleId = ruleId ∧
      (Pass.session setting tokens labels).arena.spanOf d = span) ↔
    ∃ i j first last, i < j ∧ (solidPieces tokens)[i]? = some first ∧
      (solidPieces tokens)[j - 1]? = some last ∧ span = ⟨first.span.start, last.span.stop⟩ ∧
      n.Fires R ⟨Builtin.rootRule.id, ruleId⟩ (Feed.stretch (solidPieces tokens) i j) := by
  rw [Pass.session_unlabelled runs.noLabel] at whole ⊢
  have complete := Pass.session_complete runs laid whole
  have sound := Pass.visits_sound (Pass.visits_session setting tokens [])
  have spanOf {d : Derivation} {m : Match}
      (found : (Pass.session setting tokens []).arena.get? d.root = some m) :
      (Pass.session setting tokens []).arena.spanOf d = m.span := by
    rw [Arena.spanOf, found]
    rfl
  constructor
  · rintro ⟨d, member, rfl, rfl⟩
    obtain ⟨m, _, found, ⟨i, j, onStretch, rfl⟩, fires⟩ :=
      (sound.derivations d member).fires (runs.covering laid []) sound
    have covers : m.Covers (solidPieces tokens) i j := onStretch.congr rfl rfl
    obtain ⟨first, last, isFirst, isLast, isSpan⟩ := covers.span_eq
    exact ⟨i, j, first, last, covers.lt, isFirst, isLast, (spanOf found).trans isSpan, fires⟩
  · rintro ⟨i, j, first, last, lt, isFirst, isLast, rfl, fires⟩
    have le : j ≤ (solidPieces tokens).length := by
      have := (List.getElem?_eq_some_iff.mp isLast).1
      omega
    obtain ⟨d, member, rfl, m, found, covers⟩ := complete.noted runs laid lt le fires
    obtain ⟨first', last', isFirst', isLast', isSpan⟩ := covers.span_eq
    obtain rfl := Option.some.inj (isFirst.symm.trans isFirst')
    obtain rfl := Option.some.inj (isLast.symm.trans isLast')
    exact ⟨d, member, rfl, (spanOf found).trans isSpan⟩

end Phrasebook
