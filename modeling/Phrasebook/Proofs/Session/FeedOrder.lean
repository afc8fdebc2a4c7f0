import Phrasebook.Proofs.Session.Soundness
import Phrasebook.Proofs.Text.Pieces

namespace Phrasebook

namespace FeedItem

def stop : FeedItem → Nat
  | .terminal span _ _ => span.stop
  | .symbol m => m.span.stop

def offset : FeedItem → Nat
  | .terminal _ offset _ => offset
  | .symbol m => m.offset

end FeedItem

namespace Feed

/-- Where the last piece ends. -/
def textEnd (tokens : List Token) : Nat :=
  (((solidPieces tokens).getLast?).map (·.span.stop)).getD 0

/-- The symbol at the end of the text. -/
def closing (rules : RuleSet) (tokens : List Token) : Match :=
  { symbol := rules.layout.structural.stop
    span := ⟨textEnd tokens, textEnd tokens⟩
    offset := textEnd tokens }

/-- The start of the text or the end of a piece. -/
def Cut (tokens : List Token) (n : Nat) : Prop :=
  n = 0 ∨ ∃ piece ∈ solidPieces tokens, n = piece.span.stop

/-- `x` may come before `y`: it stops no later, if `y` stops at a cut, and where `x` covers nothing
only the end of the text can follow at the same place. -/
def Before (rules : RuleSet) (tokens : List Token) (x y : FeedItem) : Prop :=
  (Cut tokens y.stop → x.stop ≤ y.stop) ∧
  (x.stop ≤ x.offset → y.stop = x.offset → y = .symbol (closing rules tokens))

/-- Items in an order that the matcher can rely on. -/
structure Ordered (rules : RuleSet) (tokens : List Token) (items : List FeedItem) : Prop where
  offsets : ∀ item ∈ items, Cut tokens item.offset
  terminals : ∀ span offset text, .terminal span offset text ∈ items → offset < span.stop
  leaves : ∀ m, .symbol m ∈ items → m.children = .none
  order : items.Pairwise (Before rules tokens)

/-- The labels cover something and end with the text at the latest. -/
def LabelsFit (tokens : List Token) (labels : List Label) : Prop :=
  ∀ label ∈ labels, label.span.start < label.span.stop ∧ label.span.stop ≤ textEnd tokens

theorem mem_of_mem_place {last : Nat} {pieces : List Token} {x : Nat × Token}
    (member : x ∈ place last pieces) : x.2 ∈ pieces := by
  induction pieces generalizing last with
  | nil => cases member
  | cons piece rest ih =>
    rcases List.mem_cons.mp member with rfl | member
    · exact List.mem_cons_self
    · exact List.mem_cons_of_mem _ (ih member)

/-- A piece is placed after `last` or after a piece, and before its own start. -/
theorem offset_of_mem_place {last : Nat} {pieces : List Token}
    (ordered : pieces.Pairwise fun a b => a.span.stop ≤ b.span.start)
    (after : ∀ piece ∈ pieces, last ≤ piece.span.start) {x : Nat × Token}
    (member : x ∈ place last pieces) :
    (x.1 = last ∨ ∃ piece ∈ pieces, x.1 = piece.span.stop) ∧ x.1 ≤ x.2.span.start := by
  induction pieces generalizing last with
  | nil => cases member
  | cons piece rest ih =>
    obtain ⟨isBefore, ordered⟩ := List.pairwise_cons.mp ordered
    rcases List.mem_cons.mp member with rfl | member
    · exact ⟨.inl rfl, after piece List.mem_cons_self⟩
    · obtain ⟨from_, within⟩ := ih ordered isBefore member
      refine ⟨.inr ?_, within⟩
      rcases from_ with eq | ⟨other, inRest, eq⟩
      · exact ⟨piece, List.mem_cons_self, eq⟩
      · exact ⟨other, List.mem_cons_of_mem _ inRest, eq⟩

theorem pairwise_place {R : Token → Token → Prop} {last : Nat} {pieces : List Token}
    (h : pieces.Pairwise R) : (place last pieces).Pairwise fun x y => R x.2 y.2 := by
  induction pieces generalizing last with
  | nil => exact .nil
  | cons piece rest ih =>
    obtain ⟨first, rest⟩ := List.pairwise_cons.mp h
    exact List.pairwise_cons.mpr ⟨fun x member => first _ (mem_of_mem_place member), ih rest⟩

/-- Of labels sorted by their stops, those after the first that stops late all stop late. -/
theorem lt_of_mem_dropWhile {labels later : List (Label × Nat)} {bound : Nat}
    (sorted : labels.Pairwise fun a b => a.1.span.stop ≤ b.1.span.stop)
    (isLater : labels.dropWhile (·.1.span.stop ≤ bound) = later) :
    ∀ a ∈ later, bound < a.1.span.stop := by
  induction labels with
  | nil =>
    obtain rfl : later = [] := by simpa using isLater.symm
    simp
  | cons first rest ih =>
    obtain ⟨least, sorted⟩ := List.pairwise_cons.mp sorted
    by_cases due : first.1.span.stop ≤ bound
    · exact ih sorted (by simpa [List.dropWhile_cons, due] using isLater)
    · obtain rfl : first :: rest = later := by simpa [List.dropWhile_cons, due] using isLater
      intro a member
      rcases List.mem_cons.mp member with rfl | member
      · omega
      · have := least a member
        omega

section
variable {ofLabel : Label × Nat → β} {ofPiece : Nat → Token → β}

/-- In a merge a label comes before the pieces that start where it stops or later, and after the
others. -/
theorem pairwise_merge {R : β → β → Prop} {labels : List (Label × Nat)}
    {last : Nat} {pieces : List Token}
    (sorted : labels.Pairwise fun a b => a.1.span.stop ≤ b.1.span.stop)
    (ordered : pieces.Pairwise fun a b => a.span.stop ≤ b.span.start)
    (solid : ∀ piece ∈ pieces, piece.span.start < piece.span.stop)
    (labelLabel : labels.Pairwise fun a b => R (ofLabel a) (ofLabel b))
    (labelPiece : ∀ a ∈ labels, ∀ x ∈ place last pieces, a.1.span.stop ≤ x.2.span.start →
      R (ofLabel a) (ofPiece x.1 x.2))
    (pieceLabel : ∀ x ∈ place last pieces, ∀ a ∈ labels, x.2.span.start < a.1.span.stop →
      R (ofPiece x.1 x.2) (ofLabel a))
    (piecePiece : (place last pieces).Pairwise fun x y => R (ofPiece x.1 x.2) (ofPiece y.1 y.2)) :
    (merge ofLabel ofPiece labels last pieces).Pairwise R := by
  induction pieces generalizing labels last with
  | nil => exact List.pairwise_map.mpr labelLabel
  | cons piece rest ih =>
    obtain ⟨isBefore, ordered⟩ := List.pairwise_cons.mp ordered
    obtain ⟨pieceRest, restRest⟩ := List.pairwise_cons.mp piecePiece
    have here := solid piece List.mem_cons_self
    have placed {x : Nat × Token} (member : x ∈ place piece.span.stop rest) :
        x ∈ place last (piece :: rest) := List.mem_cons_of_mem _ member
    rw [merge, List.span_eq_takeWhile_dropWhile]
    dsimp only
    generalize isDue : labels.takeWhile (·.1.span.stop ≤ piece.span.start) = due
    generalize isLater : labels.dropWhile (·.1.span.stop ≤ piece.span.start) = later
    have parts : due ++ later = labels := by rw [← isDue, ← isLater, List.takeWhile_append_dropWhile]
    have dueStops : ∀ a ∈ due, a.1.span.stop ≤ piece.span.start := by
      intro a member
      rw [← isDue] at member
      simpa using List.mem_takeWhile_imp member
    have laterStops : ∀ a ∈ later, piece.span.start < a.1.span.stop := by
      exact lt_of_mem_dropWhile sorted isLater
    subst parts
    obtain ⟨_, sortedLater, _⟩ := List.pairwise_append.mp sorted
    obtain ⟨dueDue, laterLater, dueLater⟩ := List.pairwise_append.mp labelLabel
    have tail : (merge ofLabel ofPiece later piece.span.stop rest).Pairwise R := by
      refine ih sortedLater ordered (fun other member => solid other (List.mem_cons_of_mem _ member))
        laterLater ?_ ?_ restRest
      · exact fun a member x isPlaced =>
          labelPiece a (List.mem_append_right _ member) x (placed isPlaced)
      · exact fun x isPlaced a member =>
          pieceLabel x (placed isPlaced) a (List.mem_append_right _ member)
    refine List.pairwise_append.mpr ⟨List.pairwise_map.mpr dueDue,
      List.pairwise_cons.mpr ⟨?_, tail⟩, ?_⟩
    · intro items member
      rcases mem_merge member with ⟨a, isLabel, rfl⟩ | ⟨offset, other, isPlaced, rfl⟩
      · exact pieceLabel _ List.mem_cons_self a (List.mem_append_right _ isLabel)
          (laterStops a isLabel)
      · exact pieceRest _ isPlaced
    · intro first isFirst second isSecond
      obtain ⟨a, isLabel, rfl⟩ := List.mem_map.mp isFirst
      have before := dueStops a isLabel
      rcases List.mem_cons.mp isSecond with rfl | member
      · exact labelPiece a (List.mem_append_left _ isLabel) _ List.mem_cons_self before
      · rcases mem_merge member with ⟨other, isLater, rfl⟩ | ⟨offset, other, isPlaced, rfl⟩
        · exact dueLater a isLabel other isLater
        · refine labelPiece a (List.mem_append_left _ isLabel) _ (placed isPlaced) ?_
          have := isBefore other (mem_of_mem_place isPlaced)
          dsimp only
          omega

end

section
variable {rules : RuleSet} {tokens : List Token} {labels : List Label}

theorem mem_symbolItem {symbol : Symbol} {span : Span} {offset : Nat} {kind : MatchKind}
    {item : FeedItem} (member : item ∈ symbolItem symbol span offset kind) :
    item = .symbol { symbol, span, offset, kind } := by
  unfold symbolItem at member
  split at member
  · cases member
  · exact List.mem_singleton.mp member

/-- All items of a piece stand where the piece does. -/
theorem mem_pieceItems {structural : Structural.Symbols} {x : Nat × Token} {item : FeedItem}
    (member : item ∈ pieceItems structural x.1 x.2) :
    item.stop = x.2.span.stop ∧ item.offset = x.1 := by
  have ofSymbol {symbol : Symbol} (member : item ∈ symbolItem symbol x.2.span x.1) :
      item.stop = x.2.span.stop ∧ item.offset = x.1 := by
    rw [mem_symbolItem member]
    exact ⟨rfl, rfl⟩
  simp only [pieceItems, List.mem_append, List.mem_cons] at member
  rcases member with ((rfl | token) | uppercase) | digits
  · exact ⟨rfl, rfl⟩
  · exact ofSymbol token
  · split at uppercase
    · exact ofSymbol uppercase
    · cases uppercase
  · split at digits
    · rcases List.mem_append.mp digits with all | run
      · exact ofSymbol all
      · split at run
        · exact ofSymbol run
        · cases run
    · cases digits

theorem mem_labelItems {pieces : List Token} {label : Label × Nat} {item : FeedItem}
    (member : item ∈ labelItems rules pieces label) :
    item.stop = label.1.span.stop ∧ item.offset = labelOffset pieces label.1 := by
  unfold labelItems at member
  split at member
  · cases member
  · rw [mem_symbolItem member]
    exact ⟨rfl, rfl⟩

theorem foldl_max_cases (xs : List Nat) (a : Nat) :
    xs.foldl max a = a ∨ xs.foldl max a ∈ xs := by
  induction xs generalizing a with
  | nil => exact .inl rfl
  | cons x rest ih =>
    rcases ih (max a x) with same | member
    · rw [List.foldl_cons, same]
      rcases Nat.le_total a x with h | h
      · exact .inr (by simp [Nat.max_eq_right h])
      · exact .inl (Nat.max_eq_left h)
    · exact .inr (List.mem_cons_of_mem _ member)

/-- A label hangs on the end of a piece before it, or on the start of the text. -/
theorem labelOffset_cut (tokens : List Token) (label : Label) :
    Cut tokens (labelOffset (solidPieces tokens) label) ∧
      labelOffset (solidPieces tokens) label ≤ label.span.start := by
  rcases foldl_max_cases (((solidPieces tokens).map (·.span.stop)).filter
    (· ≤ label.span.start)) 0 with zero | member
  · rw [labelOffset, zero]
    exact ⟨.inl rfl, Nat.zero_le _⟩
  · obtain ⟨isStop, within⟩ := List.mem_filter.mp member
    obtain ⟨piece, isPiece, eq⟩ := List.mem_map.mp isStop
    exact ⟨.inr ⟨piece, isPiece, eq.symm⟩, of_decide_eq_true within⟩

theorem place_cut (laid : Token.Laid tokens) {x : Nat × Token}
    (member : x ∈ place 0 (solidPieces tokens)) : Cut tokens x.1 ∧ x.1 ≤ x.2.span.start :=
  offset_of_mem_place (solidPieces_laid laid).ordered (fun _ _ => Nat.zero_le _) member

/-- Of two pieces one ends before the other starts. -/
theorem piece_trichotomy (laid : Token.Laid tokens) {a b : Token} (isA : a ∈ solidPieces tokens)
    (isB : b ∈ solidPieces tokens) :
    a = b ∨ a.span.stop ≤ b.span.start ∨ b.span.stop ≤ a.span.start := by
  have symmetric : (solidPieces tokens).Pairwise fun a b =>
      a = b ∨ a.span.stop ≤ b.span.start ∨ b.span.stop ≤ a.span.start :=
    (solidPieces_laid laid).ordered.imp fun h => .inr (.inl h)
  refine symmetric.forall_of_forall_of_flip (fun _ _ => .inl rfl) ?_ isA isB
  refine symmetric.imp fun {a b} h => ?_
  rcases h with h | h | h
  · exact .inl h.symm
  · exact .inr (.inr h)
  · exact .inr (.inl h)

theorem stop_le_textEnd (laid : Token.Laid tokens) {piece : Token}
    (member : piece ∈ solidPieces tokens) : piece.span.stop ≤ textEnd tokens := by
  have ordered := (solidPieces_laid laid).ordered
  have solid : ∀ p ∈ solidPieces tokens, p.span.start < p.span.stop :=
    fun p => solidPieces_pos laid
  unfold textEnd
  generalize solidPieces tokens = pieces at *
  cases pieces using List.reverseRecOn with
  | nil => cases member
  | append_singleton front last =>
    simp only [List.getLast?_append, List.getLast?_singleton, Option.some_or, Option.map_some,
      Option.getD_some]
    rcases List.mem_append.mp member with inFront | isLast
    · have before := (List.pairwise_append.mp ordered).2.2 piece inFront last List.mem_cons_self
      have := solid last (by simp)
      omega
    · rw [List.mem_singleton.mp isLast]

theorem cut_textEnd (tokens : List Token) : Cut tokens (textEnd tokens) := by
  unfold Cut textEnd
  cases last : (solidPieces tokens).getLast? with
  | none => exact .inl rfl
  | some piece => exact .inr ⟨piece, List.mem_of_getLast? last, rfl⟩

/-- An item that covers something may come before any other that does not stop earlier. -/
theorem before_of_le {x y : FeedItem} (covers : x.offset < x.stop)
    (stops : Cut tokens y.stop → x.stop ≤ y.stop) : Before rules tokens x y :=
  ⟨stops, fun empty => absurd empty (by omega)⟩

/-- The labels in the order of their stops, each with its number. -/
def byStop (labels : List Label) : List (Label × Nat) :=
  labels.zipIdx.mergeSort fun a b => a.1.span.stop ≤ b.1.span.stop

theorem mem_byStop {a : Label × Nat} (member : a ∈ byStop labels) : a.1 ∈ labels :=
  List.mem_of_getElem? (List.mk_mem_zipIdx_iff_getElem?.mp (List.mem_mergeSort.mp member))

theorem pairwise_byStop (labels : List Label) :
    (byStop labels).Pairwise fun a b => a.1.span.stop ≤ b.1.span.stop := by
  refine (List.pairwise_mergeSort ?_ ?_ _).imp fun h => of_decide_eq_true h
  · simp only [decide_eq_true_eq]
    omega
  · simp only [Bool.or_eq_true, decide_eq_true_eq]
    omega

/-- What the pieces and the labels give between the two ends of the text. -/
def inner (rules : RuleSet) (tokens : List Token) (labels : List Label) : List FeedItem :=
  (merge (labelItems rules (solidPieces tokens)) (pieceItems rules.layout.structural)
    (byStop labels) 0 (solidPieces tokens)).flatten

/-- An inner item belongs to a label or a piece and covers something. -/
theorem mem_inner (laid : Token.Laid tokens) (fit : LabelsFit tokens labels) {x : FeedItem}
    (member : x ∈ inner rules tokens labels) :
    Cut tokens x.offset ∧ x.offset < x.stop ∧ x.stop ≤ textEnd tokens := by
  obtain ⟨items, merged, isItem⟩ := List.mem_flatten.mp member
  rcases mem_merge merged with ⟨a, isLabel, rfl⟩ | ⟨offset, piece, placed, rfl⟩
  · obtain ⟨stop, offset⟩ := mem_labelItems isItem
    obtain ⟨cut, start⟩ := labelOffset_cut tokens a.1
    obtain ⟨covers, ends⟩ := fit a.1 (mem_byStop isLabel)
    exact ⟨offset ▸ cut, by omega, by omega⟩
  · obtain ⟨stop, eq⟩ : x.stop = piece.span.stop ∧ x.offset = offset :=
      mem_pieceItems (x := (offset, piece)) isItem
    obtain ⟨cut, start⟩ := place_cut laid placed
    have isPiece := mem_of_mem_place placed
    have covers := solidPieces_pos laid isPiece
    have ends := stop_le_textEnd laid isPiece
    simp only at start covers ends
    exact ⟨eq ▸ cut, by omega, by omega⟩

theorem pairwise_inner (laid : Token.Laid tokens) (fit : LabelsFit tokens labels) :
    (inner rules tokens labels).Pairwise (Before rules tokens) := by
  have ofLabel {a : Label × Nat} (member : a ∈ byStop labels) {x : FeedItem}
      (isItem : x ∈ labelItems rules (solidPieces tokens) a) :
      x.stop = a.1.span.stop ∧ x.offset < x.stop := by
    obtain ⟨stop, offset⟩ := mem_labelItems isItem
    have start := (labelOffset_cut tokens a.1).2
    have covers := (fit a.1 (mem_byStop member)).1
    omega
  have ofPiece {p : Nat × Token} (member : p ∈ place 0 (solidPieces tokens)) {x : FeedItem}
      (isItem : x ∈ pieceItems rules.layout.structural p.1 p.2) :
      x.stop = p.2.span.stop ∧ x.offset < x.stop := by
    obtain ⟨stop, offset⟩ := mem_pieceItems isItem
    have start := (place_cut laid member).2
    have covers := solidPieces_pos laid (mem_of_mem_place member)
    omega
  refine List.pairwise_flatten.mpr ⟨fun items member => ?_, ?_⟩
  · rcases mem_merge member with ⟨a, isLabel, rfl⟩ | ⟨offset, piece, placed, rfl⟩
    · refine List.pairwise_of_forall_mem_list fun x isX y isY => ?_
      have left := ofLabel isLabel isX
      have right := ofLabel isLabel isY
      exact before_of_le left.2 fun _ => by omega
    · refine List.pairwise_of_forall_mem_list fun x isX y isY => ?_
      have left := ofPiece placed isX
      have right := ofPiece placed isY
      exact before_of_le left.2 fun _ => by omega
  · have order := pairwise_byStop labels
    refine pairwise_merge order (solidPieces_laid laid).ordered (fun _ => solidPieces_pos laid)
      ?_ ?_ ?_ ?_
    · refine order.imp_of_mem fun {a b} isA isB le x isX y isY => ?_
      have left := ofLabel isA isX
      have right := ofLabel isB isY
      exact before_of_le left.2 fun _ => by omega
    · intro a isA p placed le x isX y isY
      have left := ofLabel isA isX
      have right := ofPiece placed isY
      have covers := solidPieces_pos laid (mem_of_mem_place placed)
      exact before_of_le left.2 fun _ => by omega
    · intro p placed a isA lt x isX y isY
      have left := ofPiece placed isX
      have right := ofLabel isA isY
      refine before_of_le left.2 fun cut => ?_
      rcases cut with zero | ⟨q, isPiece, eq⟩
      · omega
      · have isP := mem_of_mem_place placed
        have covers := solidPieces_pos laid isPiece
        rcases piece_trichotomy laid isP isPiece with same | h | h
        · rw [← same] at eq
          omega
        · omega
        · omega
    · refine (pairwise_place (solidPieces_laid laid).ordered).imp_of_mem
        fun {p q} isP isQ le x isX y isY => ?_
      have left := ofPiece isP isX
      have right := ofPiece isQ isY
      have covers := solidPieces_pos laid (mem_of_mem_place isQ)
      exact before_of_le left.2 fun _ => by omega

end

end Feed

/-- What a pass hands to the matcher is in order. -/
theorem Pass.feed_ordered (rules : RuleSet) {tokens : List Token} {labels : List Label}
    (laid : Token.Laid tokens) (fit : Feed.LabelsFit tokens labels) :
    Feed.Ordered rules tokens (Pass.feed rules tokens labels) := by
  have split : Pass.feed rules tokens labels =
      Feed.symbolItem rules.layout.structural.start ⟨0, 0⟩ 0 ++
        (Feed.inner rules tokens labels ++ Feed.symbolItem rules.layout.structural.stop
          ⟨Feed.textEnd tokens, Feed.textEnd tokens⟩ (Feed.textEnd tokens)) := rfl
  have single (symbol : Symbol) (span : Span) (offset : Nat) :
      (Feed.symbolItem symbol span offset).Pairwise (Feed.Before rules tokens) := by
    unfold Feed.symbolItem
    split <;> simp
  refine ⟨?_, ?_, fun m member => (Pass.feed_due rules tokens labels _ member).1, ?_⟩
  all_goals rw [split]
  · intro item member
    simp only [List.mem_append] at member
    rcases member with start | inner | stop
    · rw [Feed.mem_symbolItem start]
      exact .inl rfl
    · exact (Feed.mem_inner laid fit inner).1
    · rw [Feed.mem_symbolItem stop]
      exact Feed.cut_textEnd tokens
  · intro span offset text member
    simp only [List.mem_append] at member
    rcases member with start | inner | stop
    · cases Feed.mem_symbolItem start
    · exact (Feed.mem_inner laid fit inner).2.1
    · cases Feed.mem_symbolItem stop
  · refine List.pairwise_append.mpr ⟨single _ _ _, List.pairwise_append.mpr
      ⟨Feed.pairwise_inner laid fit, single _ _ _, fun x isInner y isStop => ?_⟩,
      fun x isStart y member => ?_⟩
    · obtain ⟨_, covers, ends⟩ := Feed.mem_inner laid fit isInner
      rw [Feed.mem_symbolItem isStop]
      exact Feed.before_of_le covers fun _ => ends
    · rw [Feed.mem_symbolItem isStart]
      refine ⟨fun _ => Nat.zero_le _, fun _ here => ?_⟩
      rcases List.mem_append.mp member with isInner | isStop
      · have covers := (Feed.mem_inner laid fit isInner).2.1
        rw [here] at covers
        exact absurd covers (Nat.not_lt_zero _)
      · exact Feed.mem_symbolItem isStop

end Phrasebook
