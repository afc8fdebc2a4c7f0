import Phrasebook.Entity
import Phrasebook.Proofs.Derivation.Nesting
import Phrasebook.Proofs.Session.Evaluation
import Phrasebook.Proofs.Text.WordBounds

namespace Phrasebook

/-- The match stands behind its offset and within the first `length` code points. -/
structure Match.Within (m : Match) (length : Nat) : Prop where
  behind : m.offset ≤ m.span.start
  ordered : m.span.start ≤ m.span.stop
  within : m.span.stop ≤ length

section
variable {setting : Setting} {split : Words.Splitter} {text : String} {s : Session}

theorem stop_le_of_placed (whole : (split text.toList).flatten = text.toList) {m : Match}
    {offset : Nat} {piece : Token}
    (placed : (offset, piece) ∈ Feed.place 0 (solidPieces (tokenize text split)))
    (span : m.span = piece.span) : m.span.stop ≤ text.length :=
  span ▸ (marks_of_mem_solidPieces whole (Feed.mem_of_mem_place placed)).within

theorem Supplied.stop_le (whole : (split text.toList).flatten = text.toList) {m : Match}
    (supplied : Supplied setting.rules (tokenize text split) [] m) :
    m.span.stop ≤ text.length := by
  cases supplied with
  | start => exact Nat.zero_le _
  | stop _ last isLast =>
    rcases Feed.cut_textEnd (tokenize text split) with none | ⟨piece, isPiece, stop⟩
    · exact isLast.trans none ▸ Nat.zero_le _
    · exact isLast.trans stop ▸ (marks_of_mem_solidPieces whole isPiece).within
  | piece offset piece symbol used placed fits => exact stop_le_of_placed whole placed rfl
  | label label index symbol used member => cases member

/-- A match that a head yields stops within the text if its children do. -/
theorem Yields.stop_le (whole : (split text.toList).flatten = text.toList) {a : Arena} {h : Head}
    {m : Match} (yields : Yields setting (tokenize text split) a h m)
    (below : ∀ child ∈ m.children.toList, ∀ c, a.get? child = some c →
      c.span.stop ≤ text.length) : m.span.stop ≤ text.length := by
  obtain ⟨_, reason⟩ := yields
  cases children : m.children with
  | none =>
    simp only [children] at reason
    obtain ⟨offset, piece, placed, span, _⟩ := reason
    exact stop_le_of_placed whole placed span
  | one child =>
    simp only [children] at reason
    obtain ⟨c, found, span, _⟩ := reason
    rw [span]
    exact below child (by simp [children, Children.toList]) c found
  | two left right =>
    simp only [children] at reason
    obtain ⟨_, l, r, _, found, _, span, _⟩ := reason
    rw [span]
    exact below right (by simp [children, Children.toList]) r found

theorem Session.Sound.stop_le (sound : s.Sound setting (tokenize text split) [])
    (whole : (split text.toList).flatten = text.toList) {id : Nat} {m : Match}
    (found : s.arena.get? id = some m) : m.span.stop ≤ text.length := by
  induction id using Nat.strong_induction_on generalizing m with
  | h id ih =>
    have justified := sound.arena id m found
    rcases justified.reason with ⟨_, supplied⟩ | ⟨h, yields⟩
    · exact supplied.stop_le whole
    · exact yields.stop_le whole fun child member _ isChild =>
        ih child (justified.smaller child member) isChild

/-- Every match of an unlabelled text stands within the text and nests its children. -/
theorem Session.Sound.within (sound : s.Sound setting (tokenize text split) [])
    (whole : (split text.toList).flatten = text.toList) {id : Nat} {m : Match}
    (found : s.arena.get? id = some m) : m.Within text.length ∧ m.Nests s.arena := by
  have laid : Token.Laid (tokenize text split) := Token.laid_layOut _ _
  obtain ⟨forward, nests⟩ := sound.nests laid (by simp) found
  exact ⟨⟨forward.behind, forward.ordered, sound.stop_le whole found⟩, nests⟩

end

/-- Whatever is found in a text without labels stands within the text and is quoted as the text reads
there, and so are its parts, which lie inside it. The words need only make up the text. -/
theorem Recognizer.recognize_marks (r : Recognizer) (text : String)
    (whole : (r.split text.toList).flatten = text.toList) (locales : List Locale)
    (options : Options) (e : Entity) (reported : e ∈ r.recognize text { locales } options) :
    e.span.Marks text e.body ∧
      ∀ part ∈ e.parts, part.span.Marks text part.body ∧ e.span.contains part.span = true := by
  simp only [recognize, entities, entity?, List.mem_filterMap, Option.map_eq_some_iff] at reported
  obtain ⟨d, _, root, found, rfl⟩ := reported
  have sound := Pass.visits_sound
    (Pass.visits_session (r.setting { locales } options) (r.tokens text) [])
  have quoted {m : Match} (within : m.Within text.length) :
      m.span.Marks text (String.ofList (m.span.slice text.toList.toArray)) :=
    Span.marks_slice within.ordered within.within
  refine ⟨quoted (sound.within whole found).1, fun part isPart => ?_⟩
  simp only [List.mem_map] at isPart
  obtain ⟨c, isCapture, rfl⟩ := isPart
  obtain ⟨x, m, below, isMatch, _, span⟩ :=
    (Arena.mem_captures sound.childrenFirst).mp isCapture
  dsimp only
  rw [span]
  exact ⟨quoted (sound.within whole isMatch).1,
    Arena.contains_below (fun _ _ known => (sound.within whole known).2) below found isMatch⟩

/-- Every piece is a 1 and also a 2, which is captured; a 1 with a 2 behind it is a 3, which is
reported. -/
def RuleSet.capturing : RuleSet where
  buffer := (words
    [16, 1, 20, 1, 0xffffffff, 0xfffffffe, 2, 3, 9, 0, 0xffffffff, 3, 5, 7, 0, 0xffffffff, 3, 1, 0,
      0, 1, 1, 2, 1]).toArray
  layout :=
    { hasNames := false
      symbolCount := 3
      terminals := {}
      strings := {}
      records := ⟨24, 2⟩
      sets := ⟨0, 2⟩
      filters := ⟨64, 1⟩
      labels := {}
      names := {}
      structural := { token := 1 }
      shards := [{ unary := ⟨68, 1⟩, buckets := ⟨76, 1⟩, binary := ⟨84, 1⟩ }] }

theorem Recognizer.recognize_capturing :
    ({ rules := .capturing } : Recognizer).recognize "1\u00a02" { locales := [] } {} =
      [{ ruleId := 7, rule := "rule#7", body := "1\u00a02", span := ⟨0, 3⟩,
         parts := [⟨9, ⟨2, 3⟩, "2"⟩] }] := by
  unfold recognize entities entity? run Pass.run Pass.ofSession
  simp only [Pass.select_session, Pass.captures_session]
  rw [Pass.session_eq_sessionIn 500]
  decide +kernel

/-- The blank takes two bytes, and the digit behind it is the third code point. -/
theorem Recognizer.recognize_marks_capturing :
    ∃ e ∈ ({ rules := .capturing } : Recognizer).recognize "1\u00a02" { locales := [] } {},
      e.span = ⟨0, 3⟩ ∧ e.span.Marks "1\u00a02" e.body ∧
        ∃ part ∈ e.parts, part.span = ⟨2, 3⟩ ∧ part.body = "2" ∧
          part.span.Marks "1\u00a02" part.body ∧ e.span.contains part.span = true := by
  have reported := List.mem_singleton_self
    ({ ruleId := 7, rule := "rule#7", body := "1\u00a02", span := ⟨0, 3⟩,
       parts := [⟨9, ⟨2, 3⟩, "2"⟩] } : Entity)
  rw [← recognize_capturing] at reported
  obtain ⟨marks, inside⟩ := recognize_marks { rules := .capturing } "1\u00a02"
    (Words.flatten_split "1\u00a02".toList) [] {} _ reported
  have isPart := List.mem_singleton_self (⟨9, ⟨2, 3⟩, "2"⟩ : Entity.Part)
  exact ⟨_, reported, rfl, marks, _, isPart, rfl, rfl, inside _ isPart⟩

end Phrasebook
