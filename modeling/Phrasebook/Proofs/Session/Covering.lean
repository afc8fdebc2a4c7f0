import Phrasebook.Proofs.RuleSet.Faithful
import Phrasebook.Proofs.Session.Soundness

namespace Phrasebook

open Session

theorem Head.stored_gap (h : Head) (m : Nat) :
    (h.stored.gap < 0 ∨ (m : Int) ≤ h.stored.gap.toInt) ↔ GapAllows h.gap m := by
  simp only [GapAllows, stored]
  by_cases negative : h.gap < 0
  · rw [if_pos negative]
    exact ⟨fun _ => .inl negative, fun _ => .inl (by decide)⟩
  · rw [if_neg negative]

/-- The matcher meets productions of `n` only. `Covers offset span w` says that the leaves `w` fill
the span, with white space in front of it from `offset` on. -/
structure Setting.Covering (setting : Setting) (n : NormalForm) (R : Reading Symbol α)
    (tokens : List Token) (labels : List Label) (Covers : Nat → Span → List α → Prop) : Prop where
  ofText : ∀ text h, setting.HeadOfText text h → ∃ k : Head, h = k.stored ∧
    (n.Has (.literal text true) k ∨ n.Has (.literal (Lowercase.text text) false) k)
  ofOne : ∀ operand h, setting.HeadOfOne operand h →
    ∃ k : Head, h = k.stored ∧ n.Has (.unary operand) k
  ofTwo : ∀ left right h, setting.HeadOfTwo left right h →
    ∃ k : Head, h = k.stored ∧ n.Has (.binary left right) k
  supplied : ∀ m, Supplied setting.rules tokens labels m →
    ∃ x, Covers m.offset m.span [x] ∧ R.stands m.symbol x
  piece : ∀ offset piece, (offset, piece) ∈ Feed.place 0 (solidPieces tokens) →
    ∃ x, Covers offset piece.span [x] ∧ R.text? x = some piece.value
  join : ∀ offset first second v u, Covers offset first v → Covers first.stop second u →
    Covers offset ⟨first.start, second.stop⟩ (v ++ u)
  gap : ∀ offset span w, Covers offset span w →
    ∃ x rest, w = x :: rest ∧ R.gap x = span.start - offset

/-- The match covers leaves that its symbol derives. -/
def Match.Recognised (n : NormalForm) (R : Reading Symbol α) (Covers : Nat → Span → List α → Prop)
    (m : Match) : Prop :=
  ∃ w, Covers m.offset m.span w ∧ n.Derives R m.symbol w

section
variable {setting : Setting} {n : NormalForm} {R : Reading Symbol α} {tokens : List Token}
  {labels : List Label} {Covers : Nat → Span → List α → Prop} {s : Session}

/-- A head that yields a match belongs to a production that reads what the match covers. -/
theorem Yields.reads (covering : setting.Covering n R tokens labels Covers) {a : Arena} {h : Head}
    {m : Match} (yields : Yields setting tokens a h m)
    (children : ∀ child ∈ m.children.toList, ∀ c, a.get? child = some c →
      c.Recognised n R Covers) :
    ∃ b k w, n.Has b k ∧ h = k.stored ∧ Covers m.offset m.span w ∧
      b.Reads R (n.Derives R) k.gap w := by
  obtain ⟨_, reason⟩ := yields
  cases shape : m.children with
  | none =>
    simp only [shape] at reason
    obtain ⟨offset, piece, member, span, isOffset, isHead⟩ := reason
    obtain ⟨x, covers, shows⟩ := covering.piece offset piece member
    rw [← span, ← isOffset] at covers
    obtain ⟨k, stored, has | has⟩ := covering.ofText _ h isHead
    · exact ⟨_, k, [x], has, stored, covers, x, rfl, shows⟩
    · exact ⟨_, k, [x], has, stored, covers, x, _, rfl, shows, rfl⟩
  | one child =>
    simp only [shape] at reason
    obtain ⟨c, found, span, offset, isHead⟩ := reason
    obtain ⟨k, stored, has⟩ := covering.ofOne _ h isHead
    obtain ⟨w, covers, derives⟩ := children child (by simp [shape, Children.toList]) c found
    rw [← span, ← offset] at covers
    exact ⟨_, k, w, has, stored, covers, derives⟩
  | two left right =>
    simp only [shape] at reason
    obtain ⟨_, l, r, foundl, foundr, adjacent, span, offset, isHead, within⟩ := reason
    obtain ⟨k, rfl, has⟩ := covering.ofTwo _ _ h isHead
    obtain ⟨v, covers, first⟩ := children left (by simp [shape, Children.toList]) l foundl
    obtain ⟨u, covers', second⟩ := children right (by simp [shape, Children.toList]) r foundr
    obtain ⟨x, rest, rfl, isGap⟩ := covering.gap _ _ _ covers'
    rw [adjacent] at covers'
    refine ⟨_, k, v ++ x :: rest, has, rfl, ?_, v, x, rest, rfl, first, second, ?_⟩
    · rw [span, offset]
      exact covering.join _ _ _ _ _ covers covers'
    · rw [isGap]
      exact (k.stored_gap _).mp within

/-- In a sound session every match is recognised: by induction on ids, children being smaller. -/
theorem Session.Sound.recognised (covering : setting.Covering n R tokens labels Covers)
    (sound : s.Sound setting tokens labels) (id : Nat) (m : Match)
    (found : s.arena.get? id = some m) : m.Recognised n R Covers := by
  induction id using Nat.strong_induction_on generalizing m with
  | h id ih =>
    have justified := sound.arena id m found
    rcases justified.reason with ⟨_, supplied⟩ | ⟨h, yields⟩
    · obtain ⟨x, covers, stands⟩ := covering.supplied m supplied
      exact ⟨[x], covers, .given stands⟩
    · obtain ⟨b, k, w, has, rfl, covers, reads⟩ := yields.reads covering
        fun child member c found => ih child (justified.smaller child member) c found
      refine ⟨w, covers, ?_⟩
      rw [← yields.1]
      exact NormalForm.derives_closed b k has _ reads

/-- A derivation is noted where a production with its callback fires. -/
theorem Derivation.Earned.fires (covering : setting.Covering n R tokens labels Covers)
    (sound : s.Sound setting tokens labels) {d : Derivation}
    (earned : d.Earned setting tokens s.arena) :
    ∃ m w, s.arena.get? d.root = some m ∧ Covers m.offset m.span w ∧
      n.Fires R ⟨Builtin.rootRule.id, d.ruleId⟩ w := by
  obtain ⟨m, h, found, callback, yields⟩ := earned
  obtain ⟨b, k, w, has, rfl, covers, reads⟩ := yields.reads covering
    fun child _ c isChild => sound.recognised covering child c isChild
  exact ⟨m, w, found, covers, b, k, has, callback, reads⟩

end

end Phrasebook
