import Phrasebook.Grammar.Lowering

namespace Phrasebook

namespace Grammar

/-- Two runs end alike: with the same error, or with results that are related. -/
def Alike (Rel : α → β → Prop) : Except Error α → Except Error β → Prop
  | .ok a, .ok b => Rel a b
  | .error e, .error e' => e = e'
  | _, _ => False

namespace Alike

variable {Rel : α → β → Prop} {x : Except Error α} {y : Except Error β}

theorem bind_results {Rel' : γ → δ → Prop} {f : α → Except Error γ} {f' : β → Except Error δ}
    (first : Alike Rel x y)
    (second : ∀ a b, x = .ok a → y = .ok b → Rel a b → Alike Rel' (f a) (f' b)) :
    Alike Rel' (x >>= f) (y >>= f') := by
  match x, y, first with
  | .ok a, .ok b, related => exact second a b rfl rfl related
  | .error e, .error _, same => exact same

theorem bind {Rel' : γ → δ → Prop} {f : α → Except Error γ} {f' : β → Except Error δ}
    (first : Alike Rel x y) (second : ∀ a b, Rel a b → Alike Rel' (f a) (f' b)) :
    Alike Rel' (x >>= f) (y >>= f') :=
  first.bind_results fun a b _ _ => second a b

/-- The second run does something more, and succeeds. -/
theorem more {Rel' : α → γ → Prop} {f : β → Except Error γ} (first : Alike Rel x y)
    (second : ∀ a b, Rel a b → ∃ c, f b = .ok c ∧ Rel' a c) : Alike Rel' x (y >>= f) := by
  match x, y, first with
  | .ok a, .ok b, related =>
    obtain ⟨c, result, related'⟩ := second a b related
    exact (congrArg (Alike Rel' (.ok a)) result).mpr related'
  | .error e, .error _, same => exact same

theorem weaken {Rel' : α → β → Prop} (alike : Alike Rel x y)
    (weaker : ∀ a b, x = .ok a → y = .ok b → Rel a b → Rel' a b) : Alike Rel' x y := by
  match x, y, alike with
  | .ok a, .ok b, related => exact weaker a b rfl rfl related
  | .error e, .error _, same => exact same

theorem error_iff (alike : Alike Rel x y) (e : Error) : x = .error e ↔ y = .error e := by
  match x, y, alike with
  | .ok a, .ok b, _ => exact ⟨nofun, nofun⟩
  | .error e, .error _, rfl => exact ⟨fun same => congrArg _ (Except.error.inj same),
      fun same => congrArg _ (Except.error.inj same)⟩

/-- What is alike to a success succeeds. -/
theorem exists_ok {b : β} (alike : Alike Rel x (.ok b)) : ∃ a, x = .ok a ∧ Rel a b := by
  match x, alike with
  | .ok a, related => exact ⟨a, rfl, related⟩

/-- A run is alike to itself, with all that is known of its result. -/
theorem itself {P : α → Prop} (holds : ∀ a, x = .ok a → P a) : Alike (fun a b => a = b ∧ P b) x x := by
  cases x with
  | ok a => exact ⟨rfl, holds a rfl⟩
  | error e => exact rfl

/-- Two runs over the same elements, which are numbered from `start` on. -/
theorem foldlM {xs : List ι} {f : α → ι × Nat → Except Error α} {f' : β → ι × Nat → Except Error β}
    (I : Nat → α → β → Prop) {start : Nat} {a : α} {b : β} (holds : I start a b)
    (each : ∀ i x a b, xs[i]? = some x → I (start + i) a b →
      Alike (I (start + i + 1)) (f a (x, start + i)) (f' b (x, start + i))) :
    Alike (I (start + xs.length)) ((xs.zipIdx start).foldlM f a) ((xs.zipIdx start).foldlM f' b) := by
  induction xs generalizing start a b with
  | nil => exact holds
  | cons x xs ih =>
    rw [List.zipIdx_cons, List.foldlM_cons, List.foldlM_cons, List.length_cons,
      Nat.add_comm xs.length 1, ← Nat.add_assoc]
    refine (each 0 x a b rfl holds).bind fun a' b' holds' => ih holds' fun i y a b found here => ?_
    rw [Nat.add_assoc start 1 i, Nat.add_comm 1 i] at here ⊢
    exact each (i + 1) y a b found here

end Alike

/-- A run in which every step succeeds. -/
theorem foldlM_succeeds {xs : List ι} {f : α → ι × Nat → Except Error α} (I : Nat → α → Prop)
    {start : Nat} {a : α} (holds : I start a)
    (each : ∀ i x a, xs[i]? = some x → I (start + i) a →
      ∃ b, f a (x, start + i) = .ok b ∧ I (start + i + 1) b) :
    ∃ b, (xs.zipIdx start).foldlM f a = .ok b ∧ I (start + xs.length) b := by
  let idle : Unit → ι × Nat → Except Error Unit := fun _ _ => pure ()
  have alike : Alike (fun a _ => I (start + xs.length) a) ((xs.zipIdx start).foldlM f a)
      ((xs.zipIdx start).foldlM idle ()) := by
    refine Alike.foldlM (fun k a _ => I k a) holds fun i x a _ found here => ?_
    obtain ⟨b, result, holds'⟩ := each i x a found here
    rw [result]
    exact holds'
  have done : (xs.zipIdx start).foldlM idle () = .ok () := List.foldlM_pure
  rw [done] at alike
  exact alike.exists_ok

namespace Progress

variable {g : Grammar} {p q : Progress}
  {step step' : Progress → Nat → Nonterminal → Except Error Progress}

/-- Two rounds over the same nonterminals. -/
theorem eachNonterminal_alike (I : Nat → Progress → Progress → Prop) (start : I 0 p q)
    (each : ∀ k n p q, g.nonterminals[k]? = some n → I k p q →
      Alike (I (k + 1)) (step p k n) (step' q k n)) :
    Alike (I g.nonterminals.size) (g.eachNonterminal p step) (g.eachNonterminal q step') := by
  have alike : Alike (I (0 + g.nonterminals.toList.length)) (g.eachNonterminal p step)
      (g.eachNonterminal q step') := by
    refine Alike.foldlM I start fun i n p q found holds => ?_
    rw [Nat.zero_add] at holds ⊢
    exact each i n p q (Array.getElem?_toList.symm.trans found) holds
  rwa [Nat.zero_add, Array.length_toList] at alike

/-- What each step of a round keeps holds after all nonterminals. -/
theorem eachNonterminal_induction (I : Nat → Progress → Prop) (run : g.eachNonterminal p step = .ok q)
    (start : I 0 p)
    (each : ∀ k n p q, g.nonterminals[k]? = some n → I k p → step p k n = .ok q → I (k + 1) q) :
    I g.nonterminals.size q := by
  have alike : Alike (fun p q => p = q ∧ I g.nonterminals.size q) (g.eachNonterminal p step)
      (g.eachNonterminal p step) := by
    refine eachNonterminal_alike (fun k p q => p = q ∧ I k q) ⟨rfl, start⟩ fun k n p q found both => ?_
    obtain ⟨rfl, holds⟩ := both
    exact .itself fun p' stepped => each k n p p' found holds stepped
  rw [run] at alike
  exact alike.2

/-- A round in which every step succeeds. -/
theorem eachNonterminal_succeeds (I : Nat → Progress → Prop) (start : I 0 p)
    (each : ∀ k n p, g.nonterminals[k]? = some n → I k p → ∃ q, step p k n = .ok q ∧ I (k + 1) q) :
    ∃ q, g.eachNonterminal p step = .ok q ∧ I g.nonterminals.size q := by
  have succeeds : ∃ q, g.eachNonterminal p step = .ok q ∧ I (0 + g.nonterminals.toList.length) q := by
    refine foldlM_succeeds I start fun i n p found holds => ?_
    rw [Nat.zero_add] at holds ⊢
    exact each i n p (Array.getElem?_toList.symm.trans found) holds
  rwa [Nat.zero_add, Array.length_toList] at succeeds

end Progress

end Grammar

end Phrasebook
