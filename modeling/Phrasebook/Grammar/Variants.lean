import Std.Data.HashSet

namespace Phrasebook

/-- Every way to leave out optional elements, those marked `true`. Variants that keep the first
optional element alternate with those that omit it, so the full list comes first. -/
def variants : List (α × Bool) → List (List α)
  | [] => [[]]
  | (e, false) :: rest => (variants rest).map (e :: ·)
  | (e, true) :: rest => (variants rest).flatMap fun variant => [e :: variant, variant]

section
variable [BEq α] [Hashable α]

/-- `items` without those in `seen` and without repetitions, the first of equals kept. -/
def distinctFrom (seen : Std.HashSet α) (kept : List α) : List α → List α
  | [] => kept.reverse
  | a :: rest =>
    if seen.contains a then distinctFrom seen kept rest
    else distinctFrom (seen.insert a) (a :: kept) rest

def distinct (items : List α) : List α := distinctFrom ∅ [] items

end

end Phrasebook
