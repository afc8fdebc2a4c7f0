import Phrasebook.Session.Builtin
import Phrasebook.Token

/-!
What the matcher is given for a text, in order: each piece with the structural symbols it fits, the
caller's labels as soon as they end, and the end of the text.
-/

namespace Phrasebook

/-- A span that the caller has found by other means. It takes part under the nonterminal that the
grammar binds to its name. -/
structure Label where
  name : String
  span : Span
  deriving DecidableEq, Repr, Inhabited

/-- What a text hands to the matcher: pieces to be looked up among the literals, and symbols that
need no rule. -/
inductive FeedItem
  | terminal (span : Span) (offset : Nat) (text : String)
  | symbol (m : Match)
  deriving DecidableEq, Repr

namespace Feed

/-- A symbol, unless the grammar has none. -/
def symbolItem (symbol : Symbol) (span : Span) (offset : Nat) (kind : MatchKind := .plain) :
    List FeedItem :=
  if symbol = 0 then [] else [.symbol { symbol, span, offset, kind }]

/-- A piece gives a terminal and the structural symbols that fit its makeup. -/
def pieceItems (structural : Structural.Symbols) (offset : Nat) (piece : Token) : List FeedItem :=
  let makeup := Makeup.ofText piece.value
  let length := piece.span.length
  .terminal piece.span offset piece.value ::
    symbolItem structural.token piece.span offset ++
    (if makeup.isUppercase then symbolItem structural.uppercaseToken piece.span offset else []) ++
    (if makeup.isDigits then
      symbolItem structural.digits piece.span offset ++
      (if length ≤ Structural.longestRun then
        symbolItem (structural.digitRun length) piece.span offset
      else [])
    else [])

/-- The end of the last piece that ends before a label starts. -/
def labelOffset (pieces : List Token) (label : Label) : Nat :=
  ((pieces.map (·.span.stop)).filter (· ≤ label.span.start)).foldl max 0

def labelItems (rules : RuleSet) (pieces : List Token) (label : Label × Nat) : List FeedItem :=
  match rules.label? label.1.name with
  | none => []
  | some symbol =>
    symbolItem symbol label.1.span (labelOffset pieces label.1) (.label label.2)

/-- Pieces in order, each after the labels that end before it starts. `last` is where the previous
piece ended. -/
def merge (ofLabel : Label × Nat → β) (ofPiece : Nat → Token → β) (labels : List (Label × Nat))
    (last : Nat) : List Token → List β
  | [] => labels.map ofLabel
  | piece :: rest =>
    let (due, later) := labels.span (·.1.span.stop ≤ piece.span.start)
    due.map ofLabel ++ ofPiece last piece :: merge ofLabel ofPiece later piece.span.stop rest

/-- Everything that tokens and labels hand to the matcher, the end of the text last. Labels are
taken in the order of their ends. -/
def items (rules : RuleSet) (tokens : List Token) (labels : List Label) : List FeedItem :=
  let structural := rules.layout.structural
  let pieces := solidPieces tokens
  let sorted := labels.zipIdx.mergeSort fun a b => a.1.span.stop ≤ b.1.span.stop
  let last := ((pieces.getLast?).map (·.span.stop)).getD 0
  (merge (labelItems rules pieces) (pieceItems structural) sorted 0 pieces).flatten ++
    symbolItem structural.stop ⟨last, last⟩ last

end Feed

namespace Session

def take (setting : Setting) (handler : Handler) (s : Session) : FeedItem → Session
  | .terminal span offset text => addTerminal setting handler s span offset text
  | .symbol m => addNew setting handler s m

/-- Matches a text that goes on where the session stands. -/
def read (setting : Setting) (handler : Handler) (s : Session) (tokens : List Token)
    (labels : List Label) : Session :=
  (Feed.items setting.rules tokens labels).foldl (take setting handler) s

end Session

end Phrasebook
