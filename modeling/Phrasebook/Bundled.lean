import Phrasebook.Grammar.Lowering

/-!
The grammars that come with the program: calendar dates such as `January 1, 1988` or, in German
texts, `3. März 2021`, and flight numbers such as `LX38`.
-/

namespace Phrasebook.Bundled

open Grammar

def dateId : UInt64 := 1

def flightId : UInt64 := 2

/-- The name of a bundled root rule. -/
def ruleName? (ruleId : UInt64) : Option String :=
  if ruleId == dateId then some "date"
  else if ruleId == flightId then some "flight"
  else none

/-- The shard of the rules for German texts. -/
def german : Nat := 1

/-- Days and years are captured under these numbers, months under 1 to 12. -/
def dayCapture : UInt64 := 100

def yearCapture : UInt64 := 101

def months : List (String × String × UInt64) :=
  [("january", "jan", 1), ("february", "feb", 2), ("march", "mar", 3), ("april", "apr", 4),
    ("may", "may", 5), ("june", "jun", 6), ("july", "jul", 7), ("august", "aug", 8),
    ("september", "sep", 9), ("october", "oct", 10), ("november", "nov", 11),
    ("december", "dec", 12)]

def germanMonths : List (String × UInt64) :=
  [("januar", 1), ("februar", 2), ("märz", 3), ("mai", 5), ("juni", 6), ("juli", 7),
    ("oktober", 10), ("dezember", 12)]

def dates : Declare Unit := do
  months.forM fun (name, abbreviation, number) => do
    addMapping "<month>" [name] number {}
    if abbreviation != name then addMapping "<month>" [abbreviation, ".?"] number {}
  germanMonths.forM fun (name, number) => addMapping "<month>" [name] number { shard := german }
  addMapping "<day>" ["<1_digits>"] dayCapture {}
  addMapping "<day>" ["<2_digits>"] dayCapture {}
  addMapping "<year>" ["<4_digits>"] yearCapture {}
  add "<date>" ["<month>", "<day>", ",?", "<year>"] (.root dateId)
  add "<date>" ["<day>", ".?", "<month>", "<year>"] (.root dateId)

/-- A carrier and up to four digits. A decimal part behind them marks an amount, so it is asserted
to be absent. Carrier codes that are also words must be in upper case. -/
def flights : Declare Unit := do
  ["LX", "BA", "AF"].forM fun carrier => add "<carrier>" [carrier] { caseSensitive := true }
  ["dl", "lh", "ua", "ek"].forM fun carrier => add "<carrier>" [carrier] {}
  [1, 2, 3, 4].forM fun n => add "<flight_code>" [Structural.name (.digitRun n)] {}
  addAssertion "<decimal_tail>" [".", "<digits>"] true { gap := 0 }
  add "<flight>" ["<carrier>", "<flight_code>", "<decimal_tail>?"]
    { RuleOptions.root flightId with gap := 1 }

def grammar : Except Error Grammar :=
  let shards : List (List Locale) := [[], [.german]]
  match (do dates; flights : Declare Unit).run (Grammar.ofShards shards) with
  | .ok _ g => .ok g
  | .error e _ => .error e

/-- The bundled grammars ready to match. -/
def compile (withNames : Bool) : Except Error RuleSet := do
  (← grammar).compile withNames

end Phrasebook.Bundled
