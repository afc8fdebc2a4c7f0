import Phrasebook.Entity

namespace Phrasebook

/-- The time that a run took, in words. -/
structure Timing where
  total : String
  matching : String
  derivation : String

namespace Timing

/-- A number with a fraction of `places` digits, closing zeros left out. -/
def decimal (whole fraction places : Nat) : String :=
  if fraction = 0 then Nat.repr whole
  else
    let digits := (Nat.repr fraction).toList
    let padded := List.replicate (places - digits.length) '0' ++ digits
    Nat.repr whole ++ "." ++ String.ofList (padded.reverse.dropWhile (· == '0')).reverse

/-- A duration in the largest unit that it fills. -/
def inWords (nanoseconds : Nat) : String :=
  if 1000000000 ≤ nanoseconds then
    decimal (nanoseconds / 1000000000) (nanoseconds % 1000000000) 9 ++ "s"
  else if 1000000 ≤ nanoseconds then
    decimal (nanoseconds / 1000000) (nanoseconds % 1000000) 6 ++ "ms"
  else if 1000 ≤ nanoseconds then decimal (nanoseconds / 1000) (nanoseconds % 1000) 3 ++ "µs"
  else Nat.repr nanoseconds ++ "ns"

end Timing

namespace Report

/-- Terminal colours by their code. -/
inductive Ink
  | bold
  | dim
  | green
  | yellow
  | blue
  | cyan
  | gray

def Ink.code : Ink → String
  | .bold => "\x1b[1m"
  | .dim => "\x1b[2m"
  | .green => "\x1b[32m"
  | .yellow => "\x1b[33m"
  | .blue => "\x1b[34m"
  | .cyan => "\x1b[36m"
  | .gray => "\x1b[90m"

/-- The text in an ink, or as it is when the report has no colours. -/
def paint (colour : Bool) (ink : Ink) (text : String) : String :=
  if colour then ink.code ++ text ++ "\x1b[0m" else text

def range (span : Span) : String := Nat.repr span.start ++ ".." ++ Nat.repr span.stop

section
variable (colour : Bool)

def sampleLine (sample : Sample) : String :=
  "    " ++ paint colour .yellow (range sample.span) ++ " " ++ paint colour .blue sample.symbol ++
    " " ++ paint colour .dim sample.preview

/-- At most five samples, and how many more there are. -/
def sampleLines (samples : List Sample) : List String :=
  (samples.take 5).map (sampleLine colour) ++
    if samples.length > 5 then
      ["    " ++ paint colour .dim ("... +" ++ Nat.repr (samples.length - 5) ++ " more")]
    else []

def chartLine (a : Analysis) : String :=
  let stats := a.pass.stats
  let count :=
    if stats.dropped > 0 then
      paint colour .yellow
        (Nat.repr stats.allocated ++ " (" ++ Nat.repr stats.dropped ++ " dropped)")
    else paint colour .green (Nat.repr stats.allocated)
  "  " ++ paint colour .blue "Shards:" ++ " " ++
    paint colour .yellow (Quoted.list (a.shards.map Nat.repr)) ++ "  " ++
    paint colour .dim "tokens:" ++ " " ++ paint colour .yellow (Nat.repr a.pass.tokens) ++ "  " ++
    paint colour .dim "matches:" ++ " " ++ count

def partLine (part : Entity.Part) : String :=
  "      " ++ paint colour .dim ("#" ++ Nat.repr part.id.toNat) ++ " " ++
    paint colour .blue part.body ++ " " ++ paint colour .dim (range part.span)

def entityLines (index : Nat) (e : Entity) : List String :=
  ["  " ++ paint colour .gray ("[" ++ Nat.repr index ++ "]") ++ " " ++
      paint colour .bold (paint colour .green e.body) ++ " " ++ paint colour .dim "│" ++ " " ++
      paint colour .yellow ("span " ++ range e.span),
    "      " ++ paint colour .dim "rule:" ++ " " ++ paint colour .cyan e.rule ++ "  " ++
      paint colour .dim "│ id:" ++ " " ++ paint colour .blue (Nat.repr e.ruleId.toNat)] ++
    e.parts.map (partLine colour)

/-- Why nothing was found. -/
def emptyLines (a : Analysis) : List String :=
  [paint colour .dim "  No derivations"] ++
    (if a.candidates.isEmpty then
      ["", paint colour .yellow "Possible reasons:",
        "  • No root rule fired (check terminals and whitespace gaps)",
        "  • Locale-tagged shards were skipped (pass --locale)"]
    else
      ["  " ++ paint colour .dim (Nat.repr a.candidates.length ++
        " candidate(s) were shadowed by wider matches or failed an assertion")]) ++
    ["", paint colour .dim "  Tip: set RUST_LOG=grammatch=trace to see rule firings"]

def resultLines (a : Analysis) : List String :=
  if a.results.isEmpty then emptyLines colour a
  else a.results.zipIdx.flatMap fun (e, index) => entityLines colour index e

def timingLine (a : Analysis) (timing : Timing) : String :=
  "  Total: " ++ paint colour .green timing.total ++
    "  │  Matching: " ++ paint colour .cyan timing.matching ++
    "  │  Derivation: " ++ paint colour .dim timing.derivation ++
    "  │  Candidates: " ++ paint colour .dim (Nat.repr a.pass.candidates.length)

/-- The report on a text, line by line. -/
def lines (text : String) (a : Analysis) (timing : Timing) : List String :=
  ["", paint colour .bold (paint colour .cyan ("⚙  Matching: \"" ++ text ++ "\"")),
    "", paint colour .gray "━━━ Chart ━━━", chartLine colour a] ++
    sampleLines colour a.samples ++
    ["", paint colour .gray "━━━ Results ━━━"] ++ resultLines colour a ++
    ["", paint colour .gray "━━━ Timing ━━━", timingLine colour a timing, ""]

end

end Report

end Phrasebook
