import Phrasebook.Report

namespace Phrasebook.CommandLine

def version : String := "0.1.0"

def help : String :=
  "grammatch " ++ version ++ "

Runs the bundled date and flight grammars over text and prints what matched.

Usage:
  grammatch [OPTIONS] [--] <input...>
  grammatch [OPTIONS] --input <text>

Options:
  -i, --input <text>         Input text to parse. If omitted, reads remaining args
                             or stdin when no args are provided.
  -l, --locale <tags>        Comma separated text locales, e.g. 'de-CH,en'.
                             Locale-tagged rule shards only run for these.
  --write-rules <path>       Write the compiled bundled rule set to <path>.
  --color                    Force ANSI color output.
  --no-color                 Disable ANSI color output.
  -h, --help                 Show this help message.
  -V, --version              Print version information.

Environment:
  RUST_LOG                   Trace filter, e.g. 'grammatch=trace'. Default: warn

Exit codes:
  0  Success.
  1  Internal error.
  2  Invalid arguments or missing input.
"

/-- What the arguments ask for. -/
structure Config where
  input : Option String := none
  locales : List Locale := []
  colour : Bool
  writeRules : Option String := none
  deriving DecidableEq, Repr

/-- Why arguments are refused. -/
inductive Error
  | missingLocale
  | missingPath
  | missingInput
  | inputTwice
  | unknownOption (argument : String)
  | badLocale (value : String) (source : Locale.Error)
  | unreadable
  | noInput
  deriving DecidableEq, Repr

def Error.message : Error → String
  | .missingLocale => "error: --locale expects a value"
  | .missingPath => "error: --write-rules expects a path"
  | .missingInput => "error: --input expects a value"
  | .inputTwice => "error: input provided multiple times"
  | .unknownOption argument => "error: unknown option '" ++ argument ++ "'"
  | .badLocale value source => "error: invalid --locale '" ++ value ++ "': " ++ source.message
  | .unreadable => "error: failed to read stdin: stream did not contain valid UTF-8"
  | .noInput => "error: no input provided\n\n" ++ help

/-- How reading the arguments ends. -/
inductive Request
  | help
  | version
  | refused (error : Error)
  | run (config : Config)
  deriving DecidableEq, Repr

def isBlank (text : String) : Bool := text.toList.all Unicode.isBlank

/-- `text` without `lead` at its front, as often as that is there. -/
def stripLead (lead text : List Char) : List Char :=
  if _found : lead ≠ [] ∧ lead.isPrefixOf text then stripLead lead (text.drop lead.length) else text
termination_by text.length
decreasing_by
  have pos : 0 < lead.length := List.length_pos_iff.mpr _found.1
  have le : lead.length ≤ text.length := (List.isPrefixOf_iff_prefix.mp _found.2).length_le
  simp only [List.length_drop]
  omega

def valueAfter (lead argument : String) : String :=
  String.ofList (stripLead lead.toList argument.toList)

def Config.withInput (c : Config) (text : String) : Except Error Config :=
  match c.input with
  | some _ => .error .inputTwice
  | none => .ok { c with input := some text }

def Config.withLocales (c : Config) (value : String) : Except Error Config :=
  match Locale.readList value with
  | .ok locales => .ok { c with locales }
  | .error source => .error (.badLocale value source)

/-- Whether an argument starts with `lead`. -/
def leads (lead argument : String) : Bool := lead.toList.isPrefixOf argument.toList

/-- Reads arguments from left to right. The first word that is no option starts the input, which
takes all that follows. Input that no argument gives is still open in the result. -/
def readArguments (c : Config) : List String → Request
  | [] => .run c
  | argument :: rest =>
    if argument == "-h" || argument == "--help" then .help
    else if argument == "-V" || argument == "--version" then .version
    else if argument == "--color" then readArguments { c with colour := true } rest
    else if argument == "--no-color" then readArguments { c with colour := false } rest
    else if argument == "--locale" || argument == "-l" then
      match rest with
      | [] => .refused .missingLocale
      | value :: rest =>
        match c.withLocales value with
        | .ok c => readArguments c rest
        | .error e => .refused e
    else if argument == "--write-rules" then
      match rest with
      | [] => .refused .missingPath
      | value :: rest => readArguments { c with writeRules := some value } rest
    else if argument == "--input" || argument == "-i" then
      match rest with
      | [] => .refused .missingInput
      | value :: rest =>
        match c.withInput value with
        | .ok c => readArguments c rest
        | .error e => .refused e
    else if argument == "--" then
      let text := " ".intercalate rest
      if isBlank text then .run c
      else
        match c.withInput text with
        | .ok c => .run c
        | .error e => .refused e
    else if leads "--locale=" argument then
      match c.withLocales (valueAfter "--locale=" argument) with
      | .ok c => readArguments c rest
      | .error e => .refused e
    else if leads "--input=" argument then
      match c.withInput (valueAfter "--input=" argument) with
      | .ok c => readArguments c rest
      | .error e => .refused e
    else if leads "-" argument then .refused (.unknownOption argument)
    else
      match c.withInput (" ".intercalate (argument :: rest)) with
      | .ok c => .run c
      | .error e => .refused e

/-- What the program says to the outside and asks of it. A file that cannot be written comes back
with the reason. -/
inductive Dialogue
  | done (code : UInt32)
  | say (text : String) (next : Dialogue)
  | complain (text : String) (next : Dialogue)
  | readInput (next : ByteArray → Dialogue)
  | writeFile (path : String) (bytes : Array UInt8) (next : Option String → Dialogue)
  | measure (first : Unit → Session) (second : Session → Pass) (next : Pass → Timing → Dialogue)

namespace Dialogue

def refuse (e : Error) : Dialogue := .complain (e.message ++ "\n") (.done 2)

/-- Runs the bundled grammars over a text and reports what they found. -/
def report (c : Config) (text : String) : Dialogue :=
  let display (a : Analysis) (timing : Timing) : Dialogue :=
    .say (String.join ((Report.lines c.colour text a timing).map (· ++ "\n"))) (.done 0)
  let context : Context := { locales := c.locales }
  match Bundled.recognizer with
  | .error _ =>
    .measure (fun _ => {}) (Pass.ofSession []) fun pass timing =>
      display { results := [], candidates := [], shards := [], samples := [], pass } timing
  | .ok r =>
    let tokens := r.tokens text
    .measure (fun _ => Pass.session (r.setting context {}) tokens []) (Pass.ofSession tokens)
      fun pass timing => display (r.analysisOf text context {} pass) timing

/-- Writes the bundled rule set if that is asked for, then reports on the input if there is any. -/
def carryOut (c : Config) : Dialogue :=
  let next : Dialogue :=
    match c.input with
    | some text => report c text
    | none => .done 0
  match c.writeRules with
  | none => next
  | some path =>
    match Bundled.compile true with
    | .error e =>
      .complain ("error: bundled grammars failed to compile: " ++ e.message ++ "\n") (.done 1)
    | .ok rules =>
      .writeFile path rules.buffer fun
        | some reason =>
          .complain ("error: failed to write '" ++ path ++ "': " ++ reason ++ "\n") (.done 1)
        | none =>
          .complain ("wrote " ++ Nat.repr rules.buffer.size ++ " bytes to " ++ path ++ "\n") next

/-- Input may not be blank. -/
def start (c : Config) : Dialogue :=
  if c.input.any isBlank then refuse .noInput else carryOut c

/-- The whole program. `terminal` says whether its output goes to a terminal. -/
def ofArguments (terminal : Bool) (arguments : List String) : Dialogue :=
  match readArguments { colour := terminal } arguments with
  | .help => .say (help ++ "\n") (.done 0)
  | .version => .say ("grammatch " ++ version ++ "\n") (.done 0)
  | .refused e => refuse e
  | .run c =>
    if c.input.isNone && c.writeRules.isNone then
      .readInput fun bytes =>
        match String.fromUTF8? bytes with
        | none => refuse .unreadable
        | some text => start { c with input := some text }
    else start c

end Dialogue

end Phrasebook.CommandLine
