import Phrasebook.CommandLine
import Phrasebook.Proofs.Text.LocaleTags

/-!
How options with a value are spelled. The value is an argument of its own, or it stands behind `=`
in the argument that names the option. There the name and `=` are cut off the front as often as they
stand there, so both spellings agree exactly on the values that do not begin with them.
-/

namespace Phrasebook

namespace CommandLine

section
variable {lead : List Char}

theorem stripLead_append (nonempty : lead ≠ []) (text : List Char) :
    stripLead lead (lead ++ text) = stripLead lead text := by
  have found : lead.isPrefixOf (lead ++ text) = true :=
    List.isPrefixOf_iff_prefix.mpr (List.prefix_append lead text)
  rw [stripLead, dif_pos ⟨nonempty, found⟩, List.drop_left]

theorem stripLead_of_not_prefix {text : List Char} (other : lead.isPrefixOf text = false) :
    stripLead lead text = text := by
  rw [stripLead, dif_neg]
  intro found
  rw [other] at found
  cases found.2

theorem not_prefix_stripLead (nonempty : lead ≠ []) (text : List Char) :
    lead.isPrefixOf (stripLead lead text) = false := by
  fun_induction stripLead lead text with
  | case1 text found ih => exact ih
  | case2 text missing =>
    rw [Bool.eq_false_iff]
    intro found
    exact missing ⟨nonempty, found⟩

/-- What is cut off is the lead, some number of times. -/
theorem exists_copies (lead text : List Char) :
    ∃ n, text = (List.replicate n lead).flatten ++ stripLead lead text := by
  fun_induction stripLead lead text with
  | case1 text found ih =>
    obtain ⟨n, copies⟩ := ih
    obtain ⟨rest, rfl⟩ := List.isPrefixOf_iff_prefix.mp found.2
    rw [List.drop_left] at copies ⊢
    exists n + 1
    rw [List.replicate_succ, List.flatten_cons, List.append_assoc, ← copies]
  | case2 text missing => exact ⟨0, rfl⟩

end

section
variable {lead value : String}

theorem exists_of_leads (found : leads lead value = true) : ∃ rest, value = lead ++ rest := by
  obtain ⟨rest, whole⟩ := List.isPrefixOf_iff_prefix.mp found
  exists String.ofList rest
  rw [← String.toList_inj, String.toList_append, String.toList_ofList, whole]

theorem valueAfter_append (nonempty : lead ≠ "") (value : String) :
    valueAfter lead (lead ++ value) = valueAfter lead value := by
  rw [valueAfter, String.toList_append, stripLead_append, valueAfter]
  simpa using nonempty

theorem valueAfter_of_not_leads (other : leads lead value = false) :
    valueAfter lead value = value := by
  rw [valueAfter, stripLead_of_not_prefix other, String.ofList_toList]

theorem not_leads_valueAfter (nonempty : lead ≠ "") (value : String) :
    leads lead (valueAfter lead value) = false := by
  rw [leads, valueAfter, String.toList_ofList, not_prefix_stripLead]
  simpa using nonempty

theorem exists_copies_valueAfter (lead value : String) :
    ∃ n, value = String.join (List.replicate n lead) ++ valueAfter lead value := by
  obtain ⟨n, copies⟩ := exists_copies lead.toList value.toList
  exists n
  rw [← String.toList_inj, String.toList_append, valueAfter, String.toList_ofList,
    String.toList_join, List.flatMap_def, List.map_replicate]
  exact copies

end

/-- Reading comes to the end of these arguments with the configuration `d`, whatever follows. -/
def Passes (c : Config) (arguments : List String) (d : Config) : Prop :=
  ∀ rest, readArguments c (arguments ++ rest) = readArguments d rest

/-- One of these arguments is refused, whatever follows. -/
def Stops (c : Config) (arguments : List String) (e : Error) : Prop :=
  ∀ rest, readArguments c (arguments ++ rest) = .refused e

/-- What follows these arguments has no part in how they are read. -/
def Decides (c : Config) (arguments : List String) : Prop :=
  (∃ d, Passes c arguments d) ∨ ∃ e, Stops c arguments e

theorem Decides.append {c : Config} {xs ys : List String} (first : Decides c xs)
    (second : ∀ d, Decides d ys) : Decides c (xs ++ ys) := by
  rcases first with ⟨d, passes⟩ | ⟨e, stops⟩
  · apply (second d).imp
    · intro ⟨d', later⟩
      exists d'
      intro rest
      rw [List.append_assoc, passes, later]
    · intro ⟨e, later⟩
      exists e
      intro rest
      rw [List.append_assoc, passes, later]
  · right
    exists e
    intro rest
    rw [List.append_assoc, stops]

/-- The options whose value may stand in the same argument. -/
inductive Valued
  | input
  | locale
  deriving DecidableEq, Repr

namespace Valued

def name : Valued → String
  | input => "--input"
  | locale => "--locale"

def short : Valued → String
  | input => "-i"
  | locale => "-l"

/-- What stands before the value in the same argument. -/
def lead : Valued → String
  | input => "--input="
  | locale => "--locale="

theorem lead_ne_empty (o : Valued) : o.lead ≠ "" := by
  cases o <;> decide

def take : Valued → Config → String → Except Error Config
  | input => Config.withInput
  | locale => Config.withLocales

/-- Takes the value and reads on. -/
def pass (o : Valued) (c : Config) (value : String) (rest : List String) : Request :=
  match o.take c value with
  | .ok d => readArguments d rest
  | .error e => .refused e

section
variable (o : Valued) (c : Config) (value : String) (rest : List String)

theorem readArguments_separate {name : String} (named : name = o.name ∨ name = o.short) :
    readArguments c (name :: value :: rest) = o.pass c value rest := by
  rw [readArguments.eq_def]
  cases o <;> rcases named with rfl | rfl <;> rfl

theorem readArguments_joined :
    readArguments c ((o.lead ++ value) :: rest) = o.pass c (valueAfter o.lead value) rest := by
  -- Over lists of characters the front of the argument tells all branches apart.
  have beq_eq (s t : String) : (s == t) = (s.toList == t.toList) := by
    rw [Bool.eq_iff_iff, beq_iff_eq, beq_iff_eq, String.toList_inj]
  rw [← valueAfter_append o.lead_ne_empty, readArguments.eq_def]
  simp only [beq_eq, leads, String.toList_append]
  cases o <;> rfl

end

theorem decides {o : Valued} {c : Config} {arguments : List String} {value : String}
    (reads : ∀ rest, readArguments c (arguments ++ rest) = o.pass c value rest) :
    Decides c arguments := by
  cases taken : o.take c value with
  | ok d =>
    left
    exists d
    intro rest
    rw [reads, pass, taken]
  | error e =>
    right
    exists e
    intro rest
    rw [reads, pass, taken]

end Valued

/-- Arguments that are options, each with its value if it takes one. -/
inductive Options : List String → Prop
  | none : Options []
  | flag {name : String} {later : List String} (named : name = "--color" ∨ name = "--no-color")
      (options : Options later) : Options (name :: later)
  | path (path : String) {later : List String} (options : Options later) :
      Options ("--write-rules" :: path :: later)
  | separate (o : Valued) {name : String} (named : name = o.name ∨ name = o.short) (value : String)
      {later : List String} (options : Options later) : Options (name :: value :: later)
  | joined (o : Valued) (value : String) {later : List String} (options : Options later) :
      Options ((o.lead ++ value) :: later)

theorem Options.decides {arguments : List String} (options : Options arguments) (c : Config) :
    Decides c arguments := by
  induction options generalizing c with
  | none => exact .inl ⟨c, fun _ => rfl⟩
  | @flag name _ named _ ih =>
    have passes : ∃ d, Passes c [name] d := by
      rcases named with rfl | rfl
      · exists { c with colour := true }
        intro rest
        rw [List.singleton_append, readArguments.eq_def]
        rfl
      · exists { c with colour := false }
        intro rest
        rw [List.singleton_append, readArguments.eq_def]
        rfl
    exact Decides.append (.inl passes) ih
  | path path _ ih =>
    have passes : Passes c ["--write-rules", path] { c with writeRules := some path } := by
      intro rest
      rw [List.cons_append, readArguments.eq_def]
      rfl
    exact Decides.append (.inl ⟨_, passes⟩) ih
  | @separate o name named value _ _ ih =>
    have decided : Decides c [name, value] := by
      apply Valued.decides
      intro rest
      exact o.readArguments_separate c value rest named
    exact decided.append ih
  | joined o value _ ih =>
    have decided : Decides c [o.lead ++ value] := by
      apply Valued.decides
      intro rest
      exact o.readArguments_joined c value rest
    exact decided.append ih

/-- Arguments that are read alike are read alike behind options. -/
theorem Options.congr {before xs ys : List String} (options : Options before)
    (alike : ∀ c, readArguments c xs = readArguments c ys) (c : Config) :
    readArguments c (before ++ xs) = readArguments c (before ++ ys) := by
  rcases options.decides c with ⟨d, passes⟩ | ⟨e, stops⟩
  · rw [passes, passes, alike]
  · rw [stops, stops]

/-- Where a call for help and one for the version are answered, only options stand before them. -/
theorem options_of_answered {c : Config} {before : List String}
    (helped : readArguments c (before ++ ["-h"]) = .help)
    (versioned : readArguments c (before ++ ["-V"]) = .version) : Options before := by
  have either {name long short : String} (named : (name == long || name == short) = true) :
      name = long ∨ name = short := by
    simpa using named
  fun_induction readArguments c before
  case case1 => exact .none
  all_goals
    rw [List.cons_append, readArguments.eq_def] at helped versioned
    simp only [*, ↓reduceIte, reduceCtorEq, Bool.false_eq_true, List.cons_append,
      List.nil_append, readArguments.eq_1] at helped versioned
  case case4 named ih => exact .flag (.inl (eq_of_beq named)) (ih helped versioned)
  case case5 named ih => exact .flag (.inr (eq_of_beq named)) (ih helped versioned)
  case case7 named value _ _ _ ih =>
    exact .separate .locale (either named) value (ih helped versioned)
  case case10 named value _ ih =>
    rw [eq_of_beq named]
    exact .path value (ih helped versioned)
  case case12 named value _ _ _ ih =>
    exact .separate .input (either named) value (ih helped versioned)
  case case17 found _ _ ih =>
    obtain ⟨value, rfl⟩ := exists_of_leads found
    exact .joined .locale value (ih helped versioned)
  case case19 found _ _ ih =>
    obtain ⟨value, rfl⟩ := exists_of_leads found
    exact .joined .input value (ih helped versioned)
  case case6 | case11 | case22 | case23 => split at helped <;> cases helped
  case case14 | case15 | case16 =>
    split at helped
    · cases helped
    · split at helped <;> cases helped

/-- Reading comes to what follows some arguments exactly if they are options and none of them is
refused. -/
theorem passes_iff {c : Config} {before : List String} :
    (∃ d, Passes c before d) ↔ Options before ∧ ∃ d, readArguments c before = .run d := by
  constructor
  · intro ⟨d, passes⟩
    have ends := passes []
    rw [List.append_nil] at ends
    exact ⟨options_of_answered (passes ["-h"]) (passes ["-V"]), d, ends⟩
  · intro ⟨options, d, ends⟩
    rcases options.decides c with passes | ⟨e, stops⟩
    · exact passes
    · have refused := stops []
      rw [List.append_nil, ends] at refused
      cases refused

namespace Valued

/-- Behind options, and with any arguments after it, the value `joined` in the argument that names
the option does what the value `separate` does as the next argument. The same configuration, error
or early exit results, and the program then says and asks the same, whatever it is answered. -/
def Agree (o : Valued) (joined separate : String) : Prop :=
  ∀ (terminal : Bool) (before after : List String), Options before →
    readArguments { colour := terminal } (before ++ (o.lead ++ joined) :: after) =
        readArguments { colour := terminal } (before ++ o.name :: separate :: after) ∧
      Dialogue.ofArguments terminal (before ++ (o.lead ++ joined) :: after) =
        Dialogue.ofArguments terminal (before ++ o.name :: separate :: after)

theorem agree_valueAfter (o : Valued) (value : String) :
    o.Agree value (valueAfter o.lead value) := by
  intro terminal before after options
  have alike (c : Config) : readArguments c ((o.lead ++ value) :: after) =
      readArguments c (o.name :: valueAfter o.lead value :: after) := by
    rw [readArguments_joined, readArguments_separate o c _ _ (.inl rfl)]
  have same := options.congr alike { colour := terminal }
  exact ⟨same, by rw [Dialogue.ofArguments, same, ← Dialogue.ofArguments]⟩

/-- Where no input was read before, no other value does what a value does that begins with the
option and `=`. -/
theorem eq_of_pass_eq {o : Valued} {c : Config} (fresh : c.input = none) {value other : String}
    (found : leads o.lead value = true) (same : o.pass c other [] = o.pass c value []) :
    other = value := by
  cases o with
  | input => simpa [pass, take, Config.withInput, fresh, readArguments] using same
  | locale =>
    obtain ⟨text, rfl⟩ := exists_of_leads found
    have dash : ("--locale=" ++ text).toList = '-' :: ("-locale=".toList ++ text.toList) := by
      rw [String.toList_append]
      rfl
    obtain ⟨e, failed⟩ := Locale.readList_dash dash
    cases locales : Locale.readList other with
    | ok found => simp [pass, take, lead, Config.withLocales, locales, failed, readArguments] at same
    | error e' =>
      simp only [pass, take, lead, Config.withLocales, locales, failed, Request.refused.injEq,
        Error.badLocale.injEq] at same
      exact same.1

/-- The two spellings of an option agree on a value exactly if it does not begin with the option and
`=`. Any value in the argument of the option does what is left of it as the next argument, once
every copy of these is cut off its front. Reading gets to an option exactly behind other options
none of which is refused. -/
theorem spellings_agree_iff (o : Valued) (value : String) :
    (o.Agree value value ↔ leads o.lead value = false) ∧
      (∃ n rest, value = String.join (List.replicate n o.lead) ++ rest ∧
        leads o.lead rest = false ∧ o.Agree value rest) ∧
      ∀ c before, (∃ d, Passes c before d) ↔
        Options before ∧ ∃ d, readArguments c before = .run d := by
  refine ⟨?_, ?_, fun _ _ => passes_iff⟩
  · constructor
    · intro agree
      rw [Bool.eq_false_iff]
      intro found
      have same := (agree false [] [] .none).1
      rw [List.nil_append, List.nil_append, readArguments_joined,
        readArguments_separate o _ _ _ (.inl rfl)] at same
      have other := not_leads_valueAfter o.lead_ne_empty value
      rw [eq_of_pass_eq rfl found same, found] at other
      cases other
    · intro other
      have agree := o.agree_valueAfter value
      rwa [valueAfter_of_not_leads other] at agree
  · obtain ⟨n, copies⟩ := exists_copies_valueAfter o.lead value
    exact ⟨n, _, copies, not_leads_valueAfter o.lead_ne_empty value, o.agree_valueAfter value⟩

/-- The text `1` is read alike in both spellings, and the text `--input=1` is not. -/
theorem spellings_agree_iff_doubled :
    readArguments { colour := true } ["--no-color", "-l", "de", "--input=1", "--color"] =
        readArguments { colour := true } ["--no-color", "-l", "de", "--input", "1", "--color"] ∧
      ¬ input.Agree "--input=1" "--input=1" ∧
      readArguments { colour := true } ["--input=--input=1"] =
        .run { input := some "1", colour := true } ∧
      readArguments { colour := true } ["--input", "--input=1"] =
        .run { input := some "--input=1", colour := true } := by
  have options : Options ["--no-color", "-l", "de"] :=
    .flag (.inr rfl) (.separate .locale (.inr rfl) "de" .none)
  have agree := (spellings_agree_iff .input "1").1.mpr rfl
  have cut : valueAfter input.lead "--input=1" = "1" :=
    (valueAfter_append (lead_ne_empty .input) "1").trans (valueAfter_of_not_leads rfl)
  have joined := readArguments_joined .input { colour := true } "--input=1" []
  rw [cut] at joined
  refine ⟨(agree true _ ["--color"] options).1, ?_, joined, rfl⟩
  rw [(spellings_agree_iff .input "--input=1").1]
  decide

end Valued

end CommandLine

end Phrasebook
