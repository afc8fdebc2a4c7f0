import Phrasebook.Text.Quoted
import Phrasebook.Text.Split
import Phrasebook.Unicode.Blank

namespace Phrasebook

/-- What a locale tag says. Languages are kept in lower case, scripts capitalised and regions in
upper case. The language `*` stands for every language. -/
structure Locale.Tag where
  language : String
  script : Option String := none
  region : Option String := none
  deriving DecidableEq, Repr

namespace Locale

def isSeparator (c : Char) : Bool := c == '-' || c == '_'

def isLanguage (part : List Char) : Bool :=
  part == ['*'] || ((part.length == 2 || part.length == 3) && part.all Char.isAlpha)

def isScript (part : List Char) : Bool := part.length == 4 && part.all Char.isAlpha

def isRegion (part : List Char) : Bool :=
  (part.length == 2 && part.all Char.isAlpha) || (part.length == 3 && part.all Char.isDigit)

def capitalise : List Char → List Char
  | [] => []
  | c :: rest => c.toUpper :: rest.map Char.toLower

namespace Tag

/-- The parts of a tag, written in any letter case. -/
def ofParts (language : List Char) (script region : Option (List Char)) : Tag where
  language := String.ofList (language.map Char.toLower)
  script := script.map fun part => String.ofList (capitalise part)
  region := region.map fun part => String.ofList (part.map Char.toUpper)

/-- A language, then perhaps a script, then perhaps a region. -/
def readParts : List (List Char) → Option Tag
  | [language] => if isLanguage language then some (ofParts language none none) else none
  | [language, part] =>
    if !isLanguage language then none
    else if isScript part then some (ofParts language (some part) none)
    else if isRegion part then some (ofParts language none (some part))
    else none
  | [language, script, region] =>
    if isLanguage language && isScript script && isRegion region then
      some (ofParts language (some script) (some region))
    else none
  | _ => none

/-- The parts that are there, in the order in which a tag shows them. -/
def parts (t : Tag) : List String := t.language :: (t.script.toList ++ t.region.toList)

theorem isRead_of_parts {t : Tag} (own : readParts (t.parts.map String.toList) = some t) :
    ∃ parts, readParts parts = some t :=
  ⟨_, own⟩

end Tag

end Locale

/-- A locale such as `en`, `de-CH` or `zh-Hant-TW`: what can be read from the parts of a tag. -/
@[ext]
structure Locale extends Locale.Tag where
  isRead : ∃ parts, Locale.Tag.readParts parts = some toTag := by
    exact Locale.Tag.isRead_of_parts rfl
  deriving DecidableEq, Repr

namespace Locale

def german : Locale := { language := "de" }

inductive Error
  | empty
  | invalid (tag : String)
  deriving DecidableEq, Repr

def Error.message : Error → String
  | .empty => "empty locale tag"
  | .invalid tag => "invalid locale tag " ++ Quoted.text tag

/-- The locale that the parts of a tag name. -/
def readParts (parts : List (List Char)) : Option Locale :=
  (Tag.readParts parts).attach.map fun ⟨tag, isTag⟩ => ⟨tag, parts, isTag⟩

/-- Reads a tag. Blanks around it are ignored, and parts may be joined by `-` or `_`. -/
def read (tag : String) : Except Error Locale :=
  let trimmed := Unicode.trimBlanks tag.toList
  if trimmed.isEmpty then .error .empty
  else
    match readParts (splitAt isSeparator trimmed) with
    | some locale => .ok locale
    | none => .error (.invalid (String.ofList trimmed))

/-- Reads tags parted by commas, passing over blank ones. -/
def readList (tags : String) : Except Error (List Locale) :=
  ((splitAt (· == ',') tags.toList).map Unicode.trimBlanks).filter (!·.isEmpty)
    |>.mapM fun tag => read (String.ofList tag)

def display (l : Locale) : String := "-".intercalate l.parts

def isWildcard (l : Locale) : Bool := l.language == "*"

/-- Whether text in locale `text` is covered by `l`: every part that `l` specifies agrees. -/
def supports (l text : Locale) : Bool :=
  (l.isWildcard || l.language == text.language) &&
    (l.script.isNone || l.script == text.script) &&
    (l.region.isNone || l.region == text.region)

/-- Whether rules tagged with `tags` take part for a text in any of the locales `texts`. Rules
without a tag always take part. -/
def anySupports (tags texts : List Locale) : Bool :=
  tags.isEmpty || tags.any fun tag => texts.any tag.supports

end Locale

end Phrasebook
