import Phrasebook.Unicode.WordLetters
import Phrasebook.Unicode.WordMarks
import Phrasebook.Unicode.WordNumbers

namespace Phrasebook.Unicode

/-- The part a character plays in the default word boundary rules. Marks, format characters and
the joiner attach to whatever precedes them, so they share the role `attached`. -/
inductive WordBreak
  | carriageReturn
  | lineEnd
  | attached
  | letter
  | hebrewLetter
  | katakana
  | numeric
  | connector
  | midLetter
  | midNumber
  | midBoth
  | singleQuote
  | doubleQuote
  | regional
  | space
  | other
  deriving DecidableEq, Repr

/-- Letters of the Hebrew script, presentation forms included. -/
def hebrewLetters : CodeSet where
  flips := #[
    0x5d0, 0x5eb, 0x5ef, 0x5f3, 0xfb1d, 0xfb1e, 0xfb1f, 0xfb29, 0xfb2a, 0xfb37, 0xfb38, 0xfb3d,
    0xfb3e, 0xfb3f, 0xfb40, 0xfb42, 0xfb43, 0xfb45, 0xfb46, 0xfb50]

/-- Katakana with its sound marks and repeat marks. -/
def katakanaSigns : CodeSet where
  flips := #[
    0x3031, 0x3036, 0x309b, 0x309d, 0x30a0, 0x30fb, 0x30fc, 0x3100, 0x31f0, 0x3200, 0x32d0,
    0x32ff, 0x3300, 0x3358, 0xff66, 0xff9e, 0x1aff0, 0x1aff4, 0x1aff5, 0x1affc, 0x1affd,
    0x1afff, 0x1b000, 0x1b001, 0x1b120, 0x1b123, 0x1b155, 0x1b156, 0x1b164, 0x1b168]

/-- Format characters that attach to the character before them. -/
def formatCharacters : CodeSet where
  flips := #[
    0xad, 0xae, 0x61c, 0x61d, 0x180e, 0x180f, 0x200e, 0x2010, 0x202a, 0x202f, 0x2060, 0x2065,
    0x2066, 0x2070, 0xfeff, 0xff00, 0xfff9, 0xfffc, 0x13430, 0x13440, 0x1bca0, 0x1bca4, 0x1d173,
    0x1d17b, 0xe0001, 0xe0002]

/-- Connecting punctuation such as the low line. -/
def connectors : CodeSet where
  flips := #[
    0x5f, 0x60, 0x202f, 0x2030, 0x203f, 0x2041, 0x2054, 0x2055, 0xfe33, 0xfe35, 0xfe4d, 0xfe50,
    0xff3f, 0xff40]

/-- Signs that stand between two letters without ending the word. -/
def midLetters : CodeSet where
  flips := #[
    0x3a, 0x3b, 0xb7, 0xb8, 0x387, 0x388, 0x55f, 0x560, 0x5f4, 0x5f5, 0x2027, 0x2028, 0xfe13,
    0xfe14, 0xfe55, 0xfe56, 0xff1a, 0xff1b]

/-- Signs that stand between two digits without ending the number. -/
def midNumbers : CodeSet where
  flips := #[
    0x2c, 0x2d, 0x3b, 0x3c, 0x37e, 0x37f, 0x589, 0x58a, 0x60c, 0x60e, 0x66c, 0x66d, 0x7f8,
    0x7f9, 0x2044, 0x2045, 0xfe10, 0xfe11, 0xfe14, 0xfe15, 0xfe50, 0xfe51, 0xfe54, 0xfe55,
    0xff0c, 0xff0d, 0xff1b, 0xff1c]

/-- Full stops and apostrophes, which may stand between letters and between digits. -/
def midBoths : CodeSet where
  flips := #[
    0x2e, 0x2f, 0x2018, 0x201a, 0x2024, 0x2025, 0xfe52, 0xfe53, 0xff07, 0xff08, 0xff0e, 0xff0f]

/-- Horizontal spaces that form runs. -/
def runSpaces : CodeSet where
  flips := #[
    0x20, 0x21, 0x1680, 0x1681, 0x2000, 0x2007, 0x2008, 0x200b, 0x205f, 0x2060, 0x3000, 0x3001]

/-- The zero width joiner. -/
def joiner : Char := '\u200d'

namespace WordBreak

def ofAscii (c : Char) : WordBreak :=
  if c.isAlpha then .letter
  else if c.isDigit then .numeric
  else match c with
    | ' ' => .space
    | '\r' => .carriageReturn
    | '\n' | '\x0b' | '\x0c' => .lineEnd
    | '\x27' => .singleQuote
    | '\x22' => .doubleQuote
    | ',' | ';' => .midNumber
    | '.' => .midBoth
    | ':' => .midLetter
    | '_' => .connector
    | _ => .other

def ofChar (c : Char) : WordBreak :=
  let n := c.toNat
  if n < 128 then ofAscii c
  else if n == 0x85 || n == 0x2028 || n == 0x2029 then .lineEnd
  else if c == joiner || wordMarks.contains c || formatCharacters.contains c then .attached
  else if wordLetters.contains c then .letter
  else if hebrewLetters.contains c then .hebrewLetter
  else if wordNumbers.contains c then .numeric
  else if katakanaSigns.contains c then .katakana
  else if 0x1f1e6 ≤ n && n < 0x1f200 then .regional
  else if midBoths.contains c then .midBoth
  else if midLetters.contains c then .midLetter
  else if midNumbers.contains c then .midNumber
  else if connectors.contains c then .connector
  else if runSpaces.contains c then .space
  else .other

end WordBreak

end Phrasebook.Unicode
