import Phrasebook.Unicode.WordBreak
import Phrasebook.Unicode.Pictographic

/-!
Word boundaries. A word goes on over marks, over letters, numbers and connectors next to each other,
and over a sign between two letters or two numbers. Runs of spaces, line ends of two characters,
flags and joined emoji hold together too; everything else breaks.
-/

namespace Phrasebook.Words

open Unicode

/-- A way to cut a text into words. -/
abbrev Splitter := List Char → List (List Char)

/-- What the word under way ends in, marks aside. `betweenLetters` and `betweenNumbers` follow a
sign such as an apostrophe that joins the two sides. -/
inductive Joint
  | letter
  | hebrewLetter
  | numeric
  | katakana
  | connector
  | halfFlag
  | space
  | betweenLetters
  | betweenNumbers
  | carriageReturn
  | lineEnd
  | other
  deriving DecidableEq, Repr

namespace Joint

def ofRole : WordBreak → Joint
  | .carriageReturn => .carriageReturn
  | .lineEnd => .lineEnd
  | .letter => .letter
  | .hebrewLetter => .hebrewLetter
  | .katakana => .katakana
  | .numeric => .numeric
  | .connector => .connector
  | .regional => .halfFlag
  | .space => .space
  | _ => .other

def start (c : Char) : Joint := ofRole (WordBreak.ofChar c)

end Joint

/-- Whether the first character of `rest` that attaches to nothing has a role in `wanted`, or
completes an emoji sequence after a joiner. `last` is the character before `rest`. -/
def leadsTo (wanted : List WordBreak) (last : Char) : List Char → Bool
  | [] => false
  | c :: rest =>
    if last == joiner && pictographic.contains c then true
    else
      match WordBreak.ofChar c with
      | .attached => leadsTo wanted c rest
      | role => wanted.contains role

namespace Joint

/-- The joint after a character of role `role` has joined the word, when it does. `rest` is what
follows that character. -/
def accept (joint : Joint) (role : WordBreak) (c : Char) (rest : List Char) : Option Joint :=
  let bridge (wanted : List WordBreak) (next : Joint) : Option Joint :=
    if leadsTo wanted c rest then some next else none
  match joint, role with
  | .letter, .letter | .hebrewLetter, .letter | .numeric, .letter | .connector, .letter
  | .betweenLetters, .letter => some .letter
  | .letter, .hebrewLetter | .hebrewLetter, .hebrewLetter | .numeric, .hebrewLetter
  | .connector, .hebrewLetter | .betweenLetters, .hebrewLetter => some .hebrewLetter
  | .letter, .numeric | .hebrewLetter, .numeric | .numeric, .numeric | .connector, .numeric
  | .betweenNumbers, .numeric => some .numeric
  | .katakana, .katakana | .connector, .katakana => some .katakana
  | .letter, .connector | .hebrewLetter, .connector | .numeric, .connector
  | .katakana, .connector | .connector, .connector => some .connector
  | .hebrewLetter, .singleQuote => some .betweenLetters
  | .hebrewLetter, .doubleQuote => bridge [.hebrewLetter] .betweenLetters
  | .letter, .midLetter | .letter, .midBoth | .letter, .singleQuote
  | .hebrewLetter, .midLetter | .hebrewLetter, .midBoth =>
    bridge [.letter, .hebrewLetter] .betweenLetters
  | .numeric, .midNumber | .numeric, .midBoth | .numeric, .singleQuote =>
    bridge [.numeric] .betweenNumbers
  | .halfFlag, .regional => some .other
  | .space, .space => some .space
  | _, _ => none

/-- Whether the word that ends in `last` goes on with `c`, and what it ends in then. Marks join
everything but a line end; an emoji joins after a joiner whatever the word is. -/
def extend (joint : Joint) (last c : Char) (rest : List Char) : Option Joint :=
  match joint with
  | .carriageReturn => if c == '\n' then some .lineEnd else none
  | .lineEnd => none
  | _ =>
    if last == joiner && pictographic.contains c then some .other
    else
      match WordBreak.ofChar c with
      | .attached => some (if joint == .space then .other else joint)
      | role => joint.accept role c rest

end Joint

/-- Cuts the characters still to come at word boundaries. `word` is the word under way, last
character first, and `done` are the words before it, last word first. -/
def cut (done : List (List Char)) (joint : Joint) (last : Char) (word : List Char) :
    List Char → List (List Char)
  | [] => (word.reverse :: done).reverse
  | c :: rest =>
    match joint.extend last c rest with
    | some joint => cut done joint c (c :: word) rest
    | none => cut (word.reverse :: done) (Joint.start c) c [c] rest

/-- The text cut at the default word boundaries of Unicode. Nothing is left out: spaces and
punctuation come back as words of their own. -/
def split : Splitter
  | [] => []
  | c :: rest => cut [] (Joint.start c) c [c] rest

end Phrasebook.Words
