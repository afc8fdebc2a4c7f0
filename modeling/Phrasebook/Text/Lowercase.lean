import Phrasebook.Unicode.CaseIgnorable
import Phrasebook.Unicode.LetterCase
import Phrasebook.Unicode.LowercaseMap

namespace Phrasebook.Lowercase

open Unicode

/-- The lowercase form of a character whose form does not hang on its neighbours. -/
def simple (c : Char) : Char :=
  if c.toNat < 128 then c.toLower else lowercaseMap.apply c

def isCased (c : Char) : Bool :=
  lowercase.contains c || uppercase.contains c || titlecase.contains c

/-- Whether the first character that matters for case is a cased letter. -/
def meetsLetter (text : List Char) : Bool :=
  match text.dropWhile caseIgnorable.contains with
  | [] => false
  | c :: _ => isCased c

/-- The lowercase form of `c` between `before`, nearest character first, and `after`. A capital
sigma that ends a word has a form of its own, and a dotted capital I keeps its dot. -/
def inContext (before : List Char) (c : Char) (after : List Char) : List Char :=
  if c == 'Σ' then
    if meetsLetter before && !meetsLetter after then ['ς'] else ['σ']
  else if c == 'İ' then ['i', '\u0307']
  else [simple c]

/-- Appends the lowercase forms of the characters still to come to `done`, which is reversed. -/
def fold (done before : List Char) : List Char → List Char
  | [] => done.reverse
  | c :: after => fold ((inContext before c after).reverse ++ done) (c :: before) after

def text (s : String) : String := String.ofList (fold [] [] s.toList)

end Phrasebook.Lowercase
