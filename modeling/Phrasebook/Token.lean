import Phrasebook.Text.Span
import Phrasebook.Text.Words
import Phrasebook.Unicode.Alphanumeric
import Phrasebook.Unicode.Blank
import Phrasebook.Unicode.LetterCase

namespace Phrasebook

/-- A stretch of text and where it stands. -/
structure Token where
  value : String
  span : Span
  deriving DecidableEq, Repr, Inhabited

namespace Token

def isBlank (t : Token) : Bool := t.value.toList.all Unicode.isBlank

/-- Lays words side by side, the first at `start`. -/
def layOut (start : Nat) : List (List Char) → List Token
  | [] => []
  | word :: rest =>
    ⟨String.ofList word, ⟨start, start + word.length⟩⟩ :: layOut (start + word.length) rest

end Token

/-- The words of a text, blank ones included. -/
def tokenize (text : String) (split : Words.Splitter := Words.split) : List Token :=
  Token.layOut 0 (split text.toList)

/-- The kind of a character. Only the ten ASCII digits are digits; every other number sign counts
as a letter. -/
inductive Kind
  | digit
  | letter
  | punctuation
  | blank
  deriving DecidableEq, Repr

def Kind.ofChar (c : Char) : Kind :=
  if c.isDigit then .digit
  else if Unicode.isBlank c then .blank
  else if Unicode.alphanumeric.contains c then .letter
  else .punctuation

/-- The kinds of characters that occur in a text, and the cases of its letters. -/
structure Makeup where
  digit : Bool := false
  letter : Bool := false
  punctuation : Bool := false
  blank : Bool := false
  uppercase : Bool := false
  lowercase : Bool := false
  deriving DecidableEq, Repr

namespace Makeup

def ofChar (c : Char) : Makeup :=
  match Kind.ofChar c with
  | .digit => { digit := true }
  | .blank => { blank := true }
  | .punctuation => { punctuation := true }
  | .letter =>
    { letter := true
      uppercase := Unicode.uppercase.contains c
      lowercase := Unicode.lowercase.contains c }

def union (a b : Makeup) : Makeup where
  digit := a.digit || b.digit
  letter := a.letter || b.letter
  punctuation := a.punctuation || b.punctuation
  blank := a.blank || b.blank
  uppercase := a.uppercase || b.uppercase
  lowercase := a.lowercase || b.lowercase

def ofText (s : String) : Makeup := s.toList.foldl (fun found c => found.union (ofChar c)) {}

/-- Digits and nothing else. -/
def isDigits (m : Makeup) : Bool := m == { digit := true }

/-- Some letter is uppercase and none is lowercase. -/
def isUppercase (m : Makeup) : Bool := m.letter && m.uppercase && !m.lowercase

/-- One bit for each field, the first field lowest. -/
def bits (m : Makeup) : Nat :=
  m.digit.toNat + 2 * m.letter.toNat + 4 * m.punctuation.toNat + 8 * m.blank.toNat +
    16 * m.uppercase.toNat + 32 * m.lowercase.toNat

end Makeup

/-- Neighbours of one kind stay together, except punctuation marks. -/
def Kind.holdsTogether (a b : Char) : Bool :=
  Kind.ofChar a == Kind.ofChar b && Kind.ofChar b != .punctuation

/-- The token cut where the kind of character changes, with every punctuation mark alone. -/
def Token.pieces (t : Token) : List Token :=
  Token.layOut t.span.start (t.value.toList.splitBy Kind.holdsTogether)

/-- The pieces of all tokens, blank ones left out. -/
def solidPieces (tokens : List Token) : List Token :=
  (tokens.flatMap Token.pieces).filter (!·.isBlank)

end Phrasebook
