import Phrasebook.Unicode.GraphemeExtend
import Phrasebook.Unicode.Printable

namespace Phrasebook.Quoted

open Unicode

/-- The code point in hexadecimal, as in `\u{301}`. -/
def codePoint (c : Char) : List Char :=
  ['\\', 'u', '\x7b'] ++ Nat.toDigits 16 c.toNat ++ ['\x7d']

/-- How a character is written between quotes. Combining marks are written by number, because on
their own they would merge with the character before them. -/
def encodeChar (c : Char) : List Char :=
  if c == '\x00' then ['\\', '0']
  else if c == '\t' then ['\\', 't']
  else if c == '\r' then ['\\', 'r']
  else if c == '\n' then ['\\', 'n']
  else if c == '\\' then ['\\', '\\']
  else if c == '\x22' then ['\\', '\x22']
  else if graphemeExtend.contains c then codePoint c
  else if printable.contains c then [c]
  else codePoint c

/-- The text between double quotes, on one line and free of invisible characters. -/
def text (s : String) : String :=
  String.ofList ('\x22' :: s.toList.flatMap encodeChar ++ ['\x22'])

/-- The items between square brackets, parted by commas. -/
def list (items : List String) : String :=
  "[" ++ ", ".intercalate items ++ "]"

end Phrasebook.Quoted
