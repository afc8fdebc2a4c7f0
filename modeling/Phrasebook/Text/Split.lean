namespace Phrasebook

/-- The parts of a text between the characters that satisfy `isMark`. There is always one part more
than there are marks. -/
def splitAt (isMark : Char → Bool) : List Char → List (List Char)
  | [] => [[]]
  | c :: rest =>
    if isMark c then [] :: splitAt isMark rest
    else
      match splitAt isMark rest with
      | [] => [[c]]
      | part :: parts => (c :: part) :: parts

end Phrasebook
