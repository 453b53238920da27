/-
  Texts cut at a character.
-/

namespace TreeDoc.Text

/-- The pieces between the occurrences of a character: one more than there are
    occurrences. -/
def splitChars (mark : Char) : List Char → List (List Char)
  | [] => [[]]
  | c :: cs =>
    if c = mark then [] :: splitChars mark cs
    else
      match splitChars mark cs with
      | [] => [[c]]
      | p :: ps => (c :: p) :: ps

/-- The pieces of a text between the occurrences of a character. -/
def split (mark : Char) (s : String) : List String := (splitChars mark s.toList).map String.ofList

end TreeDoc.Text
