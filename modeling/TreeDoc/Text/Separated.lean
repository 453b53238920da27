/-
  Texts one after the other.

  * `separated`: texts with a separator between any two of them.
-/

namespace TreeDoc.Text

/-- The texts with a separator between any two of them. -/
def separated (separator : String) : List String → String
  | [] => ""
  | [s] => s
  | s :: ss => s ++ separator ++ separated separator ss

end TreeDoc.Text
