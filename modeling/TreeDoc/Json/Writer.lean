/-
  Writing JSON values.

  * `escaped`: a string between quotes, with the escapes that JSON asks for;
  * `Value.compact`: a value on one line, without blanks;
  * `Value.pretty`: a value with every item and entry on a line of its own,
    indented by two more blanks than its array or object.
-/
import TreeDoc.Decimal.Notation
import TreeDoc.Json.Value
import TreeDoc.Text.Quoted
import TreeDoc.Text.Separated

namespace TreeDoc.Json

open Text (separated)

/-- How one character is written in a string: the quote, the backslash and the
    control characters by an escape, the rest as it is. -/
def escapedChar (c : Char) : String :=
  match c with
  | '"' => "\\\""
  | '\\' => "\\\\"
  | '\x08' => "\\b"
  | '\x0c' => "\\f"
  | '\n' => "\\n"
  | '\r' => "\\r"
  | '\t' => "\\t"
  | _ =>
    if c < '\x10' then "\\u000" ++ Text.hex c.toNat
    else if c < ' ' then "\\u00" ++ Text.hex c.toNat
    else c.toString

/-- A string between quotes. -/
def escaped (s : String) : String :=
  "\"" ++ String.join (s.toList.map escapedChar) ++ "\""

/-- The text of a number. -/
def Number.write : Number → String
  | .int n => toString n
  | .float x => Decimal.reportNotation.write x

/-! ## On one line -/

mutual

/-- A value on one line, without blanks. -/
def Value.compact : Value → String
  | .null => "null"
  | .bool b => if b then "true" else "false"
  | .number n => n.write
  | .string s => escaped s
  | .array items => "[" ++ separated "," (compactItems items) ++ "]"
  | .object entries => "\x7b" ++ separated "," (compactEntries entries) ++ "\x7d"

/-- The items of an array, each on one line. -/
def compactItems : List Value → List String
  | [] => []
  | v :: vs => v.compact :: compactItems vs

/-- The entries of an object, each on one line. -/
def compactEntries : List (String × Value) → List String
  | [] => []
  | (k, v) :: es => (escaped k ++ ":" ++ v.compact) :: compactEntries es

end

/-! ## Indented -/

/-- A line break and two blanks for every level. -/
def newline (level : Nat) : String := "\n" ++ String.ofList (List.replicate (2 * level) ' ')

/-- The lines of an array or object between its brackets, one level deeper;
    nothing stands between them if there are none. -/
def indented (level : Nat) (opening closing : String) : List String → String
  | [] => opening ++ closing
  | ss => opening ++ newline (level + 1) ++ separated ("," ++ newline (level + 1)) ss ++
      newline level ++ closing

mutual

/-- A value with every item and entry on a line of its own, as it stands at the
    given level. -/
def Value.prettyAt (level : Nat) : Value → String
  | .null => "null"
  | .bool b => if b then "true" else "false"
  | .number n => n.write
  | .string s => escaped s
  | .array items => indented level "[" "]" (prettyItems (level + 1) items)
  | .object entries => indented level "\x7b" "\x7d" (prettyEntries (level + 1) entries)

/-- The items of an array at the given level. -/
def prettyItems (level : Nat) : List Value → List String
  | [] => []
  | v :: vs => v.prettyAt level :: prettyItems level vs

/-- The entries of an object at the given level. -/
def prettyEntries (level : Nat) : List (String × Value) → List String
  | [] => []
  | (k, v) :: es => (escaped k ++ ": " ++ v.prettyAt level) :: prettyEntries level es

end

/-- A value with every item and entry on a line of its own. -/
def Value.pretty (v : Value) : String := v.prettyAt 0

end TreeDoc.Json
