/-
  What can be wrong with a JSON text, and where.

  * `Defect`: the ways in which a text fails to be JSON, with their wording;
  * `Fault`: a defect and the number of bytes of the text before it was met.
-/

namespace TreeDoc.Json

/-- The ways in which a text fails to be JSON. -/
inductive Defect where
  | endOfList
  | endOfObject
  | endOfString
  | endOfValue
  | expectedColon
  | expectedListCommaOrEnd
  | expectedObjectCommaOrEnd
  | expectedIdent
  | expectedValue
  | invalidEscape
  | invalidNumber
  | numberOutOfRange
  | controlCharacter
  | keyNotString
  | loneSurrogate
  | unfinishedSurrogate
  | trailingComma
  | trailingCharacters
  | tooDeep
deriving Repr, DecidableEq

/-- The wording of a defect. -/
def Defect.message : Defect → String
  | endOfList => "EOF while parsing a list"
  | endOfObject => "EOF while parsing an object"
  | endOfString => "EOF while parsing a string"
  | endOfValue => "EOF while parsing a value"
  | expectedColon => "expected `:`"
  | expectedListCommaOrEnd => "expected `,` or `]`"
  | expectedObjectCommaOrEnd => "expected `,` or `\x7d`"
  | expectedIdent => "expected ident"
  | expectedValue => "expected value"
  | invalidEscape => "invalid escape"
  | invalidNumber => "invalid number"
  | numberOutOfRange => "number out of range"
  | controlCharacter => "control character (\\u0000-\\u001F) found while parsing a string"
  | keyNotString => "key must be a string"
  | loneSurrogate => "lone leading surrogate in hex escape"
  | unfinishedSurrogate => "unexpected end of hex escape"
  | trailingComma => "trailing comma"
  | trailingCharacters => "trailing characters"
  | tooDeep => "recursion limit exceeded"

/-- A defect, and the number of bytes of the text before it was met. -/
structure Fault where
  defect : Defect
  offset : Nat
deriving Repr, DecidableEq

/-- A place in a text: lines count from one, columns are the bytes since the
    last line break. -/
structure Position where
  line : Nat
  column : Nat
deriving Repr, DecidableEq

/-- Walks `budget` bytes into the characters, from the given position. -/
def Position.advance (p : Position) : Nat → List Char → Position
  | _, [] => p
  | 0, _ => p
  | budget, c :: cs =>
    if budget < c.utf8Size then { p with column := p.column + budget }
    else if c = '\n' then
      Position.advance { line := p.line + 1, column := 0 } (budget - c.utf8Size) cs
    else
      Position.advance { p with column := p.column + c.utf8Size } (budget - c.utf8Size) cs

/-- The place after the first `offset` bytes of a text. -/
def Position.ofOffset (text : String) (offset : Nat) : Position :=
  Position.advance { line := 1, column := 0 } offset text.toList

end TreeDoc.Json
