/-
  Patterns for paths.

  In a component of a pattern, `?` stands for any character, `*` for any
  characters, and a bracket for one of its characters or, after `!`, for any
  other one. The component `**` stands for any folders.

  * `Token`, `Component`: the parts of a pattern;
  * `Fault`: what is wrong with a pattern, and where;
  * `Component.parse`: a component read from text;
  * `tokensMatch`: a name that tokens stand for;
  * `Pattern.parse`: a pattern read from text.
-/
import TreeDoc.Files.Path

namespace TreeDoc.Files.Glob

/-! ## Parts of a pattern -/

/-- The characters from `first` to `last`. -/
structure CharRange where
  first : Char
  last : Char
deriving Repr, DecidableEq

/-- A part of a component. -/
inductive Token where
  | char (c : Char)
  | anyChar
  | anySequence
  | oneOf (ranges : List CharRange)
  | noneOf (ranges : List CharRange)
deriving Repr, DecidableEq

/-- What stands between two slashes of a pattern. -/
inductive Component where
  /-- A name without wildcards. -/
  | name (name : String)
  | wild (tokens : List Token)
  /-- Any number of folders. -/
  | folders
deriving Repr, DecidableEq

/-! ## Faults -/

/-- What is wrong with a pattern. -/
inductive Defect where
  | tooManyStars
  | brokenFolders
  | brokenBracket
deriving Repr, DecidableEq

/-- A defect and the index of the character where it was met. -/
structure Fault where
  defect : Defect
  index : Nat
deriving Repr, DecidableEq

/-- The wording of a defect. -/
def Defect.message : Defect → String
  | tooManyStars => "wildcards are either regular `*` or recursive `**`"
  | brokenFolders => "recursive wildcards must form a single path component"
  | brokenBracket => "invalid range pattern"

/-- The wording of a fault. -/
def Fault.message (f : Fault) : String :=
  "Pattern syntax error near position " ++ toString f.index ++ ": " ++ f.defect.message

/-! ## Reading -/

/-- The characters before the first closing bracket, and those after it. -/
def untilBracket : (cs : List Char) → Option (List Char × { rest : List Char // rest.length < cs.length })
  | [] => none
  | c :: cs =>
    if c = ']' then some ([], ⟨cs, by simp⟩)
    else
      match untilBracket cs with
      | none => none
      | some (before, ⟨rest, h⟩) => some (c :: before, ⟨rest, by simp; omega⟩)

/-- The ranges that the characters inside a bracket write. -/
def ranges : List Char → List CharRange
  | a :: '-' :: b :: cs => ⟨a, b⟩ :: ranges cs
  | a :: cs => ⟨a, a⟩ :: ranges cs
  | [] => []

/-- The bracket whose opening was just read, and what follows it. Its first
    character belongs to it even if it is a closing bracket. -/
def bracket : (cs : List Char) → Option (Token × { rest : List Char // rest.length < cs.length })
  | '!' :: c :: cs =>
    match untilBracket cs with
    | none => none
    | some (before, ⟨rest, h⟩) => some (.noneOf (ranges (c :: before)), ⟨rest, by simp; omega⟩)
  | c :: cs =>
    if c = '!' then none
    else
      match untilBracket cs with
      | none => none
      | some (before, ⟨rest, h⟩) => some (.oneOf (ranges (c :: before)), ⟨rest, by simp; omega⟩)
  | [] => none

/-- The tokens of a text, of which `i` characters are read already; `before` is
    the last of them. Two stars are no token, but must stand alone between
    slashes. -/
def tokens (i : Nat) (before : Option Char) (cs : List Char) : Except Fault (List Token) :=
  match cs with
  | [] => .ok []
  | '*' :: '*' :: '*' :: _ => .error ⟨.tooManyStars, i + 2⟩
  | '*' :: '*' :: cs =>
    if before = none ∨ before = some '/' then
      match cs with
      | [] => .ok []
      | c :: cs => if c = '/' then tokens (i + 3) (some '/') cs else .error ⟨.brokenFolders, i + 2⟩
    else .error ⟨.brokenFolders, i - 1⟩
  | '*' :: cs => do return .anySequence :: (← tokens (i + 1) (some '*') cs)
  | '?' :: cs => do return .anyChar :: (← tokens (i + 1) (some '?') cs)
  | '[' :: cs =>
    match bracket cs with
    | none => .error ⟨.brokenBracket, i⟩
    | some (t, ⟨rest, _⟩) => do
      return t :: (← tokens (i + 1 + (cs.length - rest.length)) (some ']') rest)
  | c :: cs => do return .char c :: (← tokens (i + 1) (some c) cs)
termination_by cs.length
decreasing_by all_goals (simp only [List.length_cons]; omega)

/-- The character that a token stands for, if it stands for one only. -/
def Token.literal? : Token → Option Char
  | .char c => some c
  | _ => none

/-- The component that a text writes. -/
def Component.parse (text : String) : Except Fault Component := do
  let ts ← tokens 0 none text.toList
  if text = "**" then return .folders
  else if ts.all fun t => t.literal?.isSome then return .name text
  else return .wild ts

/-! ## Matching -/

/-- The character is in one of the ranges. -/
def inRanges (c : Char) (rs : List CharRange) : Bool := rs.any fun r => r.first ≤ c && c ≤ r.last

/-- The token stands for the character. -/
def Token.accepts (c : Char) : Token → Bool
  | .char d => c = d
  | .anyChar | .anySequence => true
  | .oneOf rs => inRanges c rs
  | .noneOf rs => !inRanges c rs

/-- The text that tokens stand for may be these characters. -/
def tokensMatch : List Token → List Char → Bool
  | [], cs => cs.isEmpty
  | .anySequence :: ts, cs => skipping ts cs
  | _ :: _, [] => false
  | t :: ts, c :: cs => t.accepts c && tokensMatch ts cs
where
  /-- The tokens match some end of the characters. -/
  skipping (ts : List Token) : List Char → Bool
    | [] => tokensMatch ts []
    | c :: cs => tokensMatch ts (c :: cs) || skipping ts cs

/-- The name is one that the component stands for. -/
def Component.accepts (name : String) : Component → Bool
  | .name n => name = n
  | .wild ts => tokensMatch ts name.toList
  | .folders => false

/-! ## Patterns -/

/-- A pattern: its components, whether only folders are wanted, and whether it
    starts from the root. -/
structure Pattern where
  components : List Component
  onlyFolders : Bool
  absolute : Bool
deriving Repr, DecidableEq

/-- Reads every component. -/
def parseAll : List String → Except Fault (List Component)
  | [] => .ok []
  | p :: ps => do
    let c ← Component.parse p
    return c :: (← parseAll ps)

/-- The pieces without an empty one at the end. -/
def withoutLastEmpty : List String → List String
  | [] | [""] => []
  | p :: ps => p :: withoutLastEmpty ps

/-- The texts of the components of a pattern. A slash at the beginning is none of
    them, and a slash at the end closes the last one. There is at least one. -/
def componentTexts (text : String) : List String :=
  let pieces := Path.pieces text
  match withoutLastEmpty (if Path.isAbsolute text then pieces.drop 1 else pieces) with
  | [] => [""]
  | p :: ps => p :: ps

/-- The pattern that a text writes. The text is checked as a whole first, then
    component by component. A slash at its end asks for folders only. -/
def Pattern.parse (text : String) : Except Fault Pattern := do
  let _ ← tokens 0 none text.toList
  let components ← parseAll (componentTexts text)
  return { components, onlyFolders := text.toList.getLast? = some '/', absolute := Path.isAbsolute text }

end TreeDoc.Files.Glob
