/-
  Why a text or value is not what was expected, and where.

  * `Cause`: what is wrong, with its wording;
  * `Path`: the way from the root to the value that was being read;
  * `Failure`: a cause, its path, and its place in the text if it has one.
-/
import TreeDoc.Decimal.Notation
import TreeDoc.Json.Tree
import TreeDoc.Text.Quoted
import TreeDoc.Text.Separated

namespace TreeDoc.Decode

open Json

/-! ## Causes -/

/-- A value in place of another one. -/
inductive Unexpected where
  | null
  | bool (value : Bool)
  | number (value : Number)
  | string (value : String)
  | sequence
  | map
deriving Repr, DecidableEq

/-- The wording of an unexpected value. -/
def Unexpected.message : Unexpected → String
  | null => "null"
  | bool b => "boolean `" ++ (if b then "true" else "false") ++ "`"
  | number (.int n) => "integer `" ++ toString n ++ "`"
  | number (.float x) => "floating point `" ++ Decimal.reportNotation.write x ++ "`"
  | string s => "string " ++ Text.quoted s
  | sequence => "sequence"
  | map => "map"

/-- What is wrong with a text or value. -/
inductive Cause where
  | defect (defect : Defect)
  | invalidType (found : Unexpected) (expected : String)
  | invalidValue (found : Unexpected) (expected : String)
  | invalidLength (length : Nat) (expected : String)
  | missingField (key : String)
  | duplicateField (key : String)
  | unknownVariant (name : String) (known : List String)
  | noVariant (type : String)
deriving Repr, DecidableEq

/-- The names in backticks: two with `or` between them, more after `one of`. -/
def oneOf : List String → String
  | [] => "there are no variants"
  | [a] => "expected `" ++ a ++ "`"
  | [a, b] => "expected `" ++ a ++ "` or `" ++ b ++ "`"
  | names => "expected one of " ++ Text.separated ", " (names.map fun n => "`" ++ n ++ "`")

/-- The wording of a cause. -/
def Cause.message : Cause → String
  | defect d => d.message
  | invalidType found expected => "invalid type: " ++ found.message ++ ", expected " ++ expected
  | invalidValue found expected => "invalid value: " ++ found.message ++ ", expected " ++ expected
  | invalidLength n expected => "invalid length " ++ toString n ++ ", expected " ++ expected
  | missingField key => "missing field `" ++ key ++ "`"
  | duplicateField key => "duplicate field `" ++ key ++ "`"
  | unknownVariant name known => "unknown variant `" ++ name ++ "`, " ++ oneOf known
  | noVariant type => "data did not match any variant of untagged enum " ++ type

/-! ## Paths -/

/-- A step from a value into one of its parts. -/
inductive Step where
  | key (name : String)
  | index (i : Nat)
  /-- Into an object, before a key is known. -/
  | unknown
deriving Repr, DecidableEq

/-- The way from the root to a value. -/
abbrev Path := List Step

/-- The text of a step: an index stands in brackets. -/
def Step.text : Step → String
  | key name => name
  | index i => "[" ++ toString i ++ "]"
  | unknown => "?"

/-- A point divides a key from what leads to it. -/
def Step.separator : Step → String
  | index _ => ""
  | _ => "."

/-- The text of a path; the root is a point. -/
def Path.text : Path → String
  | [] => "."
  | s :: ss => s.text ++ String.join (ss.map fun s => s.separator ++ s.text)

/-! ## Failures -/

/-- Why reading failed: the cause, the path of the value that was being read,
    and the offset in the text, if the value came from one. -/
structure Failure where
  cause : Cause
  path : Path := []
  offset : Option Nat := none
deriving Repr, DecidableEq

namespace Failure

/-- The failure of a faulty text. -/
def ofFault (f : Fault) : Failure := { cause := .defect f.defect, offset := some f.offset }

/-- The failure seen from one step further up. -/
def under (step : Step) (f : Failure) : Failure := { f with path := step :: f.path }

/-- The failure with an offset, unless it has one already. -/
def placed (offset : Nat) (f : Failure) : Failure :=
  { f with offset := some (f.offset.getD offset) }

/-- The wording of a failure, with its place in the text. -/
def message (text : String) (f : Failure) : String :=
  match f.offset with
  | none => f.cause.message
  | some o =>
    let p := Position.ofOffset text o
    f.cause.message ++ " at line " ++ toString p.line ++ " column " ++ toString p.column

end Failure

end TreeDoc.Decode
