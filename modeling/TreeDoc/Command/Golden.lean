/-
  The arguments of the command that compares documents with expected ones.

  * `Golden.parse`: the folder of the fixtures, and an expression that their names
    must match.
-/
import TreeDoc.Command.Fixtures
import TreeDoc.Command.Options
import TreeDoc.Regex.Parser

namespace TreeDoc.Command.Golden

/-- The options of the command. -/
def switches : List Switch :=
  [{ long := "dir", arity := .one, refusal := notEmpty },
    { long := "filter", arity := .one,
      refusal := fun v => if (Regex.parse? v).isNone then some .badValue else none },
    helpSwitch]

/-- The names that an expression is found in. Without an expression these are all. -/
def matching (filter : Option Regex) (name : String) : Bool :=
  match filter with
  | none => true
  | some e => e.search name

/-- The request that arguments make. -/
def parse (args : List String) : Except Usage Golden := do
  let found ← readOptions switches args
  let one (name : String) := (Assoc.get? name found).bind List.head?
  return { dir := (one "dir").getD "fixtures", accepts := matching ((one "filter").bind Regex.parse?) }

end TreeDoc.Command.Golden
