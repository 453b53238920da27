/-
  Structural dumps of values, for people to read.

  * `Dump`: the shape of a dump, made of atoms, named tuples and records, lists
    and tables;
  * `Dump.line`: a dump on one line;
  * `Dump.lines`: a dump with every part on a line of its own, indented by four
    more blanks than what it belongs to and followed by a comma.
-/
import TreeDoc.Text.Quoted
import TreeDoc.Text.Separated

namespace TreeDoc

/-- The shape of a dump. -/
inductive Dump where
  | atom (text : String)
  | tuple (name : String) (parts : List Dump)
  | record (name : String) (fields : List (String × Dump))
  | list (items : List Dump)
  | table (entries : List (String × Dump))

open Text (separated)

namespace Dump

/-- A string, quoted. -/
def text (s : String) : Dump := .atom (Text.quoted s)

/-- A truth value. -/
def bool (b : Bool) : Dump := .atom (if b then "true" else "false")

/-- A natural number. -/
def nat (n : Nat) : Dump := .atom (toString n)

/-- A value that may be missing. -/
def option {α : Type} (dump : α → Dump) : Option α → Dump
  | none => .atom "None"
  | some a => .tuple "Some" [dump a]

mutual

/-- A dump on one line. -/
def line : Dump → String
  | .atom s => s
  | .tuple name parts => name ++ "(" ++ separated ", " (lineAll parts) ++ ")"
  | .record name fields => name ++ " \x7b " ++ separated ", " (lineFields fields) ++ " \x7d"
  | .list items => "[" ++ separated ", " (lineAll items) ++ "]"
  | .table entries => "\x7b" ++ separated ", " (lineEntries entries) ++ "\x7d"

/-- Dumps, each on one line. -/
def lineAll : List Dump → List String
  | [] => []
  | d :: ds => d.line :: lineAll ds

/-- The fields of a record on one line. -/
def lineFields : List (String × Dump) → List String
  | [] => []
  | (k, d) :: fs => (k ++ ": " ++ d.line) :: lineFields fs

/-- The entries of a table on one line, their keys quoted. -/
def lineEntries : List (String × Dump) → List String
  | [] => []
  | (k, d) :: es => (Text.quoted k ++ ": " ++ d.line) :: lineEntries es

end

/-- A line break and four blanks for every level. -/
def newline (level : Nat) : String := "\n" ++ String.ofList (List.replicate (4 * level) ' ')

/-- The parts between their brackets, one level deeper and each followed by a
    comma; nothing stands between the brackets if there are none. -/
def enclosed (level : Nat) (opening closing : String) : List String → String
  | [] => opening ++ closing
  | ss => opening ++ String.join (ss.map fun s => newline (level + 1) ++ s ++ ",") ++
      newline level ++ closing

mutual

/-- A dump with every part on a line of its own, as it stands at a level. -/
def linesAt (level : Nat) : Dump → String
  | .atom s => s
  | .tuple name parts => name ++ enclosed level "(" ")" (linesAll (level + 1) parts)
  | .record name fields => name ++ " " ++ enclosed level "\x7b" "\x7d" (linesFields (level + 1) fields)
  | .list items => enclosed level "[" "]" (linesAll (level + 1) items)
  | .table entries => enclosed level "\x7b" "\x7d" (linesEntries (level + 1) entries)

/-- Dumps at a level. -/
def linesAll (level : Nat) : List Dump → List String
  | [] => []
  | d :: ds => d.linesAt level :: linesAll level ds

/-- The fields of a record at a level. -/
def linesFields (level : Nat) : List (String × Dump) → List String
  | [] => []
  | (k, d) :: fs => (k ++ ": " ++ d.linesAt level) :: linesFields level fs

/-- The entries of a table at a level, their keys quoted. -/
def linesEntries (level : Nat) : List (String × Dump) → List String
  | [] => []
  | (k, d) :: es => (Text.quoted k ++ ": " ++ d.linesAt level) :: linesEntries level es

end

/-- A dump with every part on a line of its own. -/
def lines (d : Dump) : String := d.linesAt 0

end Dump

end TreeDoc
