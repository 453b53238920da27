/-
  Paths as text.

  * `pieces`: what stands between the slashes;
  * `components`: the pieces that lead somewhere;
  * `join`, `fileName?`, `fileStem?`: paths put together and taken apart;
  * `ancestors`: the paths that lead to a path, the longest first.
-/
import TreeDoc.Text.Split

namespace TreeDoc.Files.Path

/-- What stands between the slashes of a path. A slash at its end leaves an
    empty piece behind it. -/
def pieces (path : String) : List String := Text.split '/' path

/-- The path begins with a slash. -/
def isAbsolute (path : String) : Bool := path.toList.head? = some '/'

/-- The pieces of a path that lead somewhere: empty ones do not, and a point
    only does at the beginning. -/
def components (path : String) : List String :=
  match (pieces path).filter (· ≠ "") with
  | [] => []
  | p :: ps => if isAbsolute path then (p :: ps).filter (· ≠ ".") else p :: ps.filter (· ≠ ".")

/-- The path leads to where it starts from, and has at least one point. -/
def isCurrent (path : String) : Bool := !isAbsolute path && components path = ["."]

/-- The path of something inside the folder at a path. -/
def join (folder name : String) : String :=
  if folder = "" || isAbsolute name then name
  else if folder.toList.getLast? = some '/' then folder ++ name
  else folder ++ "/" ++ name

/-- The name at the end of a path, if it ends in one. -/
def fileName? (path : String) : Option String :=
  match (components path).getLast? with
  | some name => if name = "." ∨ name = ".." then none else some name
  | none => none

/-- A name without what follows its last point. A point at the beginning does
    not count. -/
def stem (name : String) : String :=
  match (Text.split '.' name).reverse with
  | [] | [_] => name
  | [_, ""] => name
  | _ :: before => String.intercalate "." before.reverse

/-- The name at the end of a path without what follows its last point. -/
def fileStem? (path : String) : Option String := (fileName? path).map stem

/-- The proper, nonempty beginnings of a list that is given in reverse, the
    longest first. -/
def beginnings : List String → List (List String)
  | [] | [_] => []
  | _ :: b :: r => (b :: r).reverse :: beginnings (b :: r)

/-- The pieces of a path, then those of the paths that lead to it, the longest
    first. -/
def ancestors (path : String) : List (List String) :=
  (pieces path).filter (· ≠ "") :: beginnings (components path).reverse

end TreeDoc.Files.Path
