/-
  Paths found by a pattern.

  * `Spot`: a place in a tree, and the path by which it is known;
  * `find`: the paths that a list of components leads to from a spot: depth
    first, a folder before what it holds, the entries of a folder in ascending
    order;
  * `search`: the paths that a pattern finds.
-/
import TreeDoc.Files.Glob
import TreeDoc.Files.System

namespace TreeDoc.Files.Glob

/-- A place in a tree, and the path by which it is known. -/
structure Spot where
  path : String
  place : Place
deriving Repr, DecidableEq

/-- The path of an entry of the folder at a spot. A point alone is left out. -/
def Spot.pathTo (s : Spot) (name : String) : String :=
  if Path.isCurrent s.path then name else Path.join s.path name

/-- An entry of the folder at a spot. -/
def Spot.child (s : Spot) (name : String) : Spot :=
  { path := s.pathTo name, place := s.place ++ [name] }

/-! ## Folders at any depth -/

mutual

/-- What `here` finds at each entry of a folder, and at all that lies below
    it. -/
def below {α : Type} (here : Spot → String → Entry → List α) (spot : Spot) :
    List (String × Entry) → List α
  | [] => []
  | (name, e) :: es =>
    here (spot.child name) name e ++ within here (spot.child name) e ++ below here spot es

/-- What `here` finds at all that lies below an entry. -/
def within {α : Type} (here : Spot → String → Entry → List α) (spot : Spot) : Entry → List α
  | .file _ => []
  | .folder es => below here spot es

end

/-! ## Components -/

/-- The entries of the folder at a spot, if it is one. -/
def folderAt (root : Folder) (spot : Spot) : Option Folder := (root.contents spot.place).toOption

/-- The spot is found, unless only folders are wanted and it is none. -/
def arrive (root : Folder) (onlyFolders : Bool) (spot : Spot) : List String :=
  if onlyFolders && (folderAt root spot).isNone then [] else [spot.path]

/-- Where a name without wildcards leads from a spot. -/
def Spot.named? (root : Folder) (spot : Spot) (name : String) : Option Spot :=
  let path := spot.pathTo name
  if path = "" then none
  else
    match root.step spot.place name with
    | .ok place => some { path, place }
    | .error _ => none

/-- The pointed names that tokens stand for: they must begin with a point of
    their own. -/
def pointed (ts : List Token) : List String :=
  if ts.head? = some (.char '.') then ["..", "."].filter fun n => tokensMatch ts n.toList else []

/-- The paths that components lead to from a spot. -/
def find (root : Folder) (onlyFolders : Bool) : List Component → Spot → List String
  | [], spot => arrive root onlyFolders spot
  | .name name :: rest, spot =>
    match spot.named? root name with
    | some next => find root onlyFolders rest next
    | none => []
  | .wild ts :: rest, spot =>
    match folderAt root spot with
    | none => []
    | some es =>
      (pointed ts).flatMap (fun name =>
        match root.step spot.place name with
        | .ok place => find root onlyFolders rest { path := Path.join spot.path name, place }
        | .error _ => []) ++
      es.flatMap fun (name, _) =>
        if tokensMatch ts name.toList then find root onlyFolders rest (spot.child name) else []
  | .folders :: .folders :: rest, spot => find root onlyFolders (.folders :: rest) spot
  | [.folders], spot =>
    match folderAt root spot with
    | none => []
    | some es => below (fun s _ e => if e.isFolder then [s.path] else []) spot es
  | .folders :: c :: rest, spot =>
    match folderAt root spot with
    | none => []
    | some es =>
      below (fun s name _ => if c.accepts name then find root onlyFolders rest s else []) spot es

/-- The spot from which a pattern is searched for: the root or the working
    folder. -/
def Pattern.start (p : Pattern) (fs : FileSystem) : Spot :=
  if p.absolute then { path := "/", place := [] } else { path := ".", place := fs.working }

/-- The paths that a pattern finds. -/
def search (fs : FileSystem) (p : Pattern) : List String :=
  find fs.root p.onlyFolders p.components (p.start fs)

end TreeDoc.Files.Glob
