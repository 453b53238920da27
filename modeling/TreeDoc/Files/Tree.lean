/-
  Trees of files and folders.

  * `Entry`, `Folder`: files and folders, the entries of a folder in ascending
    order of their names;
  * `Folder.at?`: what names lead to;
  * `Error`: why an operation fails, with its wording;
  * `Place`, `Folder.step`, `Folder.follow`: places in a tree, and the place that
    the pieces of a path lead to;
  * `Folder.changes`: the files that differ between two trees.
-/
import TreeDoc.Assoc
import TreeDoc.Files.Path

namespace TreeDoc.Files

/-! ## Trees -/

/-- A file, whose text is missing if its bytes are not UTF-8, or a folder. -/
inductive Entry where
  | file (text : Option String)
  | folder (entries : List (String × Entry))
deriving Repr

/-- The entries of a folder by name. -/
abbrev Folder := List (String × Entry)

/-- The entries of a folder; a file has none. -/
def Entry.contents : Entry → Folder
  | .folder entries => entries
  | .file _ => []

/-- The entry is a folder. -/
def Entry.isFolder : Entry → Bool
  | .folder _ => true
  | .file _ => false

namespace Folder

/-- Changes the entry with a name, or adds one in its place in the order. -/
def update (name : String) (change : Option Entry → Entry) : Folder → Folder
  | [] => [(name, change none)]
  | (k, e) :: es =>
    if k = name then (k, change (some e)) :: es
    else if name < k then (name, change none) :: (k, e) :: es
    else (k, e) :: update name change es

/-- The folder with an entry changed; the folders that lead to it are made where
    they are missing. -/
def updateAt (change : Option Entry → Entry) : List String → Folder → Folder
  | [], f => f
  | [name], f => f.update name change
  | name :: names, f =>
    f.update name fun e => .folder (updateAt change names ((e.map Entry.contents).getD []))

/-- The folder with a file. -/
def putFile (names : List String) (text : Option String) (f : Folder) : Folder :=
  f.updateAt (fun _ => .file text) names

/-- The folder with a folder in it; one that is there already stays. -/
def putFolder (names : List String) (f : Folder) : Folder :=
  f.updateAt (fun e => .folder ((e.map Entry.contents).getD [])) names

/-- What names lead to. -/
def at? : List String → Folder → Option Entry
  | [], f => some (.folder f)
  | name :: names, f =>
    match Assoc.get? name f with
    | some (.folder es) => at? names es
    | some (.file t) => if names = [] then some (.file t) else none
    | none => none

end Folder

/-! ## Errors -/

/-- Why an operation on files fails. -/
inductive Error where
  | notFound
  | alreadyExists
  | notFolder
  | isFolder
  | notText
deriving Repr, DecidableEq

/-- The wording of an error. -/
def Error.message : Error → String
  | notFound => "No such file or directory (os error 2)"
  | alreadyExists => "File exists (os error 17)"
  | notFolder => "Not a directory (os error 20)"
  | isFolder => "Is a directory (os error 21)"
  | notText => "stream did not contain valid UTF-8"

/-! ## Ways -/

/-- The names that lead to a place from the root of a tree. -/
abbrev Place := List String

namespace Folder

/-- The entries of the folder at a place. -/
def contents (root : Folder) (place : Place) : Except Error Folder :=
  match root.at? place with
  | some (.folder es) => .ok es
  | some (.file _) => .error .notFolder
  | none => .error .notFound

/-- The place that one piece of a path leads to from a folder. Two points lead to
    the folder that holds it; above the root there is none, so there they lead
    nowhere else. -/
def step (root : Folder) (place : Place) (piece : String) : Except Error Place := do
  let es ← root.contents place
  if piece = "" ∨ piece = "." then return place
  else if piece = ".." then return place.dropLast
  else
    match Assoc.get? piece es with
    | some _ => return place ++ [piece]
    | none => .error .notFound

/-- The place that pieces of a path lead to from a folder. -/
def follow (root : Folder) (place : Place) : List String → Except Error Place
  | [] => .ok place
  | piece :: pieces => do
    let next ← root.step place piece
    root.follow next pieces

/-- The entries of the folder that the pieces before the last one lead to, its
    place, and the last piece. -/
def locate (root : Folder) (start : Place) (pieces : List String) :
    Except Error (Folder × Place × String) :=
  match pieces.getLast? with
  | none => .error .notFound
  | some name => do
    let place ← root.follow start pieces.dropLast
    let es ← root.contents place
    return (es, place, name)

end Folder

/-! ## Changes -/

mutual

/-- All files below an entry, by the path that leads to them. -/
def Entry.files (path : String) : Entry → List (String × Option String)
  | .file text => [(path, text)]
  | .folder entries => filesBelow path entries

/-- All files below the entries of a folder. -/
def filesBelow (path : String) : List (String × Entry) → List (String × Option String)
  | [] => []
  | (name, e) :: es => e.files (Path.join path name) ++ filesBelow path es

end

/-- All files of a tree by path. -/
def Folder.files (f : Folder) : List (String × Option String) := filesBelow "" f

/-- The texts of the files that are new, or have another text, in the second
    tree, in ascending order of their paths. -/
def Folder.changes (before after : Folder) : List (String × String) :=
  let changed := after.files.filterMap fun (path, text) =>
    if Assoc.get? path before.files = some text then none else text.map (path, ·)
  changed.mergeSort fun a b => a.1 ≤ b.1

end TreeDoc.Files
