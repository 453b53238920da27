/-
  File systems.

  A file system is one tree. A path starts from its root if it begins with a slash,
  and from the working folder, which is a place in the tree, if it does not.

  * `FileSystem`: a tree and the place of the working folder;
  * `FileSystem.resolve`: the place that a path leads to;
  * `FileSystem.read`, `FileSystem.makeFolders`, `FileSystem.write`: the operations.
-/
import TreeDoc.Files.Tree

namespace TreeDoc.Files

/-- The tree below the root, and the place of the working folder in it. -/
structure FileSystem where
  root : Folder
  working : Place
deriving Repr

namespace FileSystem

/-- A folder as the working folder of a file system in which there is nothing else. -/
def ofFolder (f : Folder) : FileSystem := { root := [("work", .folder f)], working := ["work"] }

instance : Coe Folder FileSystem := ⟨ofFolder⟩

/-- The entries of the working folder. -/
def workingFolder (fs : FileSystem) : Folder :=
  ((fs.root.at? fs.working).map Entry.contents).getD []

/-! ## Paths -/

/-- The place from which a path starts. -/
def start (fs : FileSystem) (path : String) : Place :=
  if Path.isAbsolute path then [] else fs.working

/-- The place that a path leads to. -/
def resolve (fs : FileSystem) (path : String) : Except Error Place :=
  if path = "" then .error .notFound else fs.root.follow (fs.start path) (Path.pieces path)

/-- The text of the file at a path. -/
def read (fs : FileSystem) (path : String) : Except Error String := do
  let place ← fs.resolve path
  match fs.root.at? place with
  | some (.file (some text)) => return text
  | some (.file none) => .error .notText
  | some (.folder _) => .error .isFolder
  | none => .error .notFound

end FileSystem

/-! ## Making folders -/

namespace Folder

variable (root : Folder) (start : Place)

/-- Makes the last folder of a path. -/
def makeFolder (pieces : List String) : Except Error Folder := do
  let (es, place, name) ← root.locate start pieces
  if name = "." ∨ name = ".." ∨ (Assoc.get? name es).isSome then .error .alreadyExists
  else return root.updateAt (fun _ => .folder []) (place ++ [name])

/-- The pieces of a path lead to a folder. -/
def hasFolder (pieces : List String) : Bool :=
  match root.follow start pieces with
  | .ok place => (root.contents place).isOk
  | .error _ => false

/-- Makes the last folder of a path, unless it is there. -/
def ensureFolder (pieces : List String) : Except Error Folder :=
  match root.makeFolder start pieces with
  | .ok root => .ok root
  | .error e => if root.hasFolder start pieces then .ok root else .error e

/-- Makes the first folder of a list of ever shorter paths, and before it those
    that lead to it, as far as they are missing. -/
def makeChain : List (List String) → Except Error Folder
  | [] => .ok root
  | pieces :: shorter =>
    match root.ensureFolder start pieces with
    | .ok root => .ok root
    | .error .notFound => do
      let root ← makeChain shorter
      root.ensureFolder start pieces
    | .error e => .error e

end Folder

namespace FileSystem

/-- Makes the folder at a path, and those that lead to it, as far as they are
    missing. -/
def makeFolders (fs : FileSystem) (path : String) : Except Error FileSystem :=
  if path = "" then .ok fs
  else (fs.root.makeChain (fs.start path) (Path.ancestors path)).map fun root => { fs with root }

/-! ## Writing -/

/-- Writes a file, which may be there already. -/
def write (fs : FileSystem) (path text : String) : Except Error FileSystem := do
  if path = "" then .error .notFound
  let (es, place, name) ← fs.root.locate (fs.start path) (Path.pieces path)
  if name = "" then .error .isFolder
  match Assoc.get? name es with
  | some (.folder _) => .error .isFolder
  | _ =>
    if name = "." ∨ name = ".." then .error .isFolder
    else
      let root := fs.root.updateAt (fun _ => .file (some text)) (place ++ [name])
      return { fs with root }

end FileSystem

end TreeDoc.Files
