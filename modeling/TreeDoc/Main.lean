/-
  The programs.

  Both read what they are asked about into a tree, run their command on it, and then
  print and write what the command leaves behind.

  * `Main.convert`: turns source files into documents;
  * `Main.golden`: compares documents with expected ones.
-/
import TreeDoc.Command.Convert
import TreeDoc.Command.Golden

namespace TreeDoc.Main

open Command Files

/-! ## Reading -/

/-- The names that lead to a path from the root. -/
def namesOf (path : String) : IO Place := do
  return (Path.pieces (← IO.FS.realPath path).toString).filter (· ≠ "")

/-- Adds a file or folder to a tree, a folder with what it holds down to a depth. What
    cannot be read is left out. -/
def addEntry (depth : Nat) (names : Place) (e : IO.FS.DirEntry) (root : Folder) : IO Folder := do
  try
    if ← e.path.isDir then
      let mut root := root.putFolder names
      match depth with
      | 0 => return root
      | depth + 1 =>
        for inner in ← e.path.readDir do
          root ← addEntry depth (names ++ [inner.fileName]) inner root
        return root
    else return root.putFile names (String.fromUTF8? (← IO.FS.readBinFile e.path))
  catch _ => return root

/-- Adds what is at a path to a tree, if there is anything. -/
def addPath (depth : Nat) (path : String) (root : Folder) : IO Folder := do
  try addEntry depth (← namesOf path) { root := ".", fileName := path } root
  catch _ => return root

/-- How far the pieces of a pattern may lead down. -/
def reach (pieces : List String) : Nat := if "**" ∈ pieces then 255 else pieces.length

/-- Adds to a tree all that a path or a pattern may lead to: what is on the way to its
    first wildcard, and there what the rest of it may find. -/
def addTarget (root : Folder) (target : String) : IO Folder := do
  let pieces := Path.pieces target
  let fixed := pieces.takeWhile fun piece => !isPattern piece
  let mut root := root
  for n in List.range fixed.length do
    root ← addPath 0 (String.intercalate "/" (fixed.take n)) root
  addPath (reach (pieces.drop fixed.length) + 1) (String.intercalate "/" fixed) root

/-- The file system, as far as paths and patterns may lead to it. -/
def readSystem (targets : List String) : IO FileSystem := do
  let working ← namesOf "."
  return { root := ← targets.foldlM addTarget (Folder.putFolder working []), working }

/-! ## Writing -/

/-- Writes the files that differ from those of a tree. -/
def writeChanges (before after : Folder) : IO Unit := do
  for (path, text) in before.changes after do
    IO.FS.createDirAll ("/" ++ String.intercalate "/" (Path.components path).dropLast)
    IO.FS.writeFile ("/" ++ path) text

/-- Prints and writes what a command leaves behind. -/
def finish (before : FileSystem) (o : Outcome) : IO UInt32 := do
  writeChanges before.root o.system.root
  IO.print o.stdout
  IO.eprint o.report
  return o.exitCode.toUInt32

/-- Runs a command on the paths and patterns that it is about, unless its arguments are
    refused. -/
def perform (summary : String)
    (command : Except Usage (List String × (FileSystem → Outcome))) : IO UInt32 := do
  match command with
  | .error u =>
    if u = .help then IO.println summary else IO.eprintln ("error: " ++ u.message ++ "\n\n" ++ summary)
    return u.exitCode.toUInt32
  | .ok (targets, run) => do
    let fs ← readSystem targets
    finish fs (run fs)

/-- Turns source files into documents. -/
def convert (args : List String) : IO UInt32 :=
  perform
    ("Usage: model --input <INPUT>... [--json-pointer <JSON_POINTER>] [--out-dir <OUT_DIR>] " ++
      "[--structured-only] [--compact] [--verbose] [--no-op]")
    (Request.parse args |>.map fun r => (r.inputs ++ r.outDir.toList, r.run))

/-- Compares documents with expected ones. -/
def golden (args : List String) : IO UInt32 :=
  perform "Usage: [--dir <DIR>] [--filter <FILTER>]"
    (Golden.parse args |>.map fun g => ([Path.join g.dir "*"], g.run))

end TreeDoc.Main

/-- Turns source files into documents. -/
def main (args : List String) : IO UInt32 := TreeDoc.Main.convert args
