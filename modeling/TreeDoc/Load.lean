/-
  Source files loaded from JSON.

  * `LoadError`: why a file cannot be loaded or found, with its wording;
  * `File.ofText`, `File.ofValue`: a file read from a text, which may be followed
    by anything, or from a value;
  * `loadFile`: a file read from a file system, or from the value inside it
    that a JSON pointer selects;
  * `resolveInputs`: the paths that a list of paths and patterns stands for.
-/
import TreeDoc.Decode.Decoder
import TreeDoc.Files.Search

namespace TreeDoc

open Decode (Failure)
open Files (FileSystem)
open Program (File)

/-! ## Errors -/

/-- Why a file cannot be loaded or found. -/
inductive LoadError where
  | unreadable (path : String) (cause : Files.Error)
  /-- The text of `origin`, or a value inside it, does not describe a file. -/
  | undecodable (origin text : String) (failure : Failure)
  | pointerMiss (origin pointer : String)
  | noMatch (pattern : String)
  | badPattern (fault : Files.Glob.Fault)
deriving Repr, DecidableEq

/-- The wording of an error. -/
def LoadError.message : LoadError → String
  | unreadable path cause => "failed to read " ++ path ++ ": " ++ cause.message
  | undecodable origin text failure =>
    origin ++ ": at JSON path " ++ failure.path.text ++ " → " ++ failure.message text
  | pointerMiss origin pointer => origin ++ ": JSON pointer " ++ pointer ++ " selects nothing"
  | noMatch pattern => "glob pattern matched no files: " ++ pattern
  | badPattern fault => fault.message

/-- The wording of an error, then that of what caused it. -/
def LoadError.chain (e : LoadError) : List String :=
  match e with
  | unreadable _ cause => [e.message, cause.message]
  | _ => [e.message]

/-! ## Files -/

namespace Program.File

/-- The file that a text begins with. -/
def ofText (origin text : String) : Except LoadError File :=
  (Decode.decodeFirst text (.record .file)).mapError (.undecodable origin text)

/-- The file that a value describes. -/
def ofValue (origin : String) (v : Json.Value) : Except LoadError File :=
  (Decode.decodeValue v (.record .file)).mapError (.undecodable origin "")

end Program.File

/-- The file at a path, or the one that a JSON pointer selects there. -/
def loadFile (fs : FileSystem) (path : String) (pointer : Option String) : Except LoadError File := do
  let text ← (fs.read path).mapError (.unreadable path)
  match pointer with
  | none => File.ofText path text
  | some pointer =>
    let v ← (Decode.readFirst text).mapError (.undecodable path text)
    match v.get? pointer with
    | none => .error (.pointerMiss path pointer)
    | some selected => File.ofValue path selected

/-! ## Inputs -/

/-- The text has a character that only patterns have. -/
def isPattern (s : String) : Bool := s.toList.any fun c => c = '*' || c = '?' || c = '[' || c = '\x7b'

/-- The paths that one path or pattern stands for. A pattern must find
    something. -/
def resolveInput (fs : FileSystem) (input : String) : Except LoadError (List String) :=
  if isPattern input then
    match Files.Glob.Pattern.parse input with
    | .error fault => .error (.badPattern fault)
    | .ok p =>
      match Files.Glob.search fs p with
      | [] => .error (.noMatch input)
      | paths => .ok paths
  else .ok [input]

/-- The paths that paths and patterns stand for, in order. -/
def resolveInputs (fs : FileSystem) : List String → Except LoadError (List String)
  | [] => .ok []
  | input :: inputs => do
    let paths ← resolveInput fs input
    return paths ++ (← resolveInputs fs inputs)

end TreeDoc
