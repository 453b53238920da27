/-
  The command that turns source files into documents.

  * `Request`: what the command is asked to do, and `Request.parse`, its
    arguments;
  * `Request.text`: the document of one input;
  * `Request.save`: what is done with it;
  * `Request.run`: the command as a whole. All inputs are read before anything is
    written.
-/
import TreeDoc.Command.Options
import TreeDoc.Command.Outcome
import TreeDoc.Model.Nodes

namespace TreeDoc.Command

open Files (FileSystem)

/-! ## Arguments -/

/-- What the command is asked to do. -/
structure Request where
  /-- Where the file stands inside each input. -/
  pointer : Option String := none
  /-- Paths and patterns. -/
  inputs : List String
  /-- The folder to write to, instead of printing. -/
  outDir : Option String := none
  structuredOnly : Bool := false
  compact : Bool := false
  verbose : Bool := false
  /-- Only show the request. -/
  noOp : Bool := false
deriving Repr, DecidableEq

namespace Request

/-- The options of the command. -/
def switches : List Switch :=
  [{ long := "json-pointer", arity := .one },
    { long := "input", short := some 'i', arity := .many },
    { long := "out-dir", short := some 'o', arity := .one, refusal := notEmpty },
    { long := "structured-only", arity := .flag }, { long := "compact", arity := .flag },
    { long := "verbose", short := some 'v', arity := .flag }, { long := "no-op", arity := .flag },
    helpSwitch]

/-- The request that options make. There must be an input. -/
def ofFound (found : Found) : Except Usage Request :=
  let has (name : String) := (Assoc.get? name found).isSome
  let one (name : String) := (Assoc.get? name found).bind List.head?
  match Assoc.get? "input" found with
  | none => .error .missingRequired
  | some inputs =>
    .ok { pointer := one "json-pointer", inputs, outDir := one "out-dir",
          structuredOnly := has "structured-only", compact := has "compact",
          verbose := has "verbose", noOp := has "no-op" }

/-- The name of the command, which must be the first argument. -/
def name : String := "model"

/-- The refusal of arguments that do not begin with the command. -/
def refusal : List String → Usage
  | [] | ["--"] => .helpOnMissing
  | "--" :: arg :: _ =>
    if arg = name ∨ arg = "help" then .unknownArgument else .invalidSubcommand
  | "help" :: args => if args = [] ∨ args = [name] ∨ args = ["help"] then .help else .invalidSubcommand
  | arg :: _ =>
    match arg.toList with
    | ['-'] => .invalidSubcommand
    | '-' :: 'h' :: _ => .help
    | '-' :: '-' :: 'h' :: 'e' :: 'l' :: 'p' :: [] => .help
    | '-' :: '-' :: 'h' :: 'e' :: 'l' :: 'p' :: '=' :: _ => .tooManyValues
    | '-' :: _ => .unknownArgument
    | _ => .invalidSubcommand

/-- The request that arguments make. -/
def parse (args : List String) : Except Usage Request :=
  match args with
  | first :: rest =>
    if first = name then readOptions switches rest >>= ofFound else .error (refusal args)
  | [] => .error .helpOnMissing

/-- The dump of a request. -/
def dump (r : Request) : Dump :=
  .record "CommandLineInterface" [("cmd", .tuple "Model" [.record "ModelOut" [
    ("input_settings", .record "InputSettings" [("json_pointer", .option .text r.pointer),
      ("input", .list (r.inputs.map .text))]),
    ("out_dir", .option .text r.outDir), ("structured_only", .bool r.structuredOnly),
    ("compact", .bool r.compact), ("verbose", .bool r.verbose), ("no_op", .bool r.noOp)]])]

/-! ## One input -/

/-- How documents are made. -/
def style (r : Request) : Model.Style :=
  { settings := { strategy := if r.structuredOnly then .structured else .structuredWithText } }

/-- The document of the input at a path. -/
def text (r : Request) (fs : FileSystem) (path : String) : Except LoadError String := do
  let f ← loadFile fs path r.pointer
  let d := Model.document r.style f
  return if r.compact then d.compact else d.pretty

/-- A name without any `.ast` at its end. -/
def trimmed (name : List Char) : List Char :=
  let reversed := (".ast".toList).reverse
  (go reversed name.length name.reverse).reverse
where
  /-- Drops the beginning again and again, as often as `n` allows. -/
  go (beginning : List Char) : Nat → List Char → List Char
    | 0, cs => cs
    | n + 1, cs =>
      if beginning.isPrefixOf cs then go beginning n (cs.drop beginning.length) else cs

/-- The name of the file that the document of the input at a path is written
    to. -/
def targetName (path : String) : String :=
  match Files.Path.fileStem? path with
  | some stem => String.ofList (trimmed stem.toList) ++ ".model.json"
  | none => "document.model.json"

/-- Prints or writes the document of the input at a path. -/
def save (r : Request) (o : Outcome) (path text : String) : Outcome :=
  match r.outDir with
  | none => { o with stdout := o.stdout ++ text ++ "\n" }
  | some dir =>
    match o.system.makeFolders dir with
    | .error e => { o with failure := some (.folderNotMade dir e) }
    | .ok system =>
      let target := Files.Path.join dir (targetName path)
      match system.write target text with
      | .error e => { o with system, failure := some (.notWritten target e) }
      | .ok system =>
        let note := if r.verbose then "wrote " ++ path ++ " → " ++ target ++ "\n" else ""
        { o with system, stderr := o.stderr ++ note }

/-! ## All inputs -/

/-- Saves the documents of inputs, and reports those that have none, up to the
    first that cannot be saved. -/
def saveAll (r : Request) (o : Outcome) : List (String × Except LoadError String) → Outcome
  | [] => o
  | (path, .ok text) :: rest =>
    let o := r.save o path text
    if o.failure.isSome then o else r.saveAll o rest
  | (_, .error e) :: rest =>
    r.saveAll { o with stderr := o.stderr ++ "failed: " ++ e.message ++ "\n" } rest

/-- The number of inputs that have no document. -/
def failures (results : List (String × Except LoadError String)) : Nat :=
  results.countP fun (_, result) => !result.isOk

/-- Turns all inputs into documents. -/
def convert (r : Request) (fs : FileSystem) : Outcome :=
  match resolveInputs fs r.inputs with
  | .error e => { system := fs, failure := some (.unresolved e) }
  | .ok paths =>
    let results := paths.map fun path => (path, r.text fs path)
    let o := r.saveAll { system := fs } results
    let failed := failures results
    if o.failure.isSome || failed = 0 then o else { o with failure := some (.notConverted failed) }

/-- Runs the command. -/
def run (r : Request) (fs : FileSystem) : Outcome :=
  if r.noOp then { stderr := r.dump.lines ++ "\n", system := fs } else r.convert fs

end Request

end TreeDoc.Command
