/-
  Documents compared with expected ones.

  A fixture is a source file `<name>.ast.json` in a folder, and the document
  expected of it is in `<name>.model.json` beside it.

  * `Golden`: the folder of the fixtures, and which of them are wanted;
  * `Golden.fixtures`: the fixtures of a folder by name;
  * `Golden.check`: one fixture;
  * `Golden.run`: all fixtures.
-/
import TreeDoc.Command.Outcome
import TreeDoc.Model.Nodes

namespace TreeDoc.Command

open Files (FileSystem Path.join)

/-- What is asked for: the folder of the fixtures, and the names that are wanted. -/
structure Golden where
  dir : String := "fixtures"
  accepts : String → Bool := fun _ => true

namespace Golden

/-! ## Fixtures -/

/-- How the names of source files end. -/
def sourceSuffix : String := ".ast.json"

/-- The name of the fixture whose source file is at a path. -/
def fixtureName? (path : String) : Option String :=
  (Files.Path.fileName? path).bind fun name =>
    let cs := name.toList
    let suffix := sourceSuffix.toList
    if suffix.isSuffixOf cs then some (String.ofList (cs.take (cs.length - suffix.length))) else none

/-- Names in the order in which they differ first; a beginning comes before the
    whole. -/
def precedes : List String → List String → Bool
  | [], _ => true
  | _ :: _, [] => false
  | a :: as, b :: bs => if a = b then precedes as bs else a < b

/-- Fixtures in ascending order of their names, and of their paths where names
    are the same. -/
def sorted (fixtures : List (String × String)) : List (String × String) :=
  fixtures.mergeSort fun a b =>
    precedes (a.1 :: Files.Path.components a.2) (b.1 :: Files.Path.components b.2)

/-- The names and paths of the fixtures of a folder. The folder is part of a
    pattern. -/
def fixtures (g : Golden) (fs : FileSystem) : Except Failure (List (String × String)) :=
  let text := Path.join g.dir ("*" ++ sourceSuffix)
  match Files.Glob.Pattern.parse text with
  | .error fault => .error (.badFixturePattern text fault)
  | .ok pattern =>
    let named := (Files.Glob.search fs pattern).filterMap fun path =>
      (fixtureName? path).bind fun name =>
        if g.accepts name then some (name, path) else none
    .ok (sorted named)

/-! ## Checks -/

/-- The document of the source file at a path, with every key once. -/
def actual (fs : FileSystem) (path : String) : Except LoadError Json.Value :=
  (loadFile fs path none).map fun f => (Model.document {} f).merged

/-- The path of the document that is expected of a fixture. -/
def expectedPath (g : Golden) (name : String) : String := Path.join g.dir (name ++ ".model.json")

/-- Why a fixture fails. -/
inductive Mismatch where
  | notLoaded (cause : LoadError)
  | noExpectation (path : String) (cause : Files.Error)
  /-- The expected text is no JSON. -/
  | badExpectation (text : String) (failure : Decode.Failure)
  | differs (path : String) (actual : Json.Value)

/-- The message of a mismatch, then those of its causes. -/
def Mismatch.chain : Mismatch → List String
  | notLoaded cause => cause.chain
  | noExpectation path cause => ["missing expectation " ++ path, cause.message]
  | badExpectation text failure => [failure.message text]
  | differs path actual =>
    ["document differs from " ++ path ++ "\n--- actual ---\n" ++ actual.pretty]

/-- Compares the document of a fixture with the expected one, up to the order of
    object entries. -/
def check (g : Golden) (fs : FileSystem) (name path : String) : Except Mismatch Unit := do
  let actual ← (actual fs path).mapError .notLoaded
  let target := g.expectedPath name
  let text ← (fs.read target).mapError (.noExpectation target)
  let expected ← (Decode.readText text).mapError (.badExpectation text)
  if actual.same expected then return else .error (.differs target actual)

/-- The line that reports on a fixture. -/
def line (name : String) : Except Mismatch Unit → String
  | .ok () => "✅ pass " ++ name ++ "\n"
  | .error m => "❌ fail " ++ name ++ ": " ++ oneLine m.chain ++ "\n"

/-- Checks all fixtures of the folder. -/
def run (g : Golden) (fs : FileSystem) : Outcome :=
  match g.fixtures fs with
  | .error failure => { system := fs, failure := some failure }
  | .ok cases =>
    let results := cases.map fun (name, path) => (name, g.check fs name path)
    let failed := results.countP fun (_, result) => !result.isOk
    let lines := results.map fun (name, result) => line name result
    let summary := toString cases.length ++ " fixture(s), " ++ toString failed ++ " failed\n"
    { system := fs, stderr := String.join lines ++ summary,
      failure := if failed = 0 then none else some (.fixturesFailed failed) }

end Golden

end TreeDoc.Command
