/-
  What a command leaves behind.

  * `Failure`: why a command fails, with its wording;
  * `Outcome`: output, the file system, and a failure if there is one;
  * `oneLine`, `errorReport`: the messages of a failure as they are reported.
-/
import TreeDoc.Load
import TreeDoc.Text.Separated

namespace TreeDoc.Command

open Files (FileSystem Folder)

/-! ## Failures -/

/-- Why a command fails. -/
inductive Failure where
  | unresolved (cause : LoadError)
  | folderNotMade (path : String) (cause : Files.Error)
  | notWritten (path : String) (cause : Files.Error)
  | notConverted (count : Nat)
  | badFixturePattern (pattern : String) (cause : Files.Glob.Fault)
  | fixturesFailed (count : Nat)
deriving Repr, DecidableEq

/-- The message of a failure, then those of its causes. -/
def Failure.chain : Failure → List String
  | unresolved cause => "failed to resolve input file paths" :: cause.chain
  | folderNotMade path cause => ["failed to create " ++ path, cause.message]
  | notWritten path cause => ["failed to write " ++ path, cause.message]
  | notConverted count => [toString count ++ " input file(s) could not be converted"]
  | badFixturePattern pattern cause => ["bad fixture pattern " ++ pattern, cause.message]
  | fixturesFailed count => [toString count ++ " fixture(s) failed"]

/-! ## Reports -/

/-- The messages of a failure on one line. -/
def oneLine (messages : List String) : String := Text.separated ": " messages

/-- A cause, with all its lines indented. -/
def causeLines (cause : String) : String :=
  String.join ((Text.split '\n' cause).map fun line => "\n    " ++ line)

/-- A numbered cause, with all its lines indented. -/
def numberedCause (i : Nat) (cause : String) : String :=
  let number := toString i
  let label := String.ofList (List.replicate (5 - number.length) ' ') ++ number ++ ": "
  "\n" ++ label ++ Text.separated "\n       " (Text.split '\n' cause)

/-- The report of a failure: its message, then its causes, numbered if there are
    more than one. -/
def errorReport : List String → String
  | [] => ""
  | [message] => "Error: " ++ message ++ "\n"
  | [message, cause] => "Error: " ++ message ++ "\n\nCaused by:" ++ causeLines cause ++ "\n"
  | message :: causes =>
    "Error: " ++ message ++ "\n\nCaused by:" ++
      String.join (causes.zipIdx.map fun (cause, i) => numberedCause i cause) ++ "\n"

/-! ## Outcomes -/

/-- What a command leaves behind. -/
structure Outcome where
  stdout : String := ""
  stderr : String := ""
  system : FileSystem
  failure : Option Failure := none
deriving Repr

namespace Outcome

/-- The entries of the working folder afterwards. -/
def files (o : Outcome) : Folder := o.system.workingFolder

/-- The messages of the failure, if there is one. -/
def messages (o : Outcome) : List String := (o.failure.map Failure.chain).getD []

/-- All that is printed beside the output proper: notes, then the report of the
    failure. -/
def report (o : Outcome) : String := o.stderr ++ errorReport o.messages

/-- The exit code of a command. -/
def exitCode (o : Outcome) : Nat := if o.failure.isSome then 1 else 0

end Outcome

end TreeDoc.Command
