/-
  Options of a command line.

  * `Usage`: why the arguments of a command are refused;
  * `Switch`: an option, its names and what it takes;
  * `readOptions`: the values of all options among the arguments of a command
    that takes nothing but options.

  Values are checked when the next option is met, or at the end: so an unknown
  option is reported before a bad value that stands in front of it.
-/
import TreeDoc.Assoc
import TreeDoc.Text.Split

namespace TreeDoc.Command

/-! ## Refusals -/

/-- Why the arguments of a command are refused. -/
inductive Usage where
  | unknownArgument
  | missingRequired
  | invalidValue
  /-- A value that has the right form but cannot be read. -/
  | badValue
  | conflict
  | tooManyValues
  | invalidSubcommand
  /-- Help was asked for. -/
  | help
  /-- There is nothing to do. -/
  | helpOnMissing
deriving Repr, DecidableEq

/-- The wording of a refusal. -/
def Usage.message : Usage → String
  | unknownArgument => "unexpected argument"
  | missingRequired => "a required argument is missing"
  | invalidValue => "a value is missing or empty"
  | badValue => "a value cannot be read"
  | conflict => "an argument is given more than once"
  | tooManyValues => "an argument that takes no value has one"
  | invalidSubcommand => "unrecognized command"
  | help | helpOnMissing => "a command is needed"

/-- The exit code of a refusal: asking for help is no mistake. -/
def Usage.exitCode : Usage → Nat
  | help => 0
  | _ => 2

/-! ## Options -/

/-- What an option takes. -/
inductive Arity where
  /-- Nothing. -/
  | flag
  /-- One value, and at most once. -/
  | one
  /-- One or more values, any number of times. -/
  | many
  /-- Nothing, and it asks for help. -/
  | help
deriving Repr, DecidableEq

/-- An option: its long name, its letter, what it takes, and which values are
    refused. -/
structure Switch where
  long : String
  short : Option Char := none
  arity : Arity
  refusal : String → Option Usage := fun _ => none

/-- The option that asks for help. -/
def helpSwitch : Switch := { long := "help", short := some 'h', arity := .help }

/-- An empty value is refused. -/
def notEmpty (value : String) : Option Usage := if value = "" then some .invalidValue else none

/-- The values of the options met so far, by long name. -/
abbrev Found := List (String × List String)

/-- Takes an option with its values. -/
def record (found : Found) (s : Switch) (values : List String) : Except Usage Found :=
  match s.arity with
  | .help => .error .help
  | .flag => if (Assoc.get? s.long found).isSome then .error .conflict
    else .ok (Assoc.insert s.long [] found)
  | .one =>
    if values.isEmpty then .error .invalidValue
    else if (Assoc.get? s.long found).isSome then .error .conflict
    else checked values
  | .many =>
    if values.isEmpty then .error .invalidValue
    else checked values
where
  /-- Takes the values unless one of them is refused. -/
  checked (values : List String) : Except Usage Found :=
    match values.findSome? s.refusal with
    | some u => .error u
    | none => .ok (Assoc.insert s.long (((Assoc.get? s.long found).getD []) ++ values) found)

/-! ## Arguments -/

/-- What was read so far: the options taken, the one whose values are not
    checked yet, and whether the next argument may be a value of it. -/
structure Reading where
  found : Found := []
  pending : Option (Switch × List String) := none
  taking : Bool := false

namespace Reading

/-- Takes the option whose values are not checked yet. -/
def settle (r : Reading) : Except Usage Reading :=
  match r.pending with
  | none => .ok { found := r.found }
  | some (s, values) => do return { found := ← record r.found s values }

/-- Takes an option with the value that is attached to it, or leaves it open for
    the values that follow. -/
def meet (r : Reading) (s : Switch) (attached : Option String) : Except Usage Reading :=
  match s.arity, attached with
  | .flag, some _ | .help, some _ => .error .tooManyValues
  | .flag, none | .help, none => do
    let r ← r.settle
    return { found := ← record r.found s [] }
  | .one, some v | .many, some v => do
    let r ← r.settle
    return { found := ← record r.found s [v] }
  | .one, none | .many, none => do
    let r ← r.settle
    return { r with pending := some (s, []), taking := true }

/-- Takes a value for the open option. -/
def value (r : Reading) (v : String) : Except Usage Reading :=
  match r.pending with
  | some (s, values) =>
    if r.taking then
      .ok { r with pending := some (s, values ++ [v]), taking := s.arity = .many }
    else .error .unknownArgument
  | none => .error .unknownArgument

/-- Takes a long option, without its hyphens: a value may be attached by an
    equals sign. -/
def long (switches : List Switch) (r : Reading) (text : String) : Except Usage Reading :=
  let name := text.toList.takeWhile (· ≠ '=')
  let attached := match text.toList.dropWhile (· ≠ '=') with
    | [] => none
    | _ :: v => some (String.ofList v)
  match switches.find? fun s => s.long = String.ofList name with
  | none => .error .unknownArgument
  | some s => r.meet s attached

/-- Takes letters of options, without their hyphen. What follows the letter of
    an option that takes values is its value, after an equals sign or not. -/
def letters (switches : List Switch) (r : Reading) : List Char → Except Usage Reading
  | [] => .ok r
  | c :: cs =>
    match switches.find? fun s => s.short = some c with
    | none => .error .unknownArgument
    | some s =>
      match s.arity with
      | .flag | .help => do
        let r ← r.meet s none
        r.letters switches cs
      | .one | .many =>
        match cs with
        | [] => r.meet s none
        | '=' :: v => r.meet s (some (String.ofList v))
        | v => r.meet s (some (String.ofList v))

/-- Takes one argument. -/
def argument (switches : List Switch) (r : Reading) (arg : String) : Except Usage Reading :=
  match arg.toList with
  | '-' :: '-' :: text => r.long switches (String.ofList text)
  | ['-'] => r.value arg
  | '-' :: cs => r.letters switches cs
  | _ => r.value arg

/-- Takes all arguments. After two hyphens alone there must be none. -/
def arguments (switches : List Switch) (r : Reading) : List String → Except Usage Reading
  | [] => r.settle
  | "--" :: rest => if rest.isEmpty then r.settle else .error .unknownArgument
  | arg :: rest => do
    let r ← r.argument switches arg
    r.arguments switches rest

end Reading

/-- The values of all options among the arguments of a command. -/
def readOptions (switches : List Switch) (args : List String) : Except Usage Found :=
  (Reading.arguments switches {} args).map Reading.found

end TreeDoc.Command
