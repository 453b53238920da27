/-
  Sequences of nodes under construction.

  A builder is a stack of open sequences. Nodes go to the end of the sequence
  that was opened last, and closing it hands it back.

  * `Builder`: the open sequences, the innermost first;
  * `Build`: computations on a builder, which keep its state when they fail;
  * `Build.start`, `Build.append`, `Build.appendOption`, `Build.close`: the
    steps of a construction;
  * `Build.group`: what a computation appends to a sequence of its own.
-/
import TreeDoc.Document.Node

namespace TreeDoc.Document

/-- The open sequences, the innermost first. -/
structure Builder where
  stack : List (List Node) := []
deriving Repr

/-- The number of open sequences. -/
def Builder.depth (b : Builder) : Nat := b.stack.length

/-- Steps that need an open sequence where there is none. -/
inductive Misuse where
  | append
  | close
deriving Repr, DecidableEq

/-- The wording of a misuse. -/
def Misuse.message : Misuse → String
  | append => "DocBuilder::append with no open sequence"
  | close => "DocBuilder::close with no open sequence"

/-- Computations on a builder. A failure leaves the builder as it is then. -/
abbrev Build := ExceptT Misuse (StateM Builder)

namespace Build

/-- Opens a sequence. -/
def start : Build Unit := modify fun b => { stack := [] :: b.stack }

/-- Adds a node to the end of the innermost sequence. -/
def append (n : Node) : Build Unit := do
  match (← get).stack with
  | [] => throw .append
  | ns :: stack => set ({ stack := (ns ++ [n]) :: stack } : Builder)

/-- Adds a node if there is one. -/
def appendOption : Option Node → Build Unit
  | none => pure ()
  | some n => append n

/-- Closes the innermost sequence and hands it back. -/
def close : Build (List Node) := do
  match (← get).stack with
  | [] => throw .close
  | ns :: stack => do
    set ({ stack } : Builder)
    return ns

/-- What a computation appends to a sequence of its own. -/
def group (body : Build Unit) : Build (List Node) := do
  start
  body
  close

/-- Runs a computation from a builder: its result, and the builder after it. -/
def run {α : Type} (build : Build α) (b : Builder) : Except Misuse α × Builder :=
  Id.run (StateT.run (ExceptT.run build) b)

end Build

end TreeDoc.Document
