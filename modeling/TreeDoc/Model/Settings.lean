/-
  How documents are built.

  * `Strategy`: whether statements also appear as text;
  * `Settings`: the choices made for a whole document.
-/
import TreeDoc.Dump

namespace TreeDoc.Model

/-- How statements and expressions appear in a document. -/
inductive Strategy where
  /-- Everything is a node. -/
  | structured
  /-- The statements of workers are one line of text each, and replies carry
      their text besides their nodes. -/
  | structuredWithText
deriving Repr, DecidableEq

/-- The choices made for a whole document. -/
structure Settings where
  strategy : Strategy := .structuredWithText
deriving Repr, DecidableEq

/-- Texts are wanted besides nodes. -/
def Settings.withText (s : Settings) : Bool := s.strategy = .structuredWithText

/-- The dump of a strategy. -/
def Strategy.dump : Strategy → Dump
  | structured => .atom "Structured"
  | structuredWithText => .atom "StructuredWithText"

/-- The dump of settings. -/
def Settings.dump (s : Settings) : Dump := .record "ModelConfig" [("strategy", s.strategy.dump)]

end TreeDoc.Model
