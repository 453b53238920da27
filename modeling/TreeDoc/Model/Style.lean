/-
  How documents are made.

  * `Renderer`: the texts of expressions and statements;
  * `Style`: settings and a renderer.
-/
import TreeDoc.Model.Settings
import TreeDoc.Program.Source

namespace TreeDoc.Model

open Program

/-- The texts of expressions and statements. -/
structure Renderer where
  expr : Expr → String
  stmt : Stmt → String

/-- Source text. -/
def Renderer.source : Renderer := { expr := Expr.source, stmt := Stmt.source }

/-- How a document is made. -/
structure Style where
  settings : Settings := {}
  renderer : Renderer := .source

namespace Style

/-- Texts are wanted besides nodes. -/
def withText (st : Style) : Bool := st.settings.withText

/-- The style of documents without texts. -/
def structured (r : Renderer) : Style where
  settings := { strategy := .structured }
  renderer := r

/-- The style of documents with texts. -/
def textual (r : Renderer) : Style where
  settings := { strategy := .structuredWithText }
  renderer := r

end Style

end TreeDoc.Model
