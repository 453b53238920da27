/-
  Statements and expressions as one line of source text.

  * `Expr.source`: the text of an expression, with parentheses only where
    precedence asks for them;
  * `Stmt.source`: the text of a statement.
-/
import TreeDoc.Program.Syntax
import TreeDoc.Text.Quoted
import TreeDoc.Text.Separated

namespace TreeDoc.Program

/-- A name behind its package, if it has one. -/
def qualified (package : Option String) (name : String) : String :=
  match package with
  | some p => p ++ ":" ++ name
  | none => name

/-- The texts with a comma and a blank between any two of them. -/
def commaSeparated (texts : List String) : String := Text.separated ", " texts

/-- How a storage is written. -/
def Storage.source : Storage → String
  | constant => "const"
  | localVar => "local"
  | connectorVar => "connector"
  | serviceVar => "service"
  | structVar => "struct"

/-- How a slot is written. -/
def Slot.source (s : Slot) : String := s.storage.source ++ "[" ++ toString s.offset.toNat ++ "]"

/-- How a literal is written: strings are quoted. -/
def Literal.source : Literal → String
  | .string s => Text.quoted s
  | l => l.text

/-- The text of an operand, in parentheses if the operand is a binary
    expression whose precedence is too weak for its place. -/
def grouped (tooWeak : Nat → Bool) (operand : Expr) (text : String) : String :=
  match operand with
  | .binary op _ _ => if tooWeak op.precedence then "(" ++ text ++ ")" else text
  | _ => text

mutual

/-- The text of an expression. Operators are left-associative, so a right
    operand of the same precedence is grouped. -/
def Expr.source : Expr → String
  | .functionCall name package args =>
    qualified package name ++ "(" ++ commaSeparated (sources args) ++ ")"
  | .actionCall name connector package args =>
    qualified package connector ++ "." ++ name ++ "(" ++ commaSeparated (sources args) ++ ")"
  | .literal l => l.value.source
  | .binary op lhs rhs =>
    grouped (· < op.precedence) lhs lhs.source ++ " " ++ op.symbol ++ " " ++
      grouped (· ≤ op.precedence) rhs rhs.source
  | .unary op operand => op.symbol ++ grouped (fun _ => true) operand operand.source
  | .variable name => name
  | .cast type operand => "(" ++ type ++ ") " ++ grouped (fun _ => true) operand operand.source
  | .array args => "[" ++ commaSeparated (sources args) ++ "]"
  | .map args => "\x7b" ++ commaSeparated (sources args) ++ "\x7d"
  | .template content => "`" ++ content ++ "`"
  | .creation type => "new " ++ type
  | .access name index => name ++ "[" ++ index.source ++ "]"
  | .keyValue key value => key.source ++ ": " ++ value.source
  | .structInit type args => type ++ "\x7b" ++ commaSeparated (sources args) ++ "\x7d"
  | .fieldAccess name fields => name ++ String.join (fields.map ("." ++ ·))
  | .resourceCall name args => name ++ "(" ++ commaSeparated (sources args) ++ ")"
  | .location slot => slot.source

/-- The texts of expressions. -/
def sources : List Expr → List String
  | [] => []
  | e :: es => e.source :: sources es

end

mutual

/-- The text of a statement. -/
def Stmt.source : Stmt → String
  | .block [] => "\x7b\x7d"
  | .block statements => "\x7b " ++ String.join (stmtSources statements) ++ "\x7d"
  | .assign lhs rhs => commaSeparated (sources lhs) ++ " = " ++ rhs.source ++ ";"
  | .comment text => text
  | .ifElse condition thenBody elseBody =>
    "if (" ++ condition.source ++ ") " ++ thenBody.source ++ elseSource elseBody
  | .whileLoop condition body => "while (" ++ condition.source ++ ") " ++ bodySource body
  | .functionCall name package args => (Expr.functionCall name package args).source ++ ";"
  | .actionCall name connector package args =>
    (Expr.actionCall name connector package args).source ++ ";"
  | .reply value => "reply " ++ value.source ++ ";"
  | .returning [] => "return;"
  | .returning values => "return " ++ commaSeparated (sources values) ++ ";"

/-- The statements of a block, each followed by a blank. -/
def stmtSources : List Stmt → List String
  | [] => []
  | s :: ss => (s.source ++ " ") :: stmtSources ss

/-- The else branch of a conditional. -/
def elseSource : Option Stmt → String
  | none => ""
  | some s => " else " ++ s.source

/-- The body of a loop; a missing one is an empty block. -/
def bodySource : Option Stmt → String
  | none => "\x7b\x7d"
  | some s => s.source

end

end TreeDoc.Program
