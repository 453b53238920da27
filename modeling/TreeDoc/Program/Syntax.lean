/-
  Syntax trees of one resolved source file.

  * `Literal`, `Expr`, `Stmt`: literals, expressions and statements;
  * `ServiceDef`, `ConnectorDef`, `FunctionDef`, …: declarations;
  * `File`: a source file, and `File.topLevel`, the declarations that are
    ordered by their position.

  Nothing is checked here: the trees come from a parser and resolver that are
  trusted to build well-formed ones.
-/
import TreeDoc.Decimal.Notation
import TreeDoc.Program.Operator

namespace TreeDoc.Program

/-! ## Expressions -/

/-- The value of a literal. -/
inductive Literal where
  | bool (value : Bool)
  | int (value : Int64)
  | float (value : Float)
  | string (value : String)
  | null
deriving Repr, DecidableEq

/-- The bare text of a literal: strings stand without quotes. -/
def Literal.text : Literal → String
  | .bool b => if b then "true" else "false"
  | .int n => toString n.toInt
  | .float x => Decimal.literalNotation.write x
  | .string s => s
  | .null => "null"

/-- A literal and the name of its type. -/
structure TypedLiteral where
  type : String
  value : Literal
deriving Repr, DecidableEq

/-- The places in which the resolver stores variables. -/
inductive Storage where
  | constant
  | localVar
  | connectorVar
  | serviceVar
  | structVar
deriving Repr, DecidableEq

/-- The storage slot of a variable. -/
structure Slot where
  storage : Storage
  offset : UInt64
deriving Repr, DecidableEq

/-- Expressions. A call's package qualifies the function, or the connector of
    the action, that it invokes. -/
inductive Expr where
  | functionCall (name : String) (package : Option String) (args : List Expr)
  | actionCall (name connector : String) (package : Option String) (args : List Expr)
  | literal (value : TypedLiteral)
  | binary (op : BinaryOp) (lhs rhs : Expr)
  | unary (op : UnaryOp) (operand : Expr)
  | variable (name : String)
  | cast (type : String) (operand : Expr)
  | array (args : List Expr)
  | map (args : List Expr)
  | template (content : String)
  | creation (type : String)
  | access (name : String) (index : Expr)
  | keyValue (key value : Expr)
  | structInit (type : String) (args : List Expr)
  | fieldAccess (name : String) (fields : List String)
  | resourceCall (name : String) (args : List Expr)
  | location (slot : Slot)
deriving Repr

namespace Expr

/-- An integer literal. -/
def int (n : Int64) : Expr := .literal { type := "int", value := .int n }

/-- A string literal. -/
def string (s : String) : Expr := .literal { type := "string", value := .string s }

/-- A call of a function without a package. -/
def call (name : String) (args : List Expr) : Expr := .functionCall name none args

end Expr

/-! ## Statements -/

/-- Statements. -/
inductive Stmt where
  | block (statements : List Stmt)
  | assign (lhs : List Expr) (rhs : Expr)
  | comment (text : String)
  | ifElse (condition : Expr) (thenBody : Stmt) (elseBody : Option Stmt)
  | whileLoop (condition : Expr) (body : Option Stmt)
  | functionCall (name : String) (package : Option String) (args : List Expr)
  | actionCall (name connector : String) (package : Option String) (args : List Expr)
  | reply (value : Expr)
  | returning (values : List Expr)
deriving Repr

/-- The body of a function, action or resource. -/
structure Block where
  statements : List Stmt
deriving Repr

/-! ## Declarations -/

/-- Where a declaration stands in its file, relative to the others. -/
abbrev Position := UInt32

/-- An imported package. -/
structure ImportDecl where
  name : String
  path : String
  position : Position
deriving Repr, DecidableEq

/-- An annotation and its attributes, each key once and in order. -/
structure AnnotationDef where
  name : String
  value : String
  attributes : List (String × String)
deriving Repr, DecidableEq

/-- A parameter of a callable. -/
structure Parameter where
  name : String
  type : String
  annotations : List AnnotationDef
deriving Repr, DecidableEq

/-- A declared result of a function or action, named or not. -/
structure ReturnParameter where
  type : String
  name : Option String
deriving Repr, DecidableEq

/-- A variable bound to a new instance of a connector. -/
structure ConnectorDecl where
  connector : String
  package : Option String
  variableName : String
  args : List Expr
deriving Repr

/-- A declared variable. -/
structure VariableDecl where
  name : String
  type : String
deriving Repr, DecidableEq

/-- A constant, which a literal initializes. -/
structure ConstantDef where
  name : String
  type : String
  value : TypedLiteral
  position : Position
deriving Repr, DecidableEq

/-- A worker of a resource. -/
structure WorkerDef where
  name : String
  position : Position
  connectors : List ConnectorDecl
  locals : List VariableDecl
  statements : List Stmt
deriving Repr

/-- A resource of a service. One without a body has no statements. -/
structure ResourceDef where
  name : String
  position : Position
  annotations : List AnnotationDef
  locals : List VariableDecl
  parameters : List Parameter
  connectors : List ConnectorDecl
  workers : List WorkerDef
  body : Option Block
deriving Repr

/-- A service. -/
structure ServiceDef where
  name : String
  position : Position
  annotations : List AnnotationDef
  locals : List VariableDecl
  connectors : List ConnectorDecl
  resources : List ResourceDef
deriving Repr

/-- An action of a connector. -/
structure ActionDef where
  name : String
  position : Position
  annotations : List AnnotationDef
  locals : List VariableDecl
  parameters : List Parameter
  connectors : List ConnectorDecl
  results : List ReturnParameter
  body : Block
deriving Repr

/-- A connector. -/
structure ConnectorDef where
  name : String
  position : Position
  annotations : List AnnotationDef
  locals : List VariableDecl
  parameters : List Parameter
  connectors : List ConnectorDecl
  actions : List ActionDef
deriving Repr

/-- A function. -/
structure FunctionDef where
  name : String
  position : Position
  isPublic : Bool
  annotations : List AnnotationDef
  locals : List VariableDecl
  parameters : List Parameter
  connectors : List ConnectorDecl
  results : List ReturnParameter
  body : Block
deriving Repr

/-- A struct type. -/
structure StructDef where
  name : String
  fields : List VariableDecl
  position : Position
deriving Repr, DecidableEq

/-- A conversion between two types. -/
structure TypeConverter where
  name : String
  source : String
  target : String
  position : Position
deriving Repr, DecidableEq

/-- The call that starts the program. -/
structure MainInvoker where
  function : String
deriving Repr, DecidableEq

/-! ## Files -/

/-- A source file. -/
structure File where
  packageName : String
  imports : List ImportDecl
  constants : List ConstantDef
  services : List ServiceDef
  functions : List FunctionDef
  connectors : List ConnectorDef
  structs : List StructDef
  typeConverters : List TypeConverter
  mainInvoker : Option MainInvoker
deriving Repr

/-- A declaration whose place among the others follows from its position. -/
inductive TopLevel where
  | constant (decl : ConstantDef)
  | service (decl : ServiceDef)
  | function (decl : FunctionDef)
deriving Repr

/-- Where the declaration stands in its file. -/
def TopLevel.position : TopLevel → Position
  | .constant d => d.position
  | .service d => d.position
  | .function d => d.position

/-- The name of the declaration. -/
def TopLevel.name : TopLevel → String
  | .constant d => d.name
  | .service d => d.name
  | .function d => d.name

/-- Constants, then services, then functions, each in their own order. -/
def File.topLevel (f : File) : List TopLevel :=
  f.constants.map .constant ++ f.services.map .service ++ f.functions.map .function

/-- The top-level declarations by position; those at the same position keep
    the order of `File.topLevel`. -/
def File.ordered (f : File) : List TopLevel :=
  f.topLevel.mergeSort fun a b => a.position ≤ b.position

end TreeDoc.Program
