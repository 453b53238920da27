/-
  Dumps of syntax trees.

  Every type of `Program.Syntax` has a `dump`: records list their fields in the
  order in which a file writes them, alternatives are named.
-/
import TreeDoc.Dump
import TreeDoc.Program.Syntax

namespace TreeDoc.Program

/-! ## Expressions -/

/-- The dump of a binary operator. -/
def BinaryOp.dump : BinaryOp → Dump
  | divide => .atom "Divide"
  | add => .atom "Add"
  | subtract => .atom "Subtract"
  | multiply => .atom "Multiply"
  | and => .atom "And"
  | or => .atom "Or"
  | equal => .atom "Equal"
  | notEqual => .atom "NotEqual"
  | greaterEqual => .atom "GreaterEqual"
  | greaterThan => .atom "GreaterThan"
  | lessEqual => .atom "LessEqual"
  | lessThan => .atom "LessThan"

/-- The dump of a unary operator. -/
def UnaryOp.dump : UnaryOp → Dump
  | not => .atom "Not"
  | negate => .atom "Negate"
  | plus => .atom "Plus"

/-- The dump of a literal. -/
def Literal.dump : Literal → Dump
  | .bool b => .tuple "Bool" [.bool b]
  | .int n => .tuple "Int" [.atom (toString n.toInt)]
  | .float x => .tuple "Float" [.atom (Decimal.literalNotation.write x)]
  | .string s => .tuple "Str" [.text s]
  | .null => .atom "Null"

/-- The dump of a typed literal. -/
def TypedLiteral.dump (l : TypedLiteral) : Dump :=
  .record "BasicLiteral" [("ty", .text l.type), ("value", l.value.dump)]

/-- The dump of a storage. -/
def Storage.dump : Storage → Dump
  | constant => .atom "Constant"
  | localVar => .atom "LocalVar"
  | connectorVar => .atom "ConnectorVar"
  | serviceVar => .atom "ServiceVar"
  | structVar => .atom "StructVar"

/-- The dump of a slot. -/
def Slot.dump (s : Slot) : Dump :=
  .record "Location" [("storage", s.storage.dump), ("offset", .nat s.offset.toNat)]

/-- The dump of a function call, given the dumps of its arguments. -/
def functionCallDump (name : String) (package : Option String) (args : List Dump) : Dump :=
  .tuple "FunctionInvocation" [.record "FunctionInvocation"
    [("name", .text name), ("package", .option .text package), ("args", .list args)]]

/-- The dump of an action call, given the dumps of its arguments. -/
def actionCallDump (name connector : String) (package : Option String) (args : List Dump) : Dump :=
  .tuple "ActionInvocation" [.record "ActionInvocation"
    [("name", .text name), ("connector", .text connector), ("package", .option .text package),
      ("args", .list args)]]

mutual

/-- The dump of an expression. -/
def Expr.dump : Expr → Dump
  | .functionCall name package args => functionCallDump name package (exprDumps args)
  | .actionCall name connector package args =>
    actionCallDump name connector package (exprDumps args)
  | .literal l => .tuple "BasicLiteral" [l.dump]
  | .binary op lhs rhs => .record "Binary" [("op", op.dump), ("lhs", lhs.dump), ("rhs", rhs.dump)]
  | .unary op operand => .record "Unary" [("op", op.dump), ("operand", operand.dump)]
  | .variable name => .record "VariableRef" [("name", .text name)]
  | .cast type operand => .record "TypeCast" [("ty", .text type), ("expr", operand.dump)]
  | .array args => .record "ArrayInit" [("args", .list (exprDumps args))]
  | .map args => .record "MapInit" [("args", .list (exprDumps args))]
  | .template content => .record "Backtick" [("template", .text content)]
  | .creation type => .record "InstanceCreation" [("ty", .text type)]
  | .access name index => .record "ArrayMapAccess" [("name", .text name), ("index", index.dump)]
  | .keyValue key value => .record "KeyValue" [("key", key.dump), ("value", value.dump)]
  | .structInit type args =>
    .record "StructInit" [("ty", .text type), ("args", .list (exprDumps args))]
  | .fieldAccess name fields =>
    .record "StructFieldAccess" [("name", .text name), ("fields", .list (fields.map .text))]
  | .resourceCall name args =>
    .record "ResourceInvocation" [("name", .text name), ("args", .list (exprDumps args))]
  | .location slot => .tuple "Location" [slot.dump]

/-- The dumps of expressions. -/
def exprDumps : List Expr → List Dump
  | [] => []
  | e :: es => e.dump :: exprDumps es

end

/-! ## Statements -/

/-- The dump of a block, given the dumps of its statements. -/
def blockDump (statements : List Dump) : Dump :=
  .record "Block" [("statements", .list statements)]

mutual

/-- The dump of a statement. -/
def Stmt.dump : Stmt → Dump
  | .block statements => .tuple "Block" [blockDump (stmtDumps statements)]
  | .assign lhs rhs => .record "Assign" [("lhs", .list (exprDumps lhs)), ("rhs", rhs.dump)]
  | .comment text => .record "Comment" [("text", .text text)]
  | .ifElse condition thenBody elseBody =>
    .record "IfElse" [("condition", condition.dump), ("then_body", thenBody.dump),
      ("else_body", stmtOptionDump elseBody)]
  | .whileLoop condition body =>
    .record "While" [("condition", condition.dump), ("body", stmtOptionDump body)]
  | .functionCall name package args => functionCallDump name package (exprDumps args)
  | .actionCall name connector package args =>
    actionCallDump name connector package (exprDumps args)
  | .reply value => .record "Reply" [("expr", value.dump)]
  | .returning values => .record "Return" [("exprs", .list (exprDumps values))]

/-- The dumps of statements. -/
def stmtDumps : List Stmt → List Dump
  | [] => []
  | s :: ss => s.dump :: stmtDumps ss

/-- The dump of a statement that may be missing. -/
def stmtOptionDump : Option Stmt → Dump
  | none => .atom "None"
  | some s => .tuple "Some" [s.dump]

end

/-- The dump of a block. -/
def Block.dump (b : Block) : Dump := blockDump (stmtDumps b.statements)

/-! ## Declarations -/

/-- The dump of a position. -/
def positionDump (p : Position) : Dump := .nat p.toNat

/-- The dumps of the items, as a list. -/
def listDump {α : Type} (dump : α → Dump) (items : List α) : Dump := .list (items.map dump)

/-- The dump of an import. -/
def ImportDecl.dump (d : ImportDecl) : Dump :=
  .record "Import" [("name", .text d.name), ("path", .text d.path),
    ("position", positionDump d.position)]

/-- The dump of an annotation. -/
def AnnotationDef.dump (d : AnnotationDef) : Dump :=
  .record "Annotation" [("name", .text d.name), ("value", .text d.value),
    ("attributes", .table (d.attributes.map fun (k, v) => (k, .text v)))]

/-- The dump of a parameter. -/
def Parameter.dump (d : Parameter) : Dump :=
  .record "Parameter" [("name", .text d.name), ("ty", .text d.type),
    ("annotations", listDump AnnotationDef.dump d.annotations)]

/-- The dump of a result. -/
def ReturnParameter.dump (d : ReturnParameter) : Dump :=
  .record "ReturnParameter" [("ty", .text d.type), ("name", .option .text d.name)]

/-- The dump of a connector instance. -/
def ConnectorDecl.dump (d : ConnectorDecl) : Dump :=
  .record "ConnectorDcl" [("connector", .text d.connector), ("package", .option .text d.package),
    ("variable", .text d.variableName), ("args", .list (exprDumps d.args))]

/-- The dump of a variable. -/
def VariableDecl.dump (d : VariableDecl) : Dump :=
  .record "VariableDcl" [("name", .text d.name), ("ty", .text d.type)]

/-- The dump of a constant. -/
def ConstantDef.dump (d : ConstantDef) : Dump :=
  .record "Const" [("name", .text d.name), ("ty", .text d.type), ("value", d.value.dump),
    ("position", positionDump d.position)]

/-- The dump of a worker. -/
def WorkerDef.dump (d : WorkerDef) : Dump :=
  .record "Worker" [("name", .text d.name), ("position", positionDump d.position),
    ("connector_dcls", listDump ConnectorDecl.dump d.connectors),
    ("variables", listDump VariableDecl.dump d.locals),
    ("statements", .list (stmtDumps d.statements))]

/-- The dump of a resource. -/
def ResourceDef.dump (d : ResourceDef) : Dump :=
  .record "Resource" [("name", .text d.name), ("position", positionDump d.position),
    ("annotations", listDump AnnotationDef.dump d.annotations),
    ("variables", listDump VariableDecl.dump d.locals),
    ("parameters", listDump Parameter.dump d.parameters),
    ("connector_dcls", listDump ConnectorDecl.dump d.connectors),
    ("workers", listDump WorkerDef.dump d.workers),
    ("body", .option Block.dump d.body)]

/-- The dump of a service. -/
def ServiceDef.dump (d : ServiceDef) : Dump :=
  .record "Service" [("name", .text d.name), ("position", positionDump d.position),
    ("annotations", listDump AnnotationDef.dump d.annotations),
    ("variables", listDump VariableDecl.dump d.locals),
    ("connector_dcls", listDump ConnectorDecl.dump d.connectors),
    ("resources", listDump ResourceDef.dump d.resources)]

/-- The dump of an action. -/
def ActionDef.dump (d : ActionDef) : Dump :=
  .record "Action" [("name", .text d.name), ("position", positionDump d.position),
    ("annotations", listDump AnnotationDef.dump d.annotations),
    ("variables", listDump VariableDecl.dump d.locals),
    ("parameters", listDump Parameter.dump d.parameters),
    ("connector_dcls", listDump ConnectorDecl.dump d.connectors),
    ("return_parameters", listDump ReturnParameter.dump d.results),
    ("body", d.body.dump)]

/-- The dump of a connector. -/
def ConnectorDef.dump (d : ConnectorDef) : Dump :=
  .record "Connector" [("name", .text d.name), ("position", positionDump d.position),
    ("annotations", listDump AnnotationDef.dump d.annotations),
    ("variables", listDump VariableDecl.dump d.locals),
    ("parameters", listDump Parameter.dump d.parameters),
    ("connector_dcls", listDump ConnectorDecl.dump d.connectors),
    ("actions", listDump ActionDef.dump d.actions)]

/-- The dump of a function. -/
def FunctionDef.dump (d : FunctionDef) : Dump :=
  .record "Function" [("name", .text d.name), ("position", positionDump d.position),
    ("is_public", .bool d.isPublic),
    ("annotations", listDump AnnotationDef.dump d.annotations),
    ("variables", listDump VariableDecl.dump d.locals),
    ("parameters", listDump Parameter.dump d.parameters),
    ("connector_dcls", listDump ConnectorDecl.dump d.connectors),
    ("return_parameters", listDump ReturnParameter.dump d.results),
    ("body", d.body.dump)]

/-- The dump of a struct type. -/
def StructDef.dump (d : StructDef) : Dump :=
  .record "StructDecl" [("name", .text d.name), ("fields", listDump VariableDecl.dump d.fields),
    ("position", positionDump d.position)]

/-- The dump of a type converter. -/
def TypeConverter.dump (d : TypeConverter) : Dump :=
  .record "TypeConverter" [("name", .text d.name), ("source", .text d.source),
    ("target", .text d.target), ("position", positionDump d.position)]

/-- The dump of the main invoker. -/
def MainInvoker.dump (d : MainInvoker) : Dump :=
  .record "MainInvoker" [("function", .text d.function)]

/-- The dump of a file. -/
def File.dump (f : File) : Dump :=
  .record "File" [("package_name", .text f.packageName),
    ("imports", listDump ImportDecl.dump f.imports),
    ("constants", listDump ConstantDef.dump f.constants),
    ("services", listDump ServiceDef.dump f.services),
    ("functions", listDump FunctionDef.dump f.functions),
    ("connectors", listDump ConnectorDef.dump f.connectors),
    ("structs", listDump StructDef.dump f.structs),
    ("type_converters", listDump TypeConverter.dump f.typeConverters),
    ("main_invoker", .option MainInvoker.dump f.mainInvoker)]

end TreeDoc.Program
