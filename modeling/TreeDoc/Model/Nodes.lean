/-
  The document of a source file, by recursion on its syntax tree.

  * `exprNode`, `stmtNodes`: the node of an expression and the nodes of a
    statement. Some expressions and statements have none, and a block has those
    of its statements;
  * `elementNodes`: the nodes of any part of a file;
  * `document`: the document of a file.
-/
import TreeDoc.Model.Parts
import TreeDoc.Model.Style
import TreeDoc.Program.Element

namespace TreeDoc.Model

open Document Program

/-! ## Expressions -/

mutual

/-- The node of an expression, if it has one. -/
def exprNode : Expr → Option Node
  | .functionCall name package args => some (functionCallNode name package (exprNodes args))
  | .actionCall name connector package args =>
    some (actionCallNode name connector package (exprNodes args))
  | .literal l => some (literalNode l)
  | .binary op lhs rhs =>
    some (parent (.binary op) ((exprNode lhs).toList ++ (exprNode rhs).toList))
  | .unary _ operand => some (parent .unary (exprNode operand).toList)
  | .variable name => some (variableNode name)
  | .array args => some (parent .arrayInit (exprNodes args))
  | .template content => some (templateNode content)
  | .creation type => some (creationNode type)
  | .access name index => some (accessNode name (exprNode index).toList)
  | .cast _ _ | .map _ | .keyValue _ _ | .structInit _ _ | .fieldAccess _ _ | .resourceCall _ _
  | .location _ => none

/-- The nodes of expressions. -/
def exprNodes : List Expr → List Node
  | [] => []
  | e :: es => (exprNode e).toList ++ exprNodes es

end

/-! ## Statements -/

/-- The text that goes with the node of a reply. -/
def Style.replyText (st : Style) (value : Expr) : Option String :=
  if st.withText then some (st.renderer.expr value) else none

mutual

/-- The nodes of a statement. -/
def stmtNodes (st : Style) : Stmt → List Node
  | .block statements => stmtListNodes st statements
  | .assign lhs rhs => [assignNode (exprNodes lhs) (exprNode rhs).toList]
  | .comment text => [commentNode text]
  | .ifElse condition thenBody elseBody =>
    [ifElseNode (branchNodes (stmtNodes st thenBody) (exprNode condition).toList)
      (optionNodes st elseBody)]
  | .whileLoop condition body =>
    [parent .whileLoop ((exprNode condition).toList ++ (optionNodes st body).getD [])]
  | .functionCall name package args =>
    [parent .functionCallStmt [functionCallNode name package (exprNodes args)]]
  | .actionCall _ _ _ _ => []
  | .reply value => [replyNode (st.replyText value) (exprNode value).toList]
  | .returning values => [parent .returning (exprNodes values)]

/-- The nodes of a statement that may be missing. -/
def optionNodes (st : Style) : Option Stmt → Option (List Node)
  | none => none
  | some s => some (stmtNodes st s)

/-- The nodes of statements. -/
def stmtListNodes (st : Style) : List Stmt → List Node
  | [] => []
  | s :: ss => stmtNodes st s ++ stmtListNodes st ss

end

/-! ## Declarations -/

/-- The nodes of annotations. -/
def annotationNodes (ds : List AnnotationDef) : List Node := ds.map annotationNode

/-- The nodes of parameters. -/
def parameterNodes (ds : List Parameter) : List Node :=
  ds.map fun d => parameterNode d (annotationNodes d.annotations)

/-- The nodes of variables. -/
def variableNodes (ds : List VariableDecl) : List Node := ds.map variableDeclNode

/-- The nodes of connector instances. -/
def connectorDeclNodes (ds : List ConnectorDecl) : List Node :=
  ds.map fun d => connectorDeclNode d (exprNodes d.args)

/-- The nodes of a worker's statements: one line of text each if texts are
    wanted. -/
def workerBody (st : Style) (statements : List Stmt) : List Node :=
  if st.withText then statements.map fun s => statementTextNode (st.renderer.stmt s)
  else stmtListNodes st statements

/-- The node of a worker and all in it. -/
def workerTree (st : Style) (d : WorkerDef) : Node :=
  workerNode d (connectorDeclNodes d.connectors ++ variableNodes d.locals ++
    workerBody st d.statements)

/-- The nodes of a resource's body. -/
def bodyNodes (st : Style) : Option Block → List Node
  | none => []
  | some b => stmtListNodes st b.statements

/-- The node of a resource and all in it. -/
def resourceTree (st : Style) (d : ResourceDef) : Node :=
  resourceNode d (annotationNodes d.annotations) (variableNodes d.locals ++
    parameterNodes d.parameters ++ connectorDeclNodes d.connectors ++ d.workers.map (workerTree st) ++
    bodyNodes st d.body)

/-- The node of a service and all in it. -/
def serviceTree (st : Style) (d : ServiceDef) : Node :=
  serviceNode d (annotationNodes d.annotations) (variableNodes d.locals ++
    connectorDeclNodes d.connectors ++ d.resources.map (resourceTree st))

/-- The node of an action and all in it. -/
def actionTree (st : Style) (d : ActionDef) : Node :=
  actionNode d (annotationNodes d.annotations) (variableNodes d.locals ++
    parameterNodes d.parameters ++ connectorDeclNodes d.connectors ++ returnTypeNode d.results ::
    stmtListNodes st d.body.statements)

/-- The node of a connector and all in it. -/
def connectorTree (st : Style) (d : ConnectorDef) : Node :=
  connectorNode d (annotationNodes d.annotations) (variableNodes d.locals ++
    parameterNodes d.parameters ++ connectorDeclNodes d.connectors ++ d.actions.map (actionTree st))

/-- The node of a function and all in it. -/
def functionTree (st : Style) (d : FunctionDef) : Node :=
  functionNode d (annotationNodes d.annotations) (variableNodes d.locals ++
    parameterNodes d.parameters ++ connectorDeclNodes d.connectors ++ returnTypeNode d.results ::
    stmtListNodes st d.body.statements)

/-! ## Files -/

/-- The node of a declaration that is ordered by its position. -/
def topLevelTree (st : Style) : TopLevel → Node
  | .constant d => constantNode d
  | .service d => serviceTree st d
  | .function d => functionTree st d

/-- The nodes of any part of a file: none or one, unless it is a block. -/
def elementNodes (st : Style) : Element → List Node
  | .importDecl d => [importNode d]
  | .service d => [serviceTree st d]
  | .connector d => [connectorTree st d]
  | .function d => [functionTree st d]
  | .action d => [actionTree st d]
  | .resource d => [resourceTree st d]
  | .worker d => [workerTree st d]
  | .annotationDef d => [annotationNode d]
  | .parameter d => [parameterNode d (annotationNodes d.annotations)]
  | .connectorDecl d => [connectorDeclNode d (exprNodes d.args)]
  | .variableDecl d => [variableDeclNode d]
  | .constant d => [constantNode d]
  | .struct _ | .typeConverter _ | .mainInvoker _ => []
  | .stmt s => stmtNodes st s
  | .expr e => (exprNode e).toList

/-- The document of a file: its package, imports and connectors, then the
    declarations that are ordered by their position. -/
def document (st : Style) (f : File) : Document where
  root := packageNode f :: f.imports.map importNode ++ f.connectors.map (connectorTree st) ++
    f.ordered.map (topLevelTree st)

end TreeDoc.Model
