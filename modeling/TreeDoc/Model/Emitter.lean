/-
  Documents built step by step, on a stack of open sequences.

  * `visit`: builds the node of a part of a file, and appends nothing;
  * `emit`: appends the nodes of a part of a file to the innermost sequence;
  * `emitFile`: builds the document of a file.

  Every child sequence is a `Build.group`, so the stack is balanced around
  each node.
-/
import TreeDoc.Document.Builder
import TreeDoc.Model.Parts
import TreeDoc.Model.Style
import TreeDoc.Program.Element

namespace TreeDoc.Model.Emitter

open Document Program Build

/-! ## Expressions -/

mutual

/-- Builds the node of an expression, if it has one. -/
def produceExpr : Expr → Build (Option Node)
  | .functionCall name package args => do
    return some (functionCallNode name package (← group (emitExprs args)))
  | .actionCall name connector package args => do
    return some (actionCallNode name connector package (← group (emitExprs args)))
  | .literal l => return some (literalNode l)
  | .binary op lhs rhs => do
    let children ← group do
      appendOption (← produceExpr lhs)
      appendOption (← produceExpr rhs)
    return some (parent (.binary op) children)
  | .unary _ operand => do
    return some (parent .unary (← group (produceExpr operand >>= appendOption)))
  | .variable name => return some (variableNode name)
  | .array args => return some (parent .arrayInit (← group (emitExprs args)))
  | .template content => return some (templateNode content)
  | .creation type => return some (creationNode type)
  | .access name index => do
    return some (accessNode name (← group (produceExpr index >>= appendOption)))
  | .cast _ _ | .map _ | .keyValue _ _ | .structInit _ _ | .fieldAccess _ _ | .resourceCall _ _
  | .location _ => return none

/-- Appends the nodes of expressions. -/
def emitExprs : List Expr → Build Unit
  | [] => return ()
  | e :: es => do
    appendOption (← produceExpr e)
    emitExprs es

end

/-- Appends the node of an expression. -/
def emitExpr (e : Expr) : Build Unit := do appendOption (← produceExpr e)

/-! ## Statements -/

mutual

/-- Builds the node of a statement. A block appends the nodes of its statements
    one by one, and has none of its own. -/
def produceStmt (st : Style) : Stmt → Build (Option Node)
  | .block statements => do
    emitStmts st statements
    return none
  | .assign lhs rhs => do
    let children ← group do
      let left ← group (emitExprs lhs)
      append (parent .leftOperand left)
      let right ← group (emitExpr rhs)
      append (parent .rightOperand right)
    return some (parent .assignment children)
  | .comment text => return some (commentNode text)
  | .ifElse condition thenBody elseBody => do
    let branch ← group do
      let body ← group (produceStmt st thenBody >>= appendOption)
      append (parent .thenBody body)
      let condition ← group (emitExpr condition)
      append (parent .ifCondition condition)
    match elseBody with
    | none => return some (ifElseNode branch none)
    | some s => do
      let otherwise ← group (produceStmt st s >>= appendOption)
      return some (ifElseNode branch (some otherwise))
  | .whileLoop condition body => do
    let children ← group do
      emitExpr condition
      match body with
      | none => return ()
      | some s => produceStmt st s >>= appendOption
    return some (parent .whileLoop children)
  | .functionCall name package args => do
    let call := functionCallNode name package (← group (emitExprs args))
    return some (parent .functionCallStmt (← group (append call)))
  | .actionCall _ _ _ _ => return none
  | .reply value => do
    let children ← group (emitExpr value)
    if st.withText then return some (replyNode (some (st.renderer.expr value)) children)
    else return some (replyNode none children)
  | .returning values => return some (parent .returning (← group (emitExprs values)))

/-- Appends the nodes of statements. -/
def emitStmts (st : Style) : List Stmt → Build Unit
  | [] => return ()
  | s :: ss => do
    appendOption (← produceStmt st s)
    emitStmts st ss

end

/-! ## Declarations -/

/-- Appends the node of every declaration in a list. -/
def emitEach {α : Type} (produce : α → Build Node) : List α → Build Unit
  | [] => return ()
  | d :: ds => do
    append (← produce d)
    emitEach produce ds

/-- Collects the nodes of annotations. -/
def annotations (ds : List AnnotationDef) : Build (List Node) :=
  group (emitEach (fun d => return annotationNode d) ds)

/-- Builds the node of a parameter. -/
def parameter (d : Parameter) : Build Node := return parameterNode d (← annotations d.annotations)

/-- Builds the node of a connector instance. -/
def connectorDecl (d : ConnectorDecl) : Build Node :=
  return connectorDeclNode d (← group (emitExprs d.args))

/-- Appends the nodes of variables. -/
def emitVariables (ds : List VariableDecl) : Build Unit :=
  emitEach (fun d => return variableDeclNode d) ds

/-- Appends the node of a worker's statement: one line of text if texts are
    wanted. -/
def emitWorkerStmt (st : Style) (s : Stmt) : Build Unit := do
  if st.withText then append (statementTextNode (st.renderer.stmt s))
  else appendOption (← produceStmt st s)

/-- Builds the node of a worker. -/
def worker (st : Style) (d : WorkerDef) : Build Node := do
  let children ← group do
    emitEach connectorDecl d.connectors
    emitVariables d.locals
    d.statements.forM (emitWorkerStmt st)
  return workerNode d children

/-- Builds the node of a resource. -/
def resource (st : Style) (d : ResourceDef) : Build Node := do
  let notes ← annotations d.annotations
  let children ← group do
    emitVariables d.locals
    emitEach parameter d.parameters
    emitEach connectorDecl d.connectors
    emitEach (worker st) d.workers
    match d.body with
    | none => return ()
    | some b => emitStmts st b.statements
  return resourceNode d notes children

/-- Builds the node of a service. -/
def service (st : Style) (d : ServiceDef) : Build Node := do
  let notes ← annotations d.annotations
  let children ← group do
    emitVariables d.locals
    emitEach connectorDecl d.connectors
    emitEach (resource st) d.resources
  return serviceNode d notes children

/-- Builds the node of an action. -/
def action (st : Style) (d : ActionDef) : Build Node := do
  let notes ← annotations d.annotations
  let children ← group do
    emitVariables d.locals
    emitEach parameter d.parameters
    emitEach connectorDecl d.connectors
    append (returnTypeNode d.results)
    emitStmts st d.body.statements
  return actionNode d notes children

/-- Builds the node of a connector. -/
def connector (st : Style) (d : ConnectorDef) : Build Node := do
  let notes ← annotations d.annotations
  let children ← group do
    emitVariables d.locals
    emitEach parameter d.parameters
    emitEach connectorDecl d.connectors
    emitEach (action st) d.actions
  return connectorNode d notes children

/-- Builds the node of a function. -/
def function (st : Style) (d : FunctionDef) : Build Node := do
  let notes ← annotations d.annotations
  let children ← group do
    emitVariables d.locals
    emitEach parameter d.parameters
    emitEach connectorDecl d.connectors
    append (returnTypeNode d.results)
    emitStmts st d.body.statements
  return functionNode d notes children

/-! ## Any part of a file -/

/-- Builds the node of a part of a file. A block appends the nodes of its
    statements one by one, and has none of its own. -/
def produce (st : Style) : Element → Build (Option Node)
  | .importDecl d => return some (importNode d)
  | .service d => some <$> service st d
  | .connector d => some <$> connector st d
  | .function d => some <$> function st d
  | .action d => some <$> action st d
  | .resource d => some <$> resource st d
  | .worker d => some <$> worker st d
  | .annotationDef d => return some (annotationNode d)
  | .parameter d => some <$> parameter d
  | .connectorDecl d => some <$> connectorDecl d
  | .variableDecl d => return some (variableDeclNode d)
  | .constant d => return some (constantNode d)
  | .struct _ | .typeConverter _ | .mainInvoker _ => return none
  | .stmt s => produceStmt st s
  | .expr e => produceExpr e

/-- Builds the node of a part of a file, and appends nothing. A block has
    none. -/
def visit (st : Style) (e : Element) : Build (Option Node) :=
  match e with
  | .stmt (.block _) => return none
  | e => produce st e

/-- Appends the nodes of a part of a file to the innermost sequence. -/
def emit (st : Style) (e : Element) : Build Unit := do appendOption (← produce st e)

/-- Builds the document of a file in a sequence of its own. -/
def emitFile (st : Style) (f : File) : Build Document := do
  let root ← group do
    append (packageNode f)
    f.imports.forM fun d => emit st (.importDecl d)
    f.connectors.forM fun d => emit st (.connector d)
    f.ordered.forM fun d => emit st d.element
    f.structs.forM fun d => emit st (.struct d)
    f.typeConverters.forM fun d => emit st (.typeConverter d)
    match f.mainInvoker with
    | none => return ()
    | some d => emit st (.mainInvoker d)
  return { root }

end TreeDoc.Model.Emitter
