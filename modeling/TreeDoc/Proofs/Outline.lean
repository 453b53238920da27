/-
  What a structured document keeps of a file.

  Some expressions and statements have no node at all: stubs. Of everything else
  a document without texts keeps all but a few facts. The outline of a file is
  the file without them: forgotten fields have one fixed value, blocks are
  spliced, and of the positions only the order of the declarations is left.

  * `Expr.stubFree`, …, `File.stubFree`: no part is a stub;
  * `Expr.outline`, …, `File.outline`: the outline;
  * `document_outline`: a structured document is that of the outline.
-/
import TreeDoc.Model.Nodes

namespace TreeDoc.Program

/-! ## Stubs -/

mutual

/-- No part of the expression is a stub. -/
def Expr.stubFree : Expr → Bool
  | .functionCall _ _ args | .actionCall _ _ _ args | .array args => exprsStubFree args
  | .literal _ | .variable _ | .template _ | .creation _ => true
  | .binary _ lhs rhs => lhs.stubFree && rhs.stubFree
  | .unary _ operand => operand.stubFree
  | .access _ index => index.stubFree
  | .cast _ _ | .map _ | .keyValue _ _ | .structInit _ _ | .fieldAccess _ _ | .resourceCall _ _
  | .location _ => false

/-- No part of the expressions is a stub. -/
def exprsStubFree : List Expr → Bool
  | [] => true
  | e :: es => e.stubFree && exprsStubFree es

end

mutual

/-- No part of the statement is a stub. -/
def Stmt.stubFree : Stmt → Bool
  | .block statements => stmtsStubFree statements
  | .assign lhs rhs => exprsStubFree lhs && rhs.stubFree
  | .comment _ => true
  | .ifElse condition thenBody elseBody =>
    condition.stubFree && thenBody.stubFree && optionStubFree elseBody
  | .whileLoop condition body => condition.stubFree && optionStubFree body
  | .functionCall _ _ args => exprsStubFree args
  | .actionCall _ _ _ _ => false
  | .reply value => value.stubFree
  | .returning values => exprsStubFree values

/-- No part of a statement that may be missing is a stub. -/
def optionStubFree : Option Stmt → Bool
  | none => true
  | some s => s.stubFree

/-- No part of the statements is a stub. -/
def stmtsStubFree : List Stmt → Bool
  | [] => true
  | s :: ss => s.stubFree && stmtsStubFree ss

end

/-- No part of the connector instance is a stub. -/
def ConnectorDecl.stubFree (d : ConnectorDecl) : Bool := exprsStubFree d.args

/-- No part of the worker is a stub. -/
def WorkerDef.stubFree (d : WorkerDef) : Bool :=
  d.connectors.all ConnectorDecl.stubFree && stmtsStubFree d.statements

/-- No part of the resource is a stub. -/
def ResourceDef.stubFree (d : ResourceDef) : Bool :=
  d.connectors.all ConnectorDecl.stubFree && d.workers.all WorkerDef.stubFree &&
    d.body.all fun b => stmtsStubFree b.statements

/-- No part of the service is a stub. -/
def ServiceDef.stubFree (d : ServiceDef) : Bool :=
  d.connectors.all ConnectorDecl.stubFree && d.resources.all ResourceDef.stubFree

/-- No part of the action is a stub. -/
def ActionDef.stubFree (d : ActionDef) : Bool :=
  d.connectors.all ConnectorDecl.stubFree && stmtsStubFree d.body.statements

/-- No part of the connector is a stub. -/
def ConnectorDef.stubFree (d : ConnectorDef) : Bool :=
  d.connectors.all ConnectorDecl.stubFree && d.actions.all ActionDef.stubFree

/-- No part of the function is a stub. -/
def FunctionDef.stubFree (d : FunctionDef) : Bool :=
  d.connectors.all ConnectorDecl.stubFree && stmtsStubFree d.body.statements

/-- No part of the declaration is a stub. -/
def TopLevel.stubFree : TopLevel → Bool
  | .constant _ => true
  | .service d => d.stubFree
  | .function d => d.stubFree

/-- No part of the connectors, services and functions of the file is a stub. -/
def File.stubFree (f : File) : Bool :=
  f.connectors.all ConnectorDef.stubFree && f.services.all ServiceDef.stubFree &&
    f.functions.all FunctionDef.stubFree

/-! ## Outlines -/

mutual

/-- The expression without the operator of unary expressions, the variants of
    literals, and the place at which the names of calls are divided into package
    and function. -/
def Expr.outline : Expr → Expr
  | .functionCall name package args => .functionCall (qualified package name) none (outlines args)
  | .actionCall name connector package args => .actionCall name connector package (outlines args)
  | .literal l => .literal { type := l.type, value := .string l.value.text }
  | .binary op lhs rhs => .binary op lhs.outline rhs.outline
  | .unary _ operand => .unary .negate operand.outline
  | .array args => .array (outlines args)
  | .access name index => .access name index.outline
  | e => e

/-- The outlines of expressions. -/
def outlines : List Expr → List Expr
  | [] => []
  | e :: es => e.outline :: outlines es

end

mutual

/-- The statement without what the outlines of its expressions leave out, and
    without the nesting of blocks: a list, in which the statements of a block
    stand one by one. A branch or body is the block of such a list, and a loop
    without a body has an empty one. -/
def Stmt.outline : Stmt → List Stmt
  | .block statements => stmtOutlines statements
  | .assign lhs rhs => [.assign (outlines lhs) rhs.outline]
  | .comment text => [.comment text]
  | .ifElse condition thenBody elseBody =>
    [.ifElse condition.outline (.block thenBody.outline) ((optionOutline elseBody).map .block)]
  | .whileLoop condition body =>
    [.whileLoop condition.outline (some (.block ((optionOutline body).getD [])))]
  | .functionCall name package args =>
    [.functionCall (qualified package name) none (outlines args)]
  | .actionCall name connector package args => [.actionCall name connector package (outlines args)]
  | .reply value => [.reply value.outline]
  | .returning values => [.returning (outlines values)]

/-- The outline of a statement that may be missing. -/
def optionOutline : Option Stmt → Option (List Stmt)
  | none => none
  | some s => some s.outline

/-- The outlines of statements, one after the other. -/
def stmtOutlines : List Stmt → List Stmt
  | [] => []
  | s :: ss => s.outline ++ stmtOutlines ss

end

/-- The import without its position. -/
def ImportDecl.outline (d : ImportDecl) : ImportDecl := { d with position := 0 }

/-- The connector instance with the outlines of its arguments. -/
def ConnectorDecl.outline (d : ConnectorDecl) : ConnectorDecl := { d with args := outlines d.args }

/-- The constant without its position, and the text of its value alone. -/
def ConstantDef.outline (d : ConstantDef) : ConstantDef :=
  { d with value := { type := "", value := .string d.value.value.text }, position := 0 }

/-- The worker without its position and the nesting of its blocks. -/
def WorkerDef.outline (d : WorkerDef) : WorkerDef :=
  { d with
    position := 0
    connectors := d.connectors.map ConnectorDecl.outline
    statements := stmtOutlines d.statements }

/-- The outline of the body of a resource; a missing body is an empty one. -/
def bodyOutline (body : Option Block) : List Stmt :=
  (body.map fun b => stmtOutlines b.statements).getD []

/-- The resource without its position and the nesting of its blocks. -/
def ResourceDef.outline (d : ResourceDef) : ResourceDef :=
  { d with
    position := 0
    connectors := d.connectors.map ConnectorDecl.outline
    workers := d.workers.map WorkerDef.outline
    body := some ⟨bodyOutline d.body⟩ }

/-- The service without its position, and with the outlines of its parts. -/
def ServiceDef.outline (d : ServiceDef) : ServiceDef :=
  { d with
    position := 0
    connectors := d.connectors.map ConnectorDecl.outline
    resources := d.resources.map ResourceDef.outline }

/-- The action without its position and the nesting of its blocks. -/
def ActionDef.outline (d : ActionDef) : ActionDef :=
  { d with
    position := 0
    connectors := d.connectors.map ConnectorDecl.outline
    body := ⟨stmtOutlines d.body.statements⟩ }

/-- The connector without its position, and with the outlines of its parts. -/
def ConnectorDef.outline (d : ConnectorDef) : ConnectorDef :=
  { d with
    position := 0
    connectors := d.connectors.map ConnectorDecl.outline
    actions := d.actions.map ActionDef.outline }

/-- The function without its position and the nesting of its blocks. -/
def FunctionDef.outline (d : FunctionDef) : FunctionDef :=
  { d with
    position := 0
    connectors := d.connectors.map ConnectorDecl.outline
    body := ⟨stmtOutlines d.body.statements⟩ }

/-- The outline of a declaration that is ordered by its position. -/
def TopLevel.outline : TopLevel → TopLevel
  | .constant d => .constant d.outline
  | .service d => .service d.outline
  | .function d => .function d.outline

/-- A file without its structs, type converters and main invoker, whose
    constants, services and functions are one list in the order of their
    positions. -/
structure Outline where
  packageName : String
  imports : List ImportDecl
  connectors : List ConnectorDef
  ordered : List TopLevel

/-- The outline of a file. -/
def File.outline (f : File) : Outline where
  packageName := f.packageName
  imports := f.imports.map ImportDecl.outline
  connectors := f.connectors.map ConnectorDef.outline
  ordered := f.ordered.map TopLevel.outline

end TreeDoc.Program

namespace TreeDoc.Model

open Document Program

/-! ## The nodes of an outline -/

mutual

theorem exprNode_outline : ∀ e : Expr, exprNode e.outline = exprNode e
  | .functionCall name package args => by
    rw [Expr.outline, exprNode, exprNode, exprNodes_outline args]; rfl
  | .actionCall name connector package args => by
    rw [Expr.outline, exprNode, exprNode, exprNodes_outline args]
  | .literal l => by rw [Expr.outline, exprNode, exprNode]; rfl
  | .binary op lhs rhs => by
    rw [Expr.outline, exprNode, exprNode, exprNode_outline lhs, exprNode_outline rhs]
  | .unary op operand => by rw [Expr.outline, exprNode, exprNode, exprNode_outline operand]
  | .array args => by rw [Expr.outline, exprNode, exprNode, exprNodes_outline args]
  | .access name index => by rw [Expr.outline, exprNode, exprNode, exprNode_outline index]
  | .variable _ | .template _ | .creation _ | .cast _ _ | .map _ | .keyValue _ _
  | .structInit _ _ | .fieldAccess _ _ | .resourceCall _ _ | .location _ => rfl

theorem exprNodes_outline : ∀ es : List Expr, exprNodes (outlines es) = exprNodes es
  | [] => by rw [outlines]
  | e :: es => by
    rw [outlines, exprNodes, exprNodes, exprNode_outline e, exprNodes_outline es]

end

theorem stmtListNodes_append (st : Style) : ∀ ss ts : List Stmt,
    stmtListNodes st (ss ++ ts) = stmtListNodes st ss ++ stmtListNodes st ts
  | [], ts => by rw [List.nil_append, stmtListNodes, List.nil_append]
  | s :: ss, ts => by
    rw [List.cons_append, stmtListNodes, stmtListNodes, stmtListNodes_append st ss ts,
      List.append_assoc]

theorem stmtListNodes_singleton (st : Style) (s : Stmt) :
    stmtListNodes st [s] = stmtNodes st s := by
  rw [stmtListNodes, stmtListNodes, List.append_nil]

/-! ## The document of an outline

  Without texts nothing of a style is used, so the two sides below may differ
  in it. -/

theorem replyText_structured {st : Style} (hst : st.withText = false) (value : Expr) :
    st.replyText value = none := by
  rw [Style.replyText, hst]
  rfl

mutual

theorem stmtNodes_outline {st st' : Style} (hst : st.withText = false)
    (hst' : st'.withText = false) : ∀ s : Stmt, stmtListNodes st s.outline = stmtNodes st' s
  | .block statements => by rw [Stmt.outline, stmtNodes, stmtListNodes_outline hst hst' statements]
  | .assign lhs rhs => by
    rw [Stmt.outline, stmtListNodes_singleton, stmtNodes, stmtNodes, exprNodes_outline,
      exprNode_outline]
  | .comment text => by rw [Stmt.outline, stmtListNodes_singleton, stmtNodes, stmtNodes]
  | .ifElse condition thenBody elseBody => by
    have helse : optionNodes st ((optionOutline elseBody).map .block) =
        optionNodes st' elseBody := by
      cases elseBody with
      | none => rfl
      | some s =>
        rw [optionOutline, Option.map_some, optionNodes, optionNodes, stmtNodes,
          stmtNodes_outline hst hst' s]
    rw [Stmt.outline, stmtListNodes_singleton, stmtNodes, stmtNodes, stmtNodes,
      exprNode_outline, stmtNodes_outline hst hst' thenBody, helse]
  | .whileLoop condition body => by
    have hbody : stmtListNodes st ((optionOutline body).getD []) =
        (optionNodes st' body).getD [] := by
      cases body with
      | none => rfl
      | some s =>
        rw [optionOutline, optionNodes, Option.getD_some, Option.getD_some,
          stmtNodes_outline hst hst' s]
    rw [Stmt.outline, stmtListNodes_singleton, stmtNodes, stmtNodes, optionNodes, stmtNodes,
      Option.getD_some, exprNode_outline, hbody]
  | .functionCall name package args => by
    rw [Stmt.outline, stmtListNodes_singleton, stmtNodes, stmtNodes, exprNodes_outline]; rfl
  | .actionCall name connector package args => by
    rw [Stmt.outline, stmtListNodes_singleton, stmtNodes, stmtNodes]
  | .reply value => by
    rw [Stmt.outline, stmtListNodes_singleton, stmtNodes, stmtNodes, exprNode_outline,
      replyText_structured hst, replyText_structured hst']
  | .returning values => by
    rw [Stmt.outline, stmtListNodes_singleton, stmtNodes, stmtNodes, exprNodes_outline]

theorem stmtListNodes_outline {st st' : Style} (hst : st.withText = false)
    (hst' : st'.withText = false) :
    ∀ ss : List Stmt, stmtListNodes st (stmtOutlines ss) = stmtListNodes st' ss
  | [] => by rw [stmtOutlines, stmtListNodes, stmtListNodes]
  | s :: ss => by
    rw [stmtOutlines, stmtListNodes_append, stmtListNodes, stmtNodes_outline hst hst' s,
      stmtListNodes_outline hst hst' ss]

end

/-- Nodes made part by part are those of the outlines, if each of them is. -/
theorem map_outline {α : Type} {outline : α → α} {tree tree' : α → Node}
    (h : ∀ d, tree (outline d) = tree' d) (ds : List α) :
    (ds.map outline).map tree = ds.map tree' := by
  rw [List.map_map]
  exact List.map_congr_left fun d _ => h d

theorem connectorDeclNodes_outline (ds : List ConnectorDecl) :
    connectorDeclNodes (ds.map ConnectorDecl.outline) = connectorDeclNodes ds := by
  refine map_outline (fun d => ?_) ds
  show connectorDeclNode d (exprNodes (outlines d.args)) = connectorDeclNode d (exprNodes d.args)
  rw [exprNodes_outline]

section
variable {st st' : Style} (hst : st.withText = false) (hst' : st'.withText = false)
include hst hst'

theorem workerTree_outline (d : WorkerDef) : workerTree st d.outline = workerTree st' d := by
  simp only [workerTree, workerBody, hst, hst', WorkerDef.outline, connectorDeclNodes_outline,
    stmtListNodes_outline hst hst']
  rfl

theorem bodyNodes_outline (body : Option Block) :
    bodyNodes st (some ⟨bodyOutline body⟩) = bodyNodes st' body := by
  cases body with
  | none => rfl
  | some b => exact stmtListNodes_outline hst hst' b.statements

theorem resourceTree_outline (d : ResourceDef) :
    resourceTree st d.outline = resourceTree st' d := by
  have hworkers := map_outline (workerTree_outline hst hst') d.workers
  simp only [resourceTree, ResourceDef.outline, connectorDeclNodes_outline, hworkers,
    bodyNodes_outline hst hst']
  rfl

theorem serviceTree_outline (d : ServiceDef) : serviceTree st d.outline = serviceTree st' d := by
  have hresources := map_outline (resourceTree_outline hst hst') d.resources
  simp only [serviceTree, ServiceDef.outline, connectorDeclNodes_outline, hresources]
  rfl

theorem actionTree_outline (d : ActionDef) : actionTree st d.outline = actionTree st' d := by
  simp only [actionTree, ActionDef.outline, connectorDeclNodes_outline,
    stmtListNodes_outline hst hst']
  rfl

theorem connectorTree_outline (d : ConnectorDef) :
    connectorTree st d.outline = connectorTree st' d := by
  have hactions := map_outline (actionTree_outline hst hst') d.actions
  simp only [connectorTree, ConnectorDef.outline, connectorDeclNodes_outline, hactions]
  rfl

theorem functionTree_outline (d : FunctionDef) :
    functionTree st d.outline = functionTree st' d := by
  simp only [functionTree, FunctionDef.outline, connectorDeclNodes_outline,
    stmtListNodes_outline hst hst']
  rfl

theorem topLevelTree_outline : ∀ d : TopLevel, topLevelTree st d.outline = topLevelTree st' d
  | .constant _ => rfl
  | .service d => serviceTree_outline hst hst' d
  | .function d => functionTree_outline hst hst' d

end

/-- The document of an outline. -/
def outlineDocument (st : Style) (o : Outline) : Document where
  root := (Node.ofKind .packageDef).setText "package-name" o.packageName ::
    o.imports.map importNode ++ o.connectors.map (connectorTree st) ++
    o.ordered.map (topLevelTree st)

/-- A document without texts is that of the outline, in any such style. -/
theorem document_outline {st st' : Style} (hst : st.withText = false)
    (hst' : st'.withText = false) (f : File) :
    outlineDocument st f.outline = document st' f := by
  have himports : (f.imports.map ImportDecl.outline).map importNode = f.imports.map importNode :=
    map_outline (fun _ => rfl) f.imports
  have hconnectors := map_outline (connectorTree_outline hst hst') f.connectors
  have hordered := map_outline (topLevelTree_outline hst hst') f.ordered
  rw [outlineDocument, document, File.outline, himports, hconnectors, hordered]
  rfl

end TreeDoc.Model
