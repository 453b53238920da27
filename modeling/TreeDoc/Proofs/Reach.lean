/-
  The parts of a file, and how far a document follows them.

  An element has parts, which are elements again. A document goes from an element
  to its parts, unless the element is a stub: then it has no node, and neither
  has anything in it. If texts are wanted, the statements of a worker are written
  out and not gone through.

  * `Element.parts`, `File.parts`: the parts of an element and of a file;
  * `Element.isStub`: the elements that have no node, whatever is in them;
  * `entered`: the parts that a document goes on to;
  * `reached`, `reachedFrom`: every element that is met on the way, as often as
    it is met;
  * `entered_induction`: a property of elements that passes from the parts which
    are entered to the whole holds of all elements;
  * `elementNodes_eq_layer`: the nodes of an element are made from the nodes of its
    parts (`nodesOf`) by `layer`, and `document_root_eq` says so for a file.
-/
import TreeDoc.Proofs.Emitter

namespace TreeDoc.Program

/-! ## Parts -/

/-- The expressions that an expression is made of. -/
def Expr.parts : Expr → List Expr
  | .functionCall _ _ args | .actionCall _ _ _ args | .array args | .map args
  | .structInit _ args | .resourceCall _ args => args
  | .binary _ lhs rhs => [lhs, rhs]
  | .keyValue key value => [key, value]
  | .unary _ operand | .cast _ operand => [operand]
  | .access _ index => [index]
  | .literal _ | .variable _ | .template _ | .creation _ | .fieldAccess _ _ | .location _ => []

/-- The statements and expressions that a statement is made of. -/
def Stmt.parts : Stmt → List Element
  | .block statements => statements.map .stmt
  | .assign lhs rhs => lhs.map .expr ++ [.expr rhs]
  | .comment _ => []
  | .ifElse condition thenBody elseBody =>
    .stmt thenBody :: .expr condition :: elseBody.toList.map .stmt
  | .whileLoop condition body => .expr condition :: body.toList.map .stmt
  | .functionCall _ _ args | .actionCall _ _ _ args => args.map .expr
  | .reply value => [.expr value]
  | .returning values => values.map .expr

/-- The statements of a body that may be missing. -/
def bodyStatements (body : Option Block) : List Stmt := body.toList.flatMap Block.statements

/-- The elements that an element is made of. -/
def Element.parts : Element → List Element
  | .service d =>
    d.annotations.map .annotationDef ++ d.locals.map .variableDecl ++
      d.connectors.map .connectorDecl ++ d.resources.map .resource
  | .connector d =>
    d.annotations.map .annotationDef ++ d.locals.map .variableDecl ++
      d.parameters.map .parameter ++ d.connectors.map .connectorDecl ++ d.actions.map .action
  | .function d =>
    d.annotations.map .annotationDef ++ d.locals.map .variableDecl ++
      d.parameters.map .parameter ++ d.connectors.map .connectorDecl ++
      d.body.statements.map .stmt
  | .action d =>
    d.annotations.map .annotationDef ++ d.locals.map .variableDecl ++
      d.parameters.map .parameter ++ d.connectors.map .connectorDecl ++
      d.body.statements.map .stmt
  | .resource d =>
    d.annotations.map .annotationDef ++ d.locals.map .variableDecl ++
      d.parameters.map .parameter ++ d.connectors.map .connectorDecl ++
      d.workers.map .worker ++ (bodyStatements d.body).map .stmt
  | .worker d =>
    d.connectors.map .connectorDecl ++ d.locals.map .variableDecl ++ d.statements.map .stmt
  | .parameter d => d.annotations.map .annotationDef
  | .connectorDecl d => d.args.map .expr
  | .struct d => d.fields.map .variableDecl
  | .importDecl _ | .annotationDef _ | .variableDecl _ | .constant _ | .typeConverter _
  | .mainInvoker _ => []
  | .stmt s => s.parts
  | .expr e => e.parts.map .expr

theorem Expr.sizeOf_lt_of_mem_parts {e p : Expr} (h : p ∈ e.parts) : sizeOf p < sizeOf e := by
  cases e <;> simp only [Expr.parts, List.mem_cons, List.not_mem_nil, or_false] at h <;>
    grind [→ List.sizeOf_lt_of_mem]

theorem Stmt.sizeOf_lt_of_mem_parts {s : Stmt} {p : Element} (h : p ∈ s.parts) :
    sizeOf p < 1 + sizeOf s := by
  cases s <;> simp [Stmt.parts] at h <;> grind [→ List.sizeOf_lt_of_mem]

theorem Element.sizeOf_lt_of_mem_parts {e p : Element} (h : p ∈ e.parts) : sizeOf p < sizeOf e := by
  cases e with
  | importDecl d | annotationDef d | variableDecl d | constant d | typeConverter d
  | mainInvoker d => simp [parts] at h
  | service d | connector d | worker d | parameter d | connectorDecl d | struct d =>
    cases d
    simp [parts] at h ⊢
    grind [→ List.sizeOf_lt_of_mem]
  | function d =>
    obtain ⟨name, position, isPublic, annotations, locals, parameters, connectors, results,
      ⟨statements⟩⟩ := d
    simp [parts] at h ⊢
    grind [→ List.sizeOf_lt_of_mem]
  | action d =>
    obtain ⟨name, position, annotations, locals, parameters, connectors, results,
      ⟨statements⟩⟩ := d
    simp [parts] at h ⊢
    grind [→ List.sizeOf_lt_of_mem]
  | resource d =>
    obtain ⟨name, position, annotations, locals, parameters, connectors, workers, body⟩ := d
    rcases body with _ | ⟨⟨statements⟩⟩ <;> simp [parts, bodyStatements] at h ⊢ <;>
      grind [→ List.sizeOf_lt_of_mem]
  | stmt s => simpa using Stmt.sizeOf_lt_of_mem_parts h
  | expr e =>
    obtain ⟨x, hx, rfl⟩ := List.mem_map.1 h
    simpa using Expr.sizeOf_lt_of_mem_parts hx

/-- The elements that a file is made of, in the order of a document. -/
def File.parts (f : File) : List Element :=
  f.imports.map .importDecl ++ f.connectors.map .connector ++ f.ordered.map TopLevel.element ++
    f.structs.map .struct ++ f.typeConverters.map .typeConverter ++
    f.mainInvoker.toList.map .mainInvoker

/-! ## Stubs -/

/-- The expression has no node. -/
def Expr.isStub : Expr → Bool
  | .cast _ _ | .map _ | .keyValue _ _ | .structInit _ _ | .fieldAccess _ _ | .resourceCall _ _
  | .location _ => true
  | _ => false

/-- The element and all in it have no node. -/
def Element.isStub : Element → Bool
  | .struct _ | .typeConverter _ | .mainInvoker _ | .stmt (.actionCall _ _ _ _) => true
  | .expr e => e.isStub
  | _ => false

end TreeDoc.Program

namespace TreeDoc.Model

open Document Program

/-! ## Reached elements -/

/-- The parts of an element that a document goes on to: none of a stub, and all
    of anything else, but not the statements of a worker if texts are wanted. -/
def entered (st : Style) : Element → List Element
  | .worker d =>
    d.connectors.map .connectorDecl ++ d.locals.map .variableDecl ++
      if st.withText then [] else d.statements.map .stmt
  | e => if e.isStub then [] else e.parts

theorem mem_parts_of_mem_entered {st : Style} {e p : Element} (h : p ∈ entered st e) :
    p ∈ e.parts := by
  unfold entered at h
  split at h
  · rw [Element.parts]
    refine List.append_subset.2 ⟨List.subset_append_left _ _, ?_⟩ h
    split
    · exact List.nil_subset _
    · exact List.subset_append_right _ _
  · split at h
    · cases h
    · exact h

/-- The element, and all that a document reaches from it, as often as it is
    reached. -/
def reached (st : Style) (e : Element) : List Element :=
  e :: (entered st e).attach.flatMap fun p => reached st p.1
termination_by sizeOf e
decreasing_by exact Element.sizeOf_lt_of_mem_parts (mem_parts_of_mem_entered p.2)

/-- All that a document reaches in a file. -/
def reachedFrom (st : Style) (f : File) : List Element := f.parts.flatMap (reached st)

theorem reached_eq (st : Style) (e : Element) :
    reached st e = e :: (entered st e).flatMap (reached st) := by
  rw [reached, List.flatMap_subtype (fun _ _ => rfl), List.unattach_attach]

/-- What holds of an element if it holds of the parts that are entered, holds of
    all elements. -/
theorem entered_induction (st : Style) {motive : Element → Prop}
    (step : ∀ e, (∀ p ∈ entered st e, motive p) → motive e) (e : Element) : motive e :=
  step e fun p _ => entered_induction st step p
termination_by sizeOf e
decreasing_by exact Element.sizeOf_lt_of_mem_parts (mem_parts_of_mem_entered ‹_›)

/-! ## The nodes of parts -/

/-- The nodes of elements, one after the other. -/
def nodesOf (st : Style) (es : List Element) : List Node := es.flatMap (elementNodes st)

@[simp] theorem nodesOf_nil (st : Style) : nodesOf st [] = [] := rfl

@[simp] theorem nodesOf_cons (st : Style) (e : Element) (es : List Element) :
    nodesOf st (e :: es) = elementNodes st e ++ nodesOf st es := List.flatMap_cons

@[simp] theorem nodesOf_append (st : Style) (es fs : List Element) :
    nodesOf st (es ++ fs) = nodesOf st es ++ nodesOf st fs := List.flatMap_append

theorem map_eq_nodesOf {α : Type} {st : Style} {wrap : α → Element} {node : α → Node}
    (h : ∀ a, elementNodes st (wrap a) = [node a]) (as : List α) :
    as.map node = nodesOf st (as.map wrap) := by
  rw [nodesOf, List.flatMap_map, List.map_eq_flatMap]
  simp only [h]

theorem exprNodes_eq_nodesOf (st : Style) (es : List Expr) :
    exprNodes es = nodesOf st (es.map .expr) := by
  induction es with
  | nil => rw [exprNodes, List.map_nil, nodesOf_nil]
  | cons e es ih => rw [exprNodes, ih, List.map_cons, nodesOf_cons, elementNodes]

theorem stmtListNodes_eq_nodesOf (st : Style) (ss : List Stmt) :
    stmtListNodes st ss = nodesOf st (ss.map .stmt) := by
  rw [Emitter.stmtListNodes_eq_flatMap, nodesOf, List.flatMap_map]
  rfl

theorem optionNodes_eq_nodesOf (st : Style) : ∀ body : Option Stmt,
    optionNodes st body = body.map fun s => nodesOf st [.stmt s]
  | none => by rw [optionNodes]; rfl
  | some s => by rw [optionNodes]; simp [elementNodes]

/-- The nodes of a statement, from the nodes of its parts. -/
def stmtLayer (st : Style) : Stmt → List Node
  | .block statements => nodesOf st (statements.map .stmt)
  | .assign lhs rhs => [assignNode (nodesOf st (lhs.map .expr)) (nodesOf st [.expr rhs])]
  | .comment text => [commentNode text]
  | .ifElse condition thenBody elseBody =>
    [ifElseNode (branchNodes (nodesOf st [.stmt thenBody]) (nodesOf st [.expr condition]))
      (elseBody.map fun s => nodesOf st [.stmt s])]
  | .whileLoop condition body =>
    [parent .whileLoop (nodesOf st (.expr condition :: body.toList.map .stmt))]
  | .functionCall name package args =>
    [parent .functionCallStmt [functionCallNode name package (nodesOf st (args.map .expr))]]
  | .actionCall _ _ _ _ => []
  | .reply value => [replyNode (st.replyText value) (nodesOf st [.expr value])]
  | .returning values => [parent .returning (nodesOf st (values.map .expr))]

theorem stmtNodes_eq_layer (st : Style) (s : Stmt) : stmtNodes st s = stmtLayer st s := by
  cases s with
  | block statements => rw [stmtNodes, stmtLayer, stmtListNodes_eq_nodesOf]
  | assign lhs rhs =>
    rw [stmtNodes, stmtLayer, exprNodes_eq_nodesOf st]
    simp [elementNodes]
  | ifElse condition thenBody elseBody =>
    rw [stmtNodes, stmtLayer, optionNodes_eq_nodesOf]
    simp [elementNodes]
  | whileLoop condition body =>
    rw [stmtNodes, stmtLayer, optionNodes_eq_nodesOf]
    cases body <;> simp [elementNodes]
  | functionCall name package args => rw [stmtNodes, stmtLayer, exprNodes_eq_nodesOf st]
  | returning values => rw [stmtNodes, stmtLayer, exprNodes_eq_nodesOf st]
  | reply value =>
    rw [stmtNodes, stmtLayer]
    simp [elementNodes]
  | comment text | actionCall name connector package args => rw [stmtNodes, stmtLayer]

/-- The node of an expression, from the nodes of its parts. -/
def exprLayer (st : Style) : Expr → List Node
  | .functionCall name package args =>
    [functionCallNode name package (nodesOf st (args.map .expr))]
  | .actionCall name connector package args =>
    [actionCallNode name connector package (nodesOf st (args.map .expr))]
  | .literal l => [literalNode l]
  | .binary op lhs rhs => [parent (.binary op) (nodesOf st [.expr lhs, .expr rhs])]
  | .unary _ operand => [parent .unary (nodesOf st [.expr operand])]
  | .variable name => [variableNode name]
  | .array args => [parent .arrayInit (nodesOf st (args.map .expr))]
  | .template content => [templateNode content]
  | .creation type => [creationNode type]
  | .access name index => [accessNode name (nodesOf st [.expr index])]
  | .cast _ _ | .map _ | .keyValue _ _ | .structInit _ _ | .fieldAccess _ _ | .resourceCall _ _
  | .location _ => []

theorem exprNode_eq_layer (st : Style) (e : Expr) : (exprNode e).toList = exprLayer st e := by
  cases e <;> rw [exprNode, exprLayer] <;>
    simp [elementNodes, exprNodes_eq_nodesOf st]

/-- The nodes of an element, from the nodes of its parts. -/
def layer (st : Style) : Element → List Node
  | .importDecl d => [importNode d]
  | .service d =>
    [serviceNode d (nodesOf st (d.annotations.map .annotationDef))
      (nodesOf st (d.locals.map .variableDecl ++ d.connectors.map .connectorDecl ++
        d.resources.map .resource))]
  | .connector d =>
    [connectorNode d (nodesOf st (d.annotations.map .annotationDef))
      (nodesOf st (d.locals.map .variableDecl ++ d.parameters.map .parameter ++
        d.connectors.map .connectorDecl ++ d.actions.map .action))]
  | .function d =>
    [functionNode d (nodesOf st (d.annotations.map .annotationDef))
      (nodesOf st (d.locals.map .variableDecl ++ d.parameters.map .parameter ++
        d.connectors.map .connectorDecl) ++
        returnTypeNode d.results :: nodesOf st (d.body.statements.map .stmt))]
  | .action d =>
    [actionNode d (nodesOf st (d.annotations.map .annotationDef))
      (nodesOf st (d.locals.map .variableDecl ++ d.parameters.map .parameter ++
        d.connectors.map .connectorDecl) ++
        returnTypeNode d.results :: nodesOf st (d.body.statements.map .stmt))]
  | .resource d =>
    [resourceNode d (nodesOf st (d.annotations.map .annotationDef))
      (nodesOf st (d.locals.map .variableDecl ++ d.parameters.map .parameter ++
        d.connectors.map .connectorDecl ++ d.workers.map .worker ++
        (bodyStatements d.body).map .stmt))]
  | .worker d =>
    [workerNode d (nodesOf st (d.connectors.map .connectorDecl ++ d.locals.map .variableDecl) ++
      workerBody st d.statements)]
  | .annotationDef d => [annotationNode d]
  | .parameter d => [parameterNode d (nodesOf st (d.annotations.map .annotationDef))]
  | .connectorDecl d => [connectorDeclNode d (nodesOf st (d.args.map .expr))]
  | .variableDecl d => [variableDeclNode d]
  | .constant d => [constantNode d]
  | .struct _ | .typeConverter _ | .mainInvoker _ => []
  | .stmt s => stmtLayer st s
  | .expr e => exprLayer st e

theorem annotationNodes_eq_nodesOf (st : Style) (ds : List AnnotationDef) :
    annotationNodes ds = nodesOf st (ds.map .annotationDef) := map_eq_nodesOf (fun _ => rfl) ds

theorem parameterNodes_eq_nodesOf (st : Style) (ds : List Parameter) :
    parameterNodes ds = nodesOf st (ds.map .parameter) := map_eq_nodesOf (fun _ => rfl) ds

theorem variableNodes_eq_nodesOf (st : Style) (ds : List VariableDecl) :
    variableNodes ds = nodesOf st (ds.map .variableDecl) := map_eq_nodesOf (fun _ => rfl) ds

theorem connectorDeclNodes_eq_nodesOf (st : Style) (ds : List ConnectorDecl) :
    connectorDeclNodes ds = nodesOf st (ds.map .connectorDecl) := map_eq_nodesOf (fun _ => rfl) ds

theorem bodyNodes_eq_nodesOf (st : Style) (body : Option Block) :
    bodyNodes st body = nodesOf st ((bodyStatements body).map .stmt) := by
  cases body with
  | none => rfl
  | some b => rw [bodyNodes, stmtListNodes_eq_nodesOf]; simp [bodyStatements]

/-- **The nodes of an element are made from those of its parts.** -/
theorem elementNodes_eq_layer (st : Style) (e : Element) : elementNodes st e = layer st e := by
  cases e with
  | service d =>
    have hresources : d.resources.map (resourceTree st) = nodesOf st (d.resources.map .resource) :=
      map_eq_nodesOf (fun _ => rfl) _
    simp only [elementNodes, layer, serviceTree, annotationNodes_eq_nodesOf st,
      variableNodes_eq_nodesOf st, connectorDeclNodes_eq_nodesOf st, hresources, nodesOf_append]
  | connector d =>
    have hactions : d.actions.map (actionTree st) = nodesOf st (d.actions.map .action) :=
      map_eq_nodesOf (fun _ => rfl) _
    simp only [elementNodes, layer, connectorTree, annotationNodes_eq_nodesOf st,
      variableNodes_eq_nodesOf st, parameterNodes_eq_nodesOf st, connectorDeclNodes_eq_nodesOf st,
      hactions, nodesOf_append]
  | function d =>
    simp only [elementNodes, layer, functionTree, annotationNodes_eq_nodesOf st,
      variableNodes_eq_nodesOf st, parameterNodes_eq_nodesOf st, connectorDeclNodes_eq_nodesOf st,
      stmtListNodes_eq_nodesOf, nodesOf_append]
  | action d =>
    simp only [elementNodes, layer, actionTree, annotationNodes_eq_nodesOf st,
      variableNodes_eq_nodesOf st, parameterNodes_eq_nodesOf st, connectorDeclNodes_eq_nodesOf st,
      stmtListNodes_eq_nodesOf, nodesOf_append]
  | resource d =>
    have hworkers : d.workers.map (workerTree st) = nodesOf st (d.workers.map .worker) :=
      map_eq_nodesOf (fun _ => rfl) _
    simp only [elementNodes, layer, resourceTree, annotationNodes_eq_nodesOf st,
      variableNodes_eq_nodesOf st, parameterNodes_eq_nodesOf st, connectorDeclNodes_eq_nodesOf st,
      hworkers, bodyNodes_eq_nodesOf, nodesOf_append]
  | worker d =>
    simp only [elementNodes, layer, workerTree, variableNodes_eq_nodesOf st,
      connectorDeclNodes_eq_nodesOf st, nodesOf_append]
  | parameter d => rw [elementNodes, layer, annotationNodes_eq_nodesOf st]
  | connectorDecl d => rw [elementNodes, layer, exprNodes_eq_nodesOf st]
  | stmt s => exact stmtNodes_eq_layer st s
  | expr e => exact exprNode_eq_layer st e
  | importDecl d | annotationDef d | variableDecl d | constant d | struct d | typeConverter d
  | mainInvoker d => rfl

theorem document_root_eq (st : Style) (f : File) :
    (document st f).root = packageNode f :: nodesOf st f.parts := by
  have himports : f.imports.map importNode = nodesOf st (f.imports.map .importDecl) :=
    map_eq_nodesOf (fun _ => rfl) _
  have hconnectors : f.connectors.map (connectorTree st) =
      nodesOf st (f.connectors.map .connector) := map_eq_nodesOf (fun _ => rfl) _
  have hordered : f.ordered.map (topLevelTree st) =
      nodesOf st (f.ordered.map TopLevel.element) :=
    map_eq_nodesOf (Emitter.elementNodes_topLevel st) _
  have hstructs : nodesOf st (f.structs.map .struct) = [] := by
    simp [nodesOf, elementNodes]
  have hconverters : nodesOf st (f.typeConverters.map .typeConverter) = [] := by
    simp [nodesOf, elementNodes]
  have hinvoker : nodesOf st (f.mainInvoker.toList.map .mainInvoker) = [] := by
    simp [nodesOf, elementNodes]
  simp only [document, File.parts, nodesOf_append, himports, hconnectors, hordered, hstructs,
    hconverters, hinvoker, List.append_nil, List.cons_append]

/-! ## The groups of nodes -/

section
variable (k : Kind) (key text : String) (ns ms : List Node) (n : Node)

@[simp] theorem ofKind_groups : (Node.ofKind k).groups = [] := rfl

@[simp] theorem set_groups (value : Scalar) : (n.set key value).groups = n.groups := rfl

@[simp] theorem setText_groups : (n.setText key text).groups = n.groups := rfl

@[simp] theorem parent_groups : (parent k ns).groups = [("children", ns)] := rfl

@[simp] theorem annotated_groups :
    (annotated k ns ms).groups = [("annotations", ns), ("children", ms)] := rfl

@[simp] theorem ifElseNode_groups (otherwise : Option (List Node)) :
    (ifElseNode ns otherwise).groups =
      ("if-branch", ns) :: otherwise.toList.map fun ms => ("else-branch", ms) := by
  cases otherwise <;> rfl

@[simp] theorem returnArgumentNode_groups (p : ReturnParameter) :
    (returnArgumentNode p).groups = [] := by
  unfold returnArgumentNode
  split <;> rfl

/-- The attributes of a reply with this text. -/
def replyAttrs (text : Option String) : List (String × Scalar) :=
  text.toList.map fun s => ("expression", .text s)

theorem replyNode_eq (text : Option String) :
    replyNode text ns = ⟨.reply, replyAttrs text, [("children", ns)]⟩ := by
  cases text <;> rfl

@[simp] theorem replyNode_groups (text : Option String) :
    (replyNode text ns).groups = [("children", ns)] := by
  rw [replyNode_eq]

end

end TreeDoc.Model
