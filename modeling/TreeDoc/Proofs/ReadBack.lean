/-
  Reading a structured document back.

  In a document without texts the parts of a declaration stand in one list,
  whatever role they play, and statements follow the condition of their loop.
  What a node stands for, and in which role, can still be told from its kind,
  its attributes and what the nodes of its groups stand for.

  * `Role`, `Part`: the roles, and what plays one;
  * `pick`: what plays a given role in a list of parts;
  * `nodePart`, `parts`: what nodes stand for;
  * `documentOutline`: the outline that a document describes. For a file without
    stubs it is the outline of the file (`documentOutline_document`);
  * `structured_document_eq_iff`: so structured documents are equal just if the
    outlines are.
-/
import TreeDoc.Proofs.Outline
import TreeDoc.Proofs.Sameness

namespace TreeDoc.Model

open Document Program

/-! ## Roles -/

/-- What a node may stand for. -/
inductive Role where
  -- in the root
  | package
  | importDecl
  | connector
  | topLevel
  -- in declarations
  | note
  | attribute
  | variable
  | parameter
  | connectorDecl
  | resource
  | worker
  | action
  | results
  | result
  -- in bodies
  | stmt
  | body
  | expr
  | operands
deriving DecidableEq

/-- What plays a role. -/
@[reducible] def Role.Content : Role → Type
  | .package => String
  | .importDecl => ImportDecl
  | .connector => ConnectorDef
  | .topLevel => TopLevel
  | .note => AnnotationDef
  | .attribute => String × String
  | .variable => VariableDecl
  | .parameter => Parameter
  | .connectorDecl => ConnectorDecl
  | .resource => ResourceDef
  | .worker => WorkerDef
  | .action => ActionDef
  | .results => List ReturnParameter
  | .result => ReturnParameter
  | .stmt => Stmt
  | .body => List Stmt
  | .expr => Expr
  | .operands => List Expr

/-- What a node stands for, and its role. -/
structure Part where
  role : Role
  content : role.Content

/-- The parts that play the role `r`. -/
def inRole (r : Role) (cs : List r.Content) : List Part := cs.map (Part.mk r)

theorem inRole_append {r : Role} (cs ds : List r.Content) :
    inRole r (cs ++ ds) = inRole r cs ++ inRole r ds := List.map_append

/-- What plays the role `r`, in order. -/
def pick (r : Role) : List Part → List r.Content
  | [] => []
  | ⟨r', c⟩ :: ps => if h : r' = r then (h ▸ c) :: pick r ps else pick r ps

section
variable {r r' : Role}

@[simp] theorem pick_nil : pick r [] = [] := rfl

@[simp] theorem pick_cons_same (c : r.Content) (ps : List Part) :
    pick r (⟨r, c⟩ :: ps) = c :: pick r ps := by
  rw [pick, dif_pos rfl]

@[simp] theorem pick_cons_other (h : r' ≠ r) (c : r'.Content) (ps : List Part) :
    pick r (⟨r', c⟩ :: ps) = pick r ps := by
  rw [pick, dif_neg h]

@[simp] theorem pick_append : ∀ ps qs : List Part, pick r (ps ++ qs) = pick r ps ++ pick r qs
  | [], _ => rfl
  | ⟨r', c⟩ :: ps, qs => by
    rw [List.cons_append, pick, pick, pick_append ps qs]
    split
    · rw [List.cons_append]
    · rfl

@[simp] theorem pick_inRole_same : ∀ cs : List r.Content, pick r (inRole r cs) = cs
  | [] => rfl
  | c :: cs => by rw [inRole, List.map_cons, pick_cons_same, ← inRole, pick_inRole_same cs]

@[simp] theorem pick_inRole_other (h : r' ≠ r) :
    ∀ cs : List r'.Content, pick r (inRole r' cs) = []
  | [] => rfl
  | c :: cs => by rw [inRole, List.map_cons, pick_cons_other h, ← inRole, pick_inRole_other h cs]

end

/-! ## Reading nodes -/

/-- A text that may be missing. -/
def textOrNone : Scalar → Option String
  | .text s => some s
  | _ => none

theorem textOrNone_ofOption : ∀ text : Option String, textOrNone (.ofOption text) = text
  | none | some _ => rfl

/-- The worker with a name and children. -/
def workerOf (name : String) (children : List Part) : WorkerDef where
  name
  position := 0
  connectors := pick .connectorDecl children
  locals := pick .variable children
  statements := pick .stmt children

/-- The resource with a name, annotations and children. -/
def resourceOf (name : String) (annotations children : List Part) : ResourceDef where
  name
  position := 0
  annotations := pick .note annotations
  locals := pick .variable children
  parameters := pick .parameter children
  connectors := pick .connectorDecl children
  workers := pick .worker children
  body := some ⟨pick .stmt children⟩

/-- The service with a name, annotations and children. -/
def serviceOf (name : String) (annotations children : List Part) : ServiceDef where
  name
  position := 0
  annotations := pick .note annotations
  locals := pick .variable children
  connectors := pick .connectorDecl children
  resources := pick .resource children

/-- The action with a name, annotations and children. -/
def actionOf (name : String) (annotations children : List Part) : ActionDef where
  name
  position := 0
  annotations := pick .note annotations
  locals := pick .variable children
  parameters := pick .parameter children
  connectors := pick .connectorDecl children
  results := (pick .results children).flatten
  body := ⟨pick .stmt children⟩

/-- The connector with a name, annotations and children. -/
def connectorOf (name : String) (annotations children : List Part) : ConnectorDef where
  name
  position := 0
  annotations := pick .note annotations
  locals := pick .variable children
  parameters := pick .parameter children
  connectors := pick .connectorDecl children
  actions := pick .action children

/-- The function with a name, annotations and children. -/
def functionOf (name : String) (isPublic : Bool) (annotations children : List Part) :
    FunctionDef where
  name
  position := 0
  isPublic
  annotations := pick .note annotations
  locals := pick .variable children
  parameters := pick .parameter children
  connectors := pick .connectorDecl children
  results := (pick .results children).flatten
  body := ⟨pick .stmt children⟩

/-- What a node stands for, from its kind, its attributes and the parts in its
    groups. The kind fixes the places of attributes and groups, so that their keys
    need not be read. -/
def assemble : Kind → List (String × Scalar) → List (List Part) → Option Part
  -- expressions
  | .functionCall, [(_, .text name)], [args] =>
    some ⟨.expr, .functionCall name none (pick .expr args)⟩
  | .actionCall, [(_, .text name), (_, package), (_, .text connector)], [args] =>
    some ⟨.expr, .actionCall name connector (textOrNone package) (pick .expr args)⟩
  | .literal, [(_, .text type), (_, .text value)], _ => some ⟨.expr, .literal ⟨type, .string value⟩⟩
  | .binary op, _, [[⟨.expr, lhs⟩, ⟨.expr, rhs⟩]] => some ⟨.expr, .binary op lhs rhs⟩
  | .unary, _, [[⟨.expr, operand⟩]] => some ⟨.expr, .unary .negate operand⟩
  | .variableRef, [(_, .text name)], _ => some ⟨.expr, .variable name⟩
  | .arrayInit, _, [args] => some ⟨.expr, .array (pick .expr args)⟩
  | .template, [(_, .text content)], _ => some ⟨.expr, .template content⟩
  | .creation, [(_, .text type)], _ => some ⟨.expr, .creation type⟩
  | .access, [(_, .text name)], [[⟨.expr, index⟩]] => some ⟨.expr, .access name index⟩
  | .leftOperand, _, [es] | .rightOperand, _, [es] | .ifCondition, _, [es] =>
    some ⟨.operands, pick .expr es⟩
  -- statements
  | .thenBody, _, [ss] => some ⟨.body, pick .stmt ss⟩
  | .assignment, _, [[⟨.operands, lhs⟩, ⟨.operands, [rhs]⟩]] => some ⟨.stmt, .assign lhs rhs⟩
  | .comment, [(_, .text text)], _ => some ⟨.stmt, .comment text⟩
  | .ifElse, _, [[⟨.body, thenBody⟩, ⟨.operands, [condition]⟩]] =>
    some ⟨.stmt, .ifElse condition (.block thenBody) none⟩
  | .ifElse, _, [[⟨.body, thenBody⟩, ⟨.operands, [condition]⟩], elseBody] =>
    some ⟨.stmt, .ifElse condition (.block thenBody) (some (.block (pick .stmt elseBody)))⟩
  | .whileLoop, _, [⟨.expr, condition⟩ :: body] =>
    some ⟨.stmt, .whileLoop condition (some (.block (pick .stmt body)))⟩
  | .functionCallStmt, _, [[⟨.expr, .functionCall name package args⟩]] =>
    some ⟨.stmt, .functionCall name package args⟩
  | .reply, _, [[⟨.expr, value⟩]] => some ⟨.stmt, .reply value⟩
  | .returning, _, [values] => some ⟨.stmt, .returning (pick .expr values)⟩
  -- declarations
  | .packageDef, [(_, .text name)], _ => some ⟨.package, name⟩
  | .importDef, [(_, .text name), (_, .text path)], _ =>
    some ⟨.importDecl, { name, path, position := 0 }⟩
  | .annotationAttribute, [(_, .text key), (_, .text value)], _ => some ⟨.attribute, (key, value)⟩
  | .annotationDef, [(_, .text name), (_, .text value)], [attributes] =>
    some ⟨.note, { name, value, attributes := pick .attribute attributes }⟩
  | .parameterDef, [(_, .text name), (_, .text type)], [annotations] =>
    some ⟨.parameter, { name, type, annotations := pick .note annotations }⟩
  | .connectorDecl, [(_, .text connector), (_, package), (_, .text variableName)], [args] =>
    some ⟨.connectorDecl,
      { connector, package := textOrNone package, variableName, args := pick .expr args }⟩
  | .variableDecl, [(_, .text name), (_, .text type)], _ => some ⟨.variable, { name, type }⟩
  | .constantDef, [(_, .text type), (_, .text name), (_, .text value)], _ =>
    some ⟨.topLevel, .constant { name, type, value := ⟨"", .string value⟩, position := 0 }⟩
  | .returnArgument, [(_, .text type)], _ => some ⟨.result, { type, name := none }⟩
  | .returnArgument, [(_, .text type), (_, .text name)], _ =>
    some ⟨.result, { type, name := some name }⟩
  | .returnType, _, [results] => some ⟨.results, pick .result results⟩
  | .workerDef, [(_, .text name)], [children] => some ⟨.worker, workerOf name children⟩
  | .resourceDef, [(_, .text name)], [annotations, children] =>
    some ⟨.resource, resourceOf name annotations children⟩
  | .serviceDef, [(_, .text name)], [annotations, children] =>
    some ⟨.topLevel, .service (serviceOf name annotations children)⟩
  | .actionDef, [(_, .text name)], [annotations, children] =>
    some ⟨.action, actionOf name annotations children⟩
  | .connectorDef, [(_, .text name)], [annotations, children] =>
    some ⟨.connector, connectorOf name annotations children⟩
  | .functionDef, [(_, .text name), (_, .bool isPublic)], [annotations, children] =>
    some ⟨.topLevel, .function (functionOf name isPublic annotations children)⟩
  | _, _, _ => none

mutual

/-- What a node stands for. -/
def nodePart : Node → Option Part
  | ⟨kind, attrs, groups⟩ => assemble kind attrs (groupParts groups)

/-- What the nodes of each group stand for. -/
def groupParts : List (String × List Node) → List (List Part)
  | [] => []
  | (_, ns) :: gs => parts ns :: groupParts gs

/-- What nodes stand for. -/
def parts : List Node → List Part
  | [] => []
  | n :: ns => (nodePart n).toList ++ parts ns

end

/-- The outline that a document describes, if its root starts with a package. -/
def documentOutline (d : Document) : Option Outline :=
  match parts d.root with
  | ⟨.package, packageName⟩ :: ps =>
    some
      { packageName
        imports := pick .importDecl ps
        connectors := pick .connector ps
        ordered := pick .topLevel ps }
  | _ => none

@[simp] theorem parts_append : ∀ ns ms : List Node, parts (ns ++ ms) = parts ns ++ parts ms
  | [], _ => rfl
  | n :: ns, ms => by rw [List.cons_append, parts, parts, parts_append ns ms, List.append_assoc]

theorem parts_singleton {n : Node} {p : Part} (h : nodePart n = some p) : parts [n] = [p] := by
  rw [parts, h]
  rfl

/-- Nodes that are made part by part stand for these parts. -/
theorem parts_map {α : Type} {r : Role} {tree : α → Node} {content : α → r.Content} :
    ∀ ds : List α, (∀ d ∈ ds, nodePart (tree d) = some ⟨r, content d⟩) →
      parts (ds.map tree) = inRole r (ds.map content)
  | [], _ => rfl
  | d :: ds, h => by
    obtain ⟨hd, hds⟩ := List.forall_mem_cons.1 h
    rw [List.map_cons, parts, hd, parts_map ds hds]
    rfl

/-! ## Expressions -/

mutual

/-- The expressions for which there is no case below are stubs. -/
theorem parts_exprNode : ∀ e : Expr, e.stubFree = true →
    parts (exprNode e).toList = [⟨.expr, e.outline⟩]
  | .functionCall name package args, h => by
    refine parts_singleton ?_
    show some (Part.mk .expr (.functionCall (qualified package name) none
      (pick .expr (parts (exprNodes args))))) = _
    rw [parts_exprNodes args h, pick_inRole_same, Expr.outline]
  | .actionCall name connector package args, h => by
    refine parts_singleton ?_
    show some (Part.mk .expr (.actionCall name connector (textOrNone (.ofOption package))
      (pick .expr (parts (exprNodes args))))) = _
    rw [parts_exprNodes args h, pick_inRole_same, textOrNone_ofOption, Expr.outline]
  | .literal _, _ | .variable _, _ | .template _, _ | .creation _, _ => rfl
  | .binary op lhs rhs, h => by
    obtain ⟨hlhs, hrhs⟩ := Bool.and_eq_true_iff.1 h
    refine parts_singleton ?_
    show assemble (.binary op) [] [parts ((exprNode lhs).toList ++ (exprNode rhs).toList)] = _
    rw [parts_append, parts_exprNode lhs hlhs, parts_exprNode rhs hrhs]
    rfl
  | .unary op operand, h => by
    refine parts_singleton ?_
    show assemble .unary [] [parts (exprNode operand).toList] = _
    rw [parts_exprNode operand h]
    rfl
  | .array args, h => by
    refine parts_singleton ?_
    show some (Part.mk .expr (.array (pick .expr (parts (exprNodes args))))) = _
    rw [parts_exprNodes args h, pick_inRole_same, Expr.outline]
  | .access name index, h => by
    refine parts_singleton ?_
    show assemble .access [("array-map-access-name", .text name)]
      [parts (exprNode index).toList] = _
    rw [parts_exprNode index h]
    rfl

theorem parts_exprNodes : ∀ es : List Expr, exprsStubFree es = true →
    parts (exprNodes es) = inRole .expr (outlines es)
  | [], _ => rfl
  | e :: es, h => by
    obtain ⟨he, hes⟩ := Bool.and_eq_true_iff.1 h
    rw [exprNodes, parts_append, parts_exprNode e he, parts_exprNodes es hes, outlines]
    rfl

end

theorem pick_exprNodes {es : List Expr} (h : exprsStubFree es = true) :
    pick .expr (parts (exprNodes es)) = outlines es := by
  rw [parts_exprNodes es h, pick_inRole_same]

theorem pick_exprNode {e : Expr} (h : e.stubFree = true) :
    pick .expr (parts (exprNode e).toList) = [e.outline] := by
  rw [parts_exprNode e h, pick_cons_same, pick_nil]

/-! ## Statements -/

mutual

theorem parts_stmtNodes {st : Style} (hst : st.withText = false) :
    ∀ s : Stmt, s.stubFree = true → parts (stmtNodes st s) = inRole .stmt s.outline
  | .block statements, h => parts_stmtListNodes hst statements h
  | .assign lhs rhs, h => by
    obtain ⟨hlhs, hrhs⟩ := Bool.and_eq_true_iff.1 h
    refine parts_singleton ?_
    show assemble .assignment [] [[⟨.operands, pick .expr (parts (exprNodes lhs))⟩,
      ⟨.operands, pick .expr (parts (exprNode rhs).toList)⟩]] = _
    rw [pick_exprNodes hlhs, pick_exprNode hrhs]
    rfl
  | .comment _, _ => rfl
  | .ifElse condition thenBody elseBody, h => by
    obtain ⟨h, helse⟩ := Bool.and_eq_true_iff.1 h
    obtain ⟨hcondition, hthen⟩ := Bool.and_eq_true_iff.1 h
    have hbranch : parts (branchNodes (stmtNodes st thenBody) (exprNode condition).toList) =
        [⟨.body, thenBody.outline⟩, ⟨.operands, [condition.outline]⟩] := by
      show [Part.mk .body (pick .stmt (parts (stmtNodes st thenBody))),
        ⟨.operands, pick .expr (parts (exprNode condition).toList)⟩] = _
      rw [parts_stmtNodes hst thenBody hthen, pick_inRole_same, pick_exprNode hcondition]
    refine parts_singleton ?_
    cases elseBody with
    | none =>
      show assemble .ifElse [] [parts (branchNodes _ _)] = _
      rw [hbranch]
      rfl
    | some s =>
      show assemble .ifElse [] [parts (branchNodes _ _), parts (stmtNodes st s)] = _
      rw [hbranch, parts_stmtNodes hst s helse]
      show some (Part.mk .stmt (.ifElse _ _ (some (.block (pick .stmt _))))) = _
      rw [pick_inRole_same, optionOutline]
      rfl
  | .whileLoop condition body, h => by
    obtain ⟨hcondition, hbody⟩ := Bool.and_eq_true_iff.1 h
    refine parts_singleton ?_
    show assemble .whileLoop []
      [parts ((exprNode condition).toList ++ (optionNodes st body).getD [])] = _
    rw [parts_append, parts_exprNode condition hcondition, parts_optionNodes hst body hbody,
      List.singleton_append]
    show some (Part.mk .stmt (.whileLoop _ (some (.block (pick .stmt _))))) = _
    rw [pick_inRole_same]
  | .functionCall name package args, h => by
    refine parts_singleton ?_
    show some (Part.mk .stmt (.functionCall (qualified package name) none
      (pick .expr (parts (exprNodes args))))) = _
    rw [pick_exprNodes h]
  | .reply value, h => by
    refine parts_singleton ?_
    rw [replyText_structured hst]
    show assemble .reply [] [parts (exprNode value).toList] = _
    rw [parts_exprNode value h]
    rfl
  | .returning values, h => by
    refine parts_singleton ?_
    show some (Part.mk .stmt (.returning (pick .expr (parts (exprNodes values))))) = _
    rw [pick_exprNodes h]

theorem parts_optionNodes {st : Style} (hst : st.withText = false) :
    ∀ body : Option Stmt, optionStubFree body = true →
      parts ((optionNodes st body).getD []) = inRole .stmt ((optionOutline body).getD [])
  | none, _ => rfl
  | some s, h => parts_stmtNodes hst s h

theorem parts_stmtListNodes {st : Style} (hst : st.withText = false) :
    ∀ ss : List Stmt, stmtsStubFree ss = true →
      parts (stmtListNodes st ss) = inRole .stmt (stmtOutlines ss)
  | [], _ => rfl
  | s :: ss, h => by
    obtain ⟨hs, hss⟩ := Bool.and_eq_true_iff.1 h
    rw [stmtListNodes, parts_append, parts_stmtNodes hst s hs, parts_stmtListNodes hst ss hss,
      stmtOutlines, inRole_append]

end

/-! ## Declarations -/

theorem nodePart_annotationNode (d : AnnotationDef) :
    nodePart (annotationNode d) = some ⟨.note, d⟩ := by
  have hattributes : parts (d.attributes.map fun e => attributeNode e.1 e.2) =
      inRole .attribute (d.attributes.map id) := parts_map _ fun _ _ => rfl
  show some (Part.mk .note ⟨d.name, d.value,
    pick .attribute (parts (d.attributes.map fun e => attributeNode e.1 e.2))⟩) = _
  rw [hattributes, pick_inRole_same, List.map_id]

@[simp] theorem parts_annotationNodes (ds : List AnnotationDef) :
    parts (annotationNodes ds) = inRole .note ds := by
  rw [annotationNodes, parts_map ds fun d _ => nodePart_annotationNode d, List.map_id']

@[simp] theorem parts_parameterNodes (ds : List Parameter) :
    parts (parameterNodes ds) = inRole .parameter ds := by
  have h : ∀ d ∈ ds, nodePart (parameterNode d (annotationNodes d.annotations)) =
      some ⟨.parameter, d⟩ := by
    intro d _
    show some (Part.mk .parameter ⟨d.name, d.type,
      pick .note (parts (annotationNodes d.annotations))⟩) = _
    rw [parts_annotationNodes, pick_inRole_same]
  rw [parameterNodes, parts_map ds h, List.map_id']

@[simp] theorem parts_variableNodes (ds : List VariableDecl) :
    parts (variableNodes ds) = inRole .variable ds := by
  have h : ∀ d ∈ ds, nodePart (variableDeclNode d) = some ⟨.variable, d⟩ := fun _ _ => rfl
  rw [variableNodes, parts_map ds h, List.map_id']

theorem parts_connectorDeclNodes {ds : List ConnectorDecl}
    (h : ds.all ConnectorDecl.stubFree = true) :
    parts (connectorDeclNodes ds) =
      inRole .connectorDecl (ds.map ConnectorDecl.outline) := by
  refine parts_map ds fun d hd => ?_
  show some (Part.mk .connectorDecl ⟨d.connector, textOrNone (.ofOption d.package), d.variableName,
    pick .expr (parts (exprNodes d.args))⟩) = _
  rw [textOrNone_ofOption, pick_exprNodes (List.all_eq_true.1 h d hd), ConnectorDecl.outline]

theorem nodePart_returnTypeNode (ps : List ReturnParameter) :
    nodePart (returnTypeNode ps) = some ⟨.results, ps⟩ := by
  have h : ∀ p ∈ ps, nodePart (returnArgumentNode p) = some ⟨.result, p⟩
    | ⟨_, none⟩, _ | ⟨_, some _⟩, _ => rfl
  show some (Part.mk .results (pick .result (parts (ps.map returnArgumentNode)))) = _
  rw [parts_map ps h, pick_inRole_same, List.map_id']

section
variable {st : Style} (hst : st.withText = false)
include hst

theorem nodePart_workerTree {d : WorkerDef} (h : d.stubFree = true) :
    nodePart (workerTree st d) = some ⟨.worker, d.outline⟩ := by
  obtain ⟨hconnectors, hstatements⟩ := Bool.and_eq_true_iff.1 h
  show some (Part.mk .worker (workerOf d.name (parts (connectorDeclNodes d.connectors ++
    variableNodes d.locals ++ workerBody st d.statements)))) = _
  simp [workerBody, hst, parts_connectorDeclNodes hconnectors,
    parts_stmtListNodes hst _ hstatements, workerOf, WorkerDef.outline]

theorem parts_bodyNodes {body : Option Block}
    (h : (body.all fun b => stmtsStubFree b.statements) = true) :
    parts (bodyNodes st body) = inRole .stmt (bodyOutline body) := by
  cases body with
  | none => rfl
  | some b => exact parts_stmtListNodes hst b.statements h

theorem nodePart_resourceTree {d : ResourceDef} (h : d.stubFree = true) :
    nodePart (resourceTree st d) = some ⟨.resource, d.outline⟩ := by
  obtain ⟨h, hbody⟩ := Bool.and_eq_true_iff.1 h
  obtain ⟨hconnectors, hworkers⟩ := Bool.and_eq_true_iff.1 h
  have hworkers : parts (d.workers.map (workerTree st)) =
      inRole .worker (d.workers.map WorkerDef.outline) :=
    parts_map _ fun w hw => nodePart_workerTree hst (List.all_eq_true.1 hworkers w hw)
  show some (Part.mk .resource (resourceOf d.name (parts (annotationNodes d.annotations))
    (parts (variableNodes d.locals ++ parameterNodes d.parameters ++
      connectorDeclNodes d.connectors ++ d.workers.map (workerTree st) ++
      bodyNodes st d.body)))) = _
  simp [parts_connectorDeclNodes hconnectors, hworkers, parts_bodyNodes hst hbody, resourceOf,
    ResourceDef.outline]

theorem nodePart_serviceTree {d : ServiceDef} (h : d.stubFree = true) :
    nodePart (serviceTree st d) = some ⟨.topLevel, .service d.outline⟩ := by
  obtain ⟨hconnectors, hresources⟩ := Bool.and_eq_true_iff.1 h
  have hresources : parts (d.resources.map (resourceTree st)) =
      inRole .resource (d.resources.map ResourceDef.outline) :=
    parts_map _ fun x hx => nodePart_resourceTree hst (List.all_eq_true.1 hresources x hx)
  show some (Part.mk .topLevel (.service (serviceOf d.name
    (parts (annotationNodes d.annotations)) (parts (variableNodes d.locals ++
      connectorDeclNodes d.connectors ++ d.resources.map (resourceTree st)))))) = _
  simp [parts_connectorDeclNodes hconnectors, hresources, serviceOf, ServiceDef.outline]

/-- The children of an action or function, the list of results among them. -/
theorem parts_callable (locals : List VariableDecl) (parameters : List Parameter)
    {connectors : List ConnectorDecl} (hconnectors : connectors.all ConnectorDecl.stubFree = true)
    (results : List ReturnParameter) {statements : List Stmt}
    (hstatements : stmtsStubFree statements = true) :
    parts (variableNodes locals ++ parameterNodes parameters ++ connectorDeclNodes connectors ++
        returnTypeNode results :: stmtListNodes st statements) =
      inRole .variable locals ++ inRole .parameter parameters ++
        inRole .connectorDecl (connectors.map ConnectorDecl.outline) ++
        ⟨.results, results⟩ :: inRole .stmt (stmtOutlines statements) := by
  rw [parts_append, parts_append, parts_append, parts_variableNodes, parts_parameterNodes,
    parts_connectorDeclNodes hconnectors, parts, nodePart_returnTypeNode,
    parts_stmtListNodes hst _ hstatements]
  rfl

theorem nodePart_actionTree {d : ActionDef} (h : d.stubFree = true) :
    nodePart (actionTree st d) = some ⟨.action, d.outline⟩ := by
  obtain ⟨hconnectors, hstatements⟩ := Bool.and_eq_true_iff.1 h
  show some (Part.mk .action (actionOf d.name (parts (annotationNodes d.annotations))
    (parts (variableNodes d.locals ++ parameterNodes d.parameters ++
      connectorDeclNodes d.connectors ++
      returnTypeNode d.results :: stmtListNodes st d.body.statements)))) = _
  rw [parts_callable hst _ _ hconnectors _ hstatements]
  simp [actionOf, ActionDef.outline]

theorem nodePart_connectorTree {d : ConnectorDef} (h : d.stubFree = true) :
    nodePart (connectorTree st d) = some ⟨.connector, d.outline⟩ := by
  obtain ⟨hconnectors, hactions⟩ := Bool.and_eq_true_iff.1 h
  have hactions : parts (d.actions.map (actionTree st)) =
      inRole .action (d.actions.map ActionDef.outline) :=
    parts_map _ fun a ha => nodePart_actionTree hst (List.all_eq_true.1 hactions a ha)
  show some (Part.mk .connector (connectorOf d.name (parts (annotationNodes d.annotations))
    (parts (variableNodes d.locals ++ parameterNodes d.parameters ++
      connectorDeclNodes d.connectors ++ d.actions.map (actionTree st))))) = _
  simp [parts_connectorDeclNodes hconnectors, hactions, connectorOf, ConnectorDef.outline]

theorem nodePart_functionTree {d : FunctionDef} (h : d.stubFree = true) :
    nodePart (functionTree st d) = some ⟨.topLevel, .function d.outline⟩ := by
  obtain ⟨hconnectors, hstatements⟩ := Bool.and_eq_true_iff.1 h
  show some (Part.mk .topLevel (.function (functionOf d.name d.isPublic
    (parts (annotationNodes d.annotations)) (parts (variableNodes d.locals ++
      parameterNodes d.parameters ++ connectorDeclNodes d.connectors ++
      returnTypeNode d.results :: stmtListNodes st d.body.statements))))) = _
  rw [parts_callable hst _ _ hconnectors _ hstatements]
  simp [functionOf, FunctionDef.outline]

/-! ## Files -/

theorem nodePart_topLevelTree : ∀ d : TopLevel, d.stubFree = true →
    nodePart (topLevelTree st d) = some ⟨.topLevel, d.outline⟩
  | .constant _, _ => rfl
  | .service _, h => nodePart_serviceTree hst h
  | .function _, h => nodePart_functionTree hst h

omit hst in
theorem stubFree_of_mem_ordered {f : File} (hservices : f.services.all ServiceDef.stubFree = true)
    (hfunctions : f.functions.all FunctionDef.stubFree = true) :
    ∀ d ∈ f.ordered, d.stubFree = true := by
  intro d hd
  rw [File.ordered, List.mem_mergeSort, File.topLevel, List.mem_append, List.mem_append] at hd
  rcases hd with (hd | hd) | hd <;> obtain ⟨x, hx, rfl⟩ := List.mem_map.1 hd
  · rfl
  · exact List.all_eq_true.1 hservices x hx
  · exact List.all_eq_true.1 hfunctions x hx

/-- **Reading back.** A document without texts of a file without stubs
    determines the outline of the file. -/
theorem documentOutline_document {f : File} (h : f.stubFree = true) :
    documentOutline (document st f) = some f.outline := by
  obtain ⟨h, hfunctions⟩ := Bool.and_eq_true_iff.1 h
  obtain ⟨hconnectors, hservices⟩ := Bool.and_eq_true_iff.1 h
  have himports : parts (f.imports.map importNode) =
      inRole .importDecl (f.imports.map ImportDecl.outline) := parts_map _ fun _ _ => rfl
  have hconnectors : parts (f.connectors.map (connectorTree st)) =
      inRole .connector (f.connectors.map ConnectorDef.outline) :=
    parts_map _ fun d hd => nodePart_connectorTree hst (List.all_eq_true.1 hconnectors d hd)
  have hordered : parts (f.ordered.map (topLevelTree st)) =
      inRole .topLevel (f.ordered.map TopLevel.outline) :=
    parts_map _ fun d hd =>
      nodePart_topLevelTree hst d (stubFree_of_mem_ordered hservices hfunctions d hd)
  have hroot : parts (document st f).root = ⟨.package, f.packageName⟩ ::
      (inRole .importDecl (f.imports.map ImportDecl.outline) ++
        inRole .connector (f.connectors.map ConnectorDef.outline) ++
        inRole .topLevel (f.ordered.map TopLevel.outline)) := by
    rw [document, parts_append, parts_append, parts, himports, hconnectors, hordered]
    rfl
  rw [documentOutline, hroot]
  simp [File.outline]

end

/-- **What structured documents keep.** The structured documents of two files
    without stubs are equal, also up to the order of attributes and groups, just
    if the outlines of the files are. -/
theorem structured_document_eq_iff (r r' : Renderer) {f g : File} (hf : f.stubFree = true)
    (hg : g.stubFree = true) :
    (document (.structured r) f = document (.structured r') g ↔ f.outline = g.outline) ∧
    ((document (.structured r) f).same (document (.structured r') g) = true ↔
      f.outline = g.outline) := by
  have heq : document (.structured r) f = document (.structured r') g ↔ f.outline = g.outline := by
    constructor
    · intro h
      have hread := congrArg documentOutline h
      rw [documentOutline_document rfl hf, documentOutline_document rfl hg] at hread
      exact Option.some.inj hread
    · intro h
      have hf : outlineDocument (.structured r) f.outline = document (.structured r) f :=
        document_outline rfl rfl f
      have hg : outlineDocument (.structured r) g.outline = document (.structured r') g :=
        document_outline rfl rfl g
      rw [← hf, h, hg]
  exact ⟨heq, (same_document_iff _ _ f g).trans heq⟩

/-- A file with one function, whose body is one statement. -/
def statementFile (position : Position) (s : Stmt) : File where
  packageName := "echo"
  imports := []
  constants := []
  services := []
  functions := [{
    name := "main"
    position
    isPublic := false
    annotations := []
    locals := []
    parameters := []
    connectors := []
    results := []
    body := ⟨[s]⟩ }]
  connectors := []
  structs := []
  typeConverters := []
  mainInvoker := none

/-- The operator of a negation, a block around it and the position of the
    function are lost, but an empty else branch is not. -/
theorem statementFile_documents :
    document (.structured .source)
        (statementFile 1 (.block [.reply (.unary .negate (.variable "x"))])) =
      document (.structured .source) (statementFile 2 (.reply (.unary .not (.variable "x")))) ∧
    document (.structured .source) (statementFile 1 (.ifElse (.variable "x") (.block []) none)) ≠
      document (.structured .source)
        (statementFile 1 (.ifElse (.variable "x") (.block []) (some (.block [])))) := by
  constructor
  · refine (structured_document_eq_iff .source .source rfl rfl).1.2 ?_
    simp [File.outline, File.ordered, File.topLevel, statementFile, TopLevel.outline,
      FunctionDef.outline, stmtOutlines, Stmt.outline, Expr.outline]
  · rw [Ne, (structured_document_eq_iff .source .source rfl rfl).1]
    simp [File.outline, File.ordered, File.topLevel, statementFile, TopLevel.outline,
      FunctionDef.outline, stmtOutlines, Stmt.outline, optionOutline]

end TreeDoc.Model
