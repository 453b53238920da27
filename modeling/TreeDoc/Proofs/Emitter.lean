/-
  The emitter and the recursive document are one function.

  Every routine of the emitter either returns a node and leaves the stack of
  open sequences alone (`Produces`), or extends the innermost sequence by the
  nodes of what it was given (`Appends`). The nodes are those of `exprNode`,
  `stmtNodes` and `elementNodes`, which know no stack.

  * `produceExpr_spec`, `stmt_spec`: expressions and statements, by induction on
    the syntax tree;
  * `visit_spec`, `emit_spec`, `emitFile_spec`: any part of a file, and files;
  * `emitter_refines_nodes`: the four statements together, with an emitter that
    has served any number of requests before.
-/
import TreeDoc.Model.Emitter
import TreeDoc.Model.Nodes
import TreeDoc.Proofs.Builder
import Mathlib.Tactic.SplitIfs

namespace TreeDoc

/-- The statement is a block, which has no node of its own. -/
def Program.Stmt.isBlock : Stmt → Bool
  | .block _ => true
  | _ => false

/-- The part of a file is a block. -/
def Program.Element.isBlock : Element → Bool
  | .stmt s => s.isBlock
  | _ => false

namespace Model.Emitter

open Document Program Build

/-! ## Expressions -/

mutual

theorem produceExpr_spec : ∀ e : Expr, Produces (produceExpr e) (exprNode e)
  | .functionCall name package args => by
    rw [produceExpr, exprNode]
    exact (Produces.group (emitExprs_spec args)).bind (.pure _)
  | .actionCall name connector package args => by
    rw [produceExpr, exprNode]
    exact (Produces.group (emitExprs_spec args)).bind (.pure _)
  | .binary op lhs rhs => by
    rw [produceExpr, exprNode]
    refine (Produces.group ?_).bind (.pure _)
    exact (produceExpr_spec lhs).appends
      ((Appends.appendOption _).seq (produceExpr_spec rhs).appendOption)
  | .unary op operand => by
    rw [produceExpr, exprNode]
    exact (Produces.group (produceExpr_spec operand).appendOption).bind (.pure _)
  | .array args => by
    rw [produceExpr, exprNode]
    exact (Produces.group (emitExprs_spec args)).bind (.pure _)
  | .access name index => by
    rw [produceExpr, exprNode]
    exact (Produces.group (produceExpr_spec index).appendOption).bind (.pure _)
  | .literal _ | .variable _ | .template _ | .creation _ | .cast _ _ | .map _ | .keyValue _ _
  | .structInit _ _ | .fieldAccess _ _ | .resourceCall _ _ | .location _ => by
    rw [produceExpr, exprNode]
    exact .pure _

theorem emitExprs_spec : ∀ es : List Expr, Appends (emitExprs es) (exprNodes es)
  | [] => by
    rw [emitExprs, exprNodes]
    exact .nothing
  | e :: es => by
    rw [emitExprs, exprNodes]
    exact (produceExpr_spec e).appends ((Appends.appendOption _).seq (emitExprs_spec es))

end

theorem emitExpr_spec (e : Expr) : Appends (emitExpr e) (exprNode e).toList :=
  (produceExpr_spec e).appendOption

/-! ## Statements -/

/-- What the emitter does with a statement: it appends its nodes and, unless the
    statement is a block, builds its only node without appending anything. -/
structure StmtSpec (st : Style) (s : Stmt) : Prop where
  appends : Appends (produceStmt st s >>= appendOption) (stmtNodes st s)
  produces : s.isBlock = false → ∃ o, Produces (produceStmt st s) o ∧ stmtNodes st s = o.toList

theorem StmtSpec.of_produces {st : Style} {s : Stmt} {o : Option Node}
    (h : Produces (produceStmt st s) o) (hn : stmtNodes st s = o.toList) : StmtSpec st s where
  appends := by rw [hn]; exact h.appendOption
  produces _ := ⟨o, h, hn⟩

mutual

theorem stmt_spec (st : Style) : ∀ s : Stmt, StmtSpec st s
  | .block statements => by
    refine ⟨?_, fun h => by simp [Stmt.isBlock] at h⟩
    rw [produceStmt, stmtNodes, ← List.append_nil (stmtListNodes st statements), bind_assoc]
    exact (emitStmts_spec st statements).seq ((Produces.pure _).appendOption)
  | .assign lhs rhs => by
    refine .of_produces (o := some (assignNode (exprNodes lhs) (exprNode rhs).toList)) ?_ rfl
    rw [produceStmt]
    refine Produces.bind (Produces.group ?_) (.pure _)
    refine (Produces.group (emitExprs_spec lhs)).appends (.cons _ ?_)
    exact (Produces.group (emitExpr_spec rhs)).appends (.append _)
  | .comment text => .of_produces (.pure _) rfl
  | .ifElse condition thenBody elseBody => by
    have hbranch : Produces (group do
        let body ← group (produceStmt st thenBody >>= appendOption)
        append (parent .thenBody body)
        let condition ← group (emitExpr condition)
        append (parent .ifCondition condition))
        (branchNodes (stmtNodes st thenBody) (exprNode condition).toList) := by
      refine Produces.group ?_
      refine (Produces.group (stmt_spec st thenBody).appends).appends (.cons _ ?_)
      exact (Produces.group (emitExpr_spec condition)).appends (.append _)
    cases elseBody with
    | none =>
      refine .of_produces (o := some _) ?_ rfl
      rw [produceStmt]
      exact hbranch.bind (.pure _)
    | some s =>
      refine .of_produces (o := some _) ?_ rfl
      rw [produceStmt]
      exact hbranch.bind ((Produces.group (stmt_spec st s).appends).bind (.pure _))
  | .whileLoop condition body => by
    cases body with
    | none =>
      refine .of_produces (o := some _) ?_ rfl
      rw [produceStmt]
      exact (Produces.group ((emitExpr_spec condition).seq .nothing)).bind (.pure _)
    | some s =>
      refine .of_produces (o := some _) ?_ rfl
      rw [produceStmt]
      exact (Produces.group ((emitExpr_spec condition).seq (stmt_spec st s).appends)).bind (.pure _)
  | .functionCall name package args => by
    refine .of_produces (o := some _) ?_ rfl
    rw [produceStmt]
    exact (Produces.group (emitExprs_spec args)).bind
      ((Produces.group (Appends.append _)).bind (.pure _))
  | .actionCall _ _ _ _ => .of_produces (.pure _) rfl
  | .reply value => by
    refine .of_produces (o := some (replyNode (st.replyText value) (exprNode value).toList)) ?_ rfl
    rw [produceStmt, Style.replyText]
    refine (Produces.group (emitExpr_spec value)).bind ?_
    split
    · exact .pure _
    · exact .pure _
  | .returning values => by
    refine .of_produces (o := some _) ?_ rfl
    rw [produceStmt]
    exact (Produces.group (emitExprs_spec values)).bind (.pure _)

theorem emitStmts_spec (st : Style) :
    ∀ ss : List Stmt, Appends (emitStmts st ss) (stmtListNodes st ss)
  | [] => by
    rw [emitStmts, stmtListNodes]
    exact .nothing
  | s :: ss => by
    rw [emitStmts, stmtListNodes, ← bind_assoc]
    exact (stmt_spec st s).appends.seq (emitStmts_spec st ss)

end

/-! ## Declarations -/

theorem emitEach_spec {α : Type} {produce : α → Build Node} {node : α → Node}
    (h : ∀ d, Produces (produce d) (node d)) :
    ∀ ds : List α, Appends (emitEach produce ds) (ds.map node)
  | [] => .nothing
  | d :: ds => (h d).appends (.cons _ (emitEach_spec h ds))

theorem annotations_spec (ds : List AnnotationDef) :
    Produces (annotations ds) (annotationNodes ds) := .group (emitEach_spec (fun _ => .pure _) ds)

theorem parameter_spec (d : Parameter) :
    Produces (parameter d) (parameterNode d (annotationNodes d.annotations)) :=
  (annotations_spec d.annotations).bind (.pure _)

theorem connectorDecl_spec (d : ConnectorDecl) :
    Produces (connectorDecl d) (connectorDeclNode d (exprNodes d.args)) :=
  (Produces.group (emitExprs_spec d.args)).bind (.pure _)

theorem emitVariables_spec (ds : List VariableDecl) :
    Appends (emitVariables ds) (variableNodes ds) := emitEach_spec (fun _ => .pure _) ds

theorem emitParameters_spec (ds : List Parameter) :
    Appends (emitEach parameter ds) (parameterNodes ds) := emitEach_spec parameter_spec ds

theorem emitConnectors_spec (ds : List ConnectorDecl) :
    Appends (emitEach connectorDecl ds) (connectorDeclNodes ds) :=
  emitEach_spec connectorDecl_spec ds

theorem stmtListNodes_eq_flatMap (st : Style) :
    ∀ ss : List Stmt, stmtListNodes st ss = ss.flatMap (stmtNodes st)
  | [] => by rw [stmtListNodes, List.flatMap_nil]
  | s :: ss => by rw [stmtListNodes, stmtListNodes_eq_flatMap st ss, List.flatMap_cons]

theorem emitWorkerStmts_spec (st : Style) (ss : List Stmt) :
    Appends (ss.forM (emitWorkerStmt st)) (workerBody st ss) := by
  unfold workerBody
  split_ifs with h
  · refine Appends.forM_map fun s => ?_
    rw [emitWorkerStmt, if_pos h]
    exact .append _
  · rw [stmtListNodes_eq_flatMap]
    refine Appends.forM fun s _ => ?_
    rw [emitWorkerStmt, if_neg h]
    exact (stmt_spec st s).appends

theorem worker_spec (st : Style) (d : WorkerDef) : Produces (worker st d) (workerTree st d) := by
  refine Produces.bind (Produces.group ?_) (.pure _)
  rw [List.append_assoc]
  exact (emitConnectors_spec d.connectors).seq
    ((emitVariables_spec d.locals).seq (emitWorkerStmts_spec st d.statements))

theorem emitBody_spec (st : Style) (body : Option Block) :
    Appends (match body with
      | none => return ()
      | some b => emitStmts st b.statements) (bodyNodes st body) := by
  cases body with
  | none => exact .nothing
  | some b => exact emitStmts_spec st b.statements

theorem resource_spec (st : Style) (d : ResourceDef) :
    Produces (resource st d) (resourceTree st d) := by
  refine (annotations_spec d.annotations).bind (Produces.bind (Produces.group ?_) (.pure _))
  simp only [List.append_assoc]
  exact (emitVariables_spec d.locals).seq ((emitParameters_spec d.parameters).seq
    ((emitConnectors_spec d.connectors).seq ((emitEach_spec (worker_spec st) d.workers).seq
      (emitBody_spec st d.body))))

theorem service_spec (st : Style) (d : ServiceDef) :
    Produces (service st d) (serviceTree st d) := by
  refine (annotations_spec d.annotations).bind (Produces.bind (Produces.group ?_) (.pure _))
  rw [List.append_assoc]
  exact (emitVariables_spec d.locals).seq ((emitConnectors_spec d.connectors).seq
    (emitEach_spec (resource_spec st) d.resources))

theorem action_spec (st : Style) (d : ActionDef) : Produces (action st d) (actionTree st d) := by
  refine (annotations_spec d.annotations).bind (Produces.bind (Produces.group ?_) (.pure _))
  simp only [List.append_assoc]
  exact (emitVariables_spec d.locals).seq ((emitParameters_spec d.parameters).seq
    ((emitConnectors_spec d.connectors).seq (.cons _ (emitStmts_spec st d.body.statements))))

theorem connector_spec (st : Style) (d : ConnectorDef) :
    Produces (connector st d) (connectorTree st d) := by
  refine (annotations_spec d.annotations).bind (Produces.bind (Produces.group ?_) (.pure _))
  simp only [List.append_assoc]
  exact (emitVariables_spec d.locals).seq ((emitParameters_spec d.parameters).seq
    ((emitConnectors_spec d.connectors).seq (emitEach_spec (action_spec st) d.actions)))

theorem function_spec (st : Style) (d : FunctionDef) :
    Produces (function st d) (functionTree st d) := by
  refine (annotations_spec d.annotations).bind (Produces.bind (Produces.group ?_) (.pure _))
  simp only [List.append_assoc]
  exact (emitVariables_spec d.locals).seq ((emitParameters_spec d.parameters).seq
    ((emitConnectors_spec d.connectors).seq (.cons _ (emitStmts_spec st d.body.statements))))

/-! ## Any part of a file -/

/-- Everything but a block has at most one node, which is built without
    touching the stack. -/
theorem produce_spec (st : Style) (e : Element) (h : e.isBlock = false) :
    ∃ o, Produces (produce st e) o ∧ elementNodes st e = o.toList := by
  cases e with
  | importDecl d => exact ⟨_, .pure _, rfl⟩
  | service d => exact ⟨_, (service_spec st d).map some, rfl⟩
  | connector d => exact ⟨_, (connector_spec st d).map some, rfl⟩
  | function d => exact ⟨_, (function_spec st d).map some, rfl⟩
  | action d => exact ⟨_, (action_spec st d).map some, rfl⟩
  | resource d => exact ⟨_, (resource_spec st d).map some, rfl⟩
  | worker d => exact ⟨_, (worker_spec st d).map some, rfl⟩
  | annotationDef d => exact ⟨_, .pure _, rfl⟩
  | parameter d => exact ⟨_, (parameter_spec d).map some, rfl⟩
  | connectorDecl d => exact ⟨_, (connectorDecl_spec d).map some, rfl⟩
  | variableDecl d => exact ⟨_, .pure _, rfl⟩
  | constant d => exact ⟨_, .pure _, rfl⟩
  | struct d => exact ⟨_, .pure _, rfl⟩
  | typeConverter d => exact ⟨_, .pure _, rfl⟩
  | mainInvoker d => exact ⟨_, .pure _, rfl⟩
  | stmt s => exact (stmt_spec st s).produces h
  | expr e => exact ⟨_, produceExpr_spec e, rfl⟩

theorem visit_block {st : Style} {e : Element} (h : e.isBlock = true) :
    visit st e = return none := by
  cases e with
  | stmt s =>
    cases s with
    | block statements => rfl
    | _ => simp [Element.isBlock, Stmt.isBlock] at h
  | _ => simp [Element.isBlock] at h

theorem visit_of_not_block {st : Style} {e : Element} (h : e.isBlock = false) :
    visit st e = produce st e := by
  unfold visit
  split
  · simp [Element.isBlock, Stmt.isBlock] at h
  · rfl

/-- **Visiting builds the node and touches no sequence.** -/
theorem visit_spec (st : Style) (e : Element) :
    ∃ o, Produces (visit st e) o ∧ if e.isBlock then o = none else o.toList = elementNodes st e := by
  cases h : e.isBlock with
  | true => exact ⟨none, by rw [visit_block h]; exact .pure _, by simp⟩
  | false =>
    obtain ⟨o, ho, hn⟩ := produce_spec st e h
    exact ⟨o, by rw [visit_of_not_block h]; exact ho, by simp [hn]⟩

/-- **Emitting appends the nodes to the innermost sequence**, and does nothing
    else. -/
theorem emit_spec (st : Style) (e : Element) : Appends (emit st e) (elementNodes st e) := by
  cases h : e.isBlock with
  | false =>
    obtain ⟨o, ho, hn⟩ := produce_spec st e h
    rw [hn]
    exact ho.appendOption
  | true =>
    cases e with
    | stmt s => exact (stmt_spec st s).appends
    | _ => simp [Element.isBlock] at h

/-! ## Files -/

theorem elementNodes_topLevel (st : Style) (d : TopLevel) :
    elementNodes st d.element = [topLevelTree st d] := by
  cases d <;> rfl

theorem emitFile_body_spec (st : Style) (f : File) :
    Appends (do
      append (packageNode f)
      f.imports.forM fun d => emit st (.importDecl d)
      f.connectors.forM fun d => emit st (.connector d)
      f.ordered.forM fun d => emit st d.element
      f.structs.forM fun d => emit st (.struct d)
      f.typeConverters.forM fun d => emit st (.typeConverter d)
      match f.mainInvoker with
      | none => return ()
      | some d => emit st (.mainInvoker d)) (document st f).root := by
  have himports : Appends (f.imports.forM fun d => emit st (.importDecl d))
      (f.imports.map importNode) := .forM_map fun d => emit_spec st _
  have hconnectors : Appends (f.connectors.forM fun d => emit st (.connector d))
      (f.connectors.map (connectorTree st)) := .forM_map fun d => emit_spec st _
  have hordered : Appends (f.ordered.forM fun d => emit st d.element)
      (f.ordered.map (topLevelTree st)) :=
    .forM_map fun d => elementNodes_topLevel st d ▸ emit_spec st _
  -- the other collections are gone through, and have no nodes
  have hstructs : Appends (f.structs.forM fun d => emit st (.struct d)) [] :=
    .forM_nothing fun d => emit_spec st _
  have hconverters : Appends (f.typeConverters.forM fun d => emit st (.typeConverter d)) [] :=
    .forM_nothing fun d => emit_spec st _
  have hinvoker : Appends (match f.mainInvoker with
      | none => return ()
      | some d => emit st (.mainInvoker d)) [] := by
    cases f.mainInvoker with
    | none => exact .nothing
    | some d => exact emit_spec st _
  have hroot := himports.seq (hconnectors.seq (hordered.seq (hstructs.seq
    (hconverters.seq hinvoker))))
  simp only [List.append_nil, ← List.append_assoc] at hroot
  exact .cons _ hroot

/-- **A file's document does not depend on the stack** on which it is built. -/
theorem emitFile_spec (st : Style) (f : File) : Produces (emitFile st f) (document st f) :=
  (Produces.group (emitFile_body_spec st f)).bind (.pure _)

/-! ## Emitters that have been used before -/

/-- What a caller may ask of an emitter. The body of a group is whatever the
    caller does there, and may fail. -/
inductive Step where
  | visit (e : Element)
  | emit (e : Element)
  | group (body : Build Unit)

/-- The open sequences after a step; those that a failing step leaves behind
    stay. -/
def Step.after (st : Style) (b : Builder) : Step → Builder
  | .visit e => ((Emitter.visit st e).run b).2
  | .emit e => ((Emitter.emit st e).run b).2
  | .group body => ((Build.group body).run b).2

/-- The open sequences of a new emitter after some steps. -/
def used (st : Style) (steps : List Step) : Builder := steps.foldl (Step.after st) {}

/-- **The emitter refines the recursive document.** On every stack, visiting
    leaves the stack as it is and builds the node that the part has; emitting
    extends the innermost sequence by all nodes of the part, and with no open
    sequence fails exactly if there are any; and a file's document is the one
    that a new emitter builds, whatever was asked of the emitter before. -/
theorem emitter_refines_nodes (st : Style) :
    (∀ (e : Element) (b : Builder), ∃ o, (visit st e).run b = (.ok o, b) ∧
      if e.isBlock then o = none else o.toList = elementNodes st e) ∧
    (∀ (e : Element) (top : List Node) (rest : List (List Node)),
      (emit st e).run ⟨top :: rest⟩ = (.ok (), ⟨(top ++ elementNodes st e) :: rest⟩)) ∧
    (∀ e : Element, (emit st e).run ⟨[]⟩ =
      (if (elementNodes st e).isEmpty then .ok () else .error .append, ⟨[]⟩)) ∧
    (∀ (steps : List Step) (f : File),
      ((emitFile st f).run (used st steps)).1 = ((emitFile st f).run {}).1 ∧
      (emitFile st f).run {} = (.ok (document st f), {})) := by
  refine ⟨fun e b => ?_, fun e top rest => emit_spec st e _, fun e => emit_spec st e _,
    fun steps f => ?_⟩
  · obtain ⟨o, ho, hn⟩ := visit_spec st e
    exact ⟨o, ho b, hn⟩
  · refine ⟨?_, emitFile_spec st f {}⟩
    rw [emitFile_spec st f, emitFile_spec st f]

end Model.Emitter

end TreeDoc
