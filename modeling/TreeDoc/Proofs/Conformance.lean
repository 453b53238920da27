/-
  Documents conform to the grammar of documents.

  Expressions, statements and declarations are gone through by induction: the
  nodes of each have the kinds that may stand in their place, and all nodes in
  them conform.

  * `exprNode_fits`, `stmtNodes_fits`: expressions and statements;
  * `serviceTree_regular`, …: declarations;
  * `document_conforms`: files, with what conforming means for the JSON of a
    node.
-/
import TreeDoc.Model.Nodes
import TreeDoc.Proofs.Grammar
import Mathlib.Tactic.SplitIfs

namespace TreeDoc.Model

open Computability Document Program

/-! ## Expressions -/

theorem fits_expr {n : Node} (hk : n.kind.isExpr = true) (hn : n.Regular) :
    Fits (1 + oneExpr) (some n).toList := (Fits.oneWith hk hn).mono le_add_self

mutual

theorem exprNode_fits : ∀ e : Expr, Fits (1 + oneExpr) (exprNode e).toList
  | .functionCall name package args => by
    rw [exprNode]
    exact fits_expr rfl (.parent rfl rfl (exprNodes_fits args))
  | .actionCall name connector package args => by
    rw [exprNode]
    exact fits_expr rfl (.parent rfl rfl (exprNodes_fits args))
  | .binary op lhs rhs => by
    rw [exprNode]
    exact fits_expr rfl (.parent rfl rfl ((exprNode_fits lhs).append (exprNode_fits rhs)))
  | .unary op operand => by
    rw [exprNode]
    exact fits_expr rfl (.parent rfl rfl (exprNode_fits operand))
  | .array args => by
    rw [exprNode]
    exact fits_expr rfl (.parent rfl rfl (exprNodes_fits args))
  | .access name index => by
    rw [exprNode]
    exact fits_expr rfl (.parent rfl rfl (exprNode_fits index))
  | .creation type => by
    rw [exprNode]
    exact fits_expr rfl (.parent rfl rfl .nil)
  | .literal _ | .variable _ | .template _ => by
    rw [exprNode]
    exact fits_expr rfl (.leaf rfl rfl)
  | .cast _ _ | .map _ | .keyValue _ _ | .structInit _ _ | .fieldAccess _ _ | .resourceCall _ _
  | .location _ => by
    rw [exprNode]
    exact Fits.nil.mono le_self_add

theorem exprNodes_fits : ∀ es : List Expr, Fits oneExpr∗ (exprNodes es)
  | [] => by
    rw [exprNodes]
    exact Fits.nil.mono one_le_kstar
  | e :: es => by
    have h : (1 + oneExpr) * oneExpr∗ ≤ oneExpr∗ := by
      rw [add_mul, one_mul]
      exact add_le le_rfl mul_kstar_le_kstar
    rw [exprNodes]
    exact ((exprNode_fits e).append (exprNodes_fits es)).mono h

end

/-! ## Statements -/

theorem fits_stmt {n : Node} (hk : n.kind.isStmt = true) (hn : n.Regular) : Fits oneStmt∗ [n] :=
  (Fits.oneWith hk hn).mono le_kstar

theorem assignNode_regular {lhs rhs : List Node} (hl : Fits oneExpr∗ lhs)
    (hr : Fits (1 + oneExpr) rhs) : (assignNode lhs rhs).Regular :=
  .parent rfl rfl (.cons rfl (.parent rfl rfl hl) (.one rfl (.parent rfl rfl hr)))

theorem ifElseNode_regular {body condition : List Node} {otherwise : Option (List Node)}
    (hb : Fits oneStmt∗ body) (hc : Fits (1 + oneExpr) condition)
    (ho : ∀ ns ∈ otherwise, Fits oneStmt∗ ns) :
    (ifElseNode (branchNodes body condition) otherwise).Regular := by
  have hbranch : Fits (one .thenBody * one .ifCondition) (branchNodes body condition) :=
    .cons rfl (.parent rfl rfl hb) (.one rfl (.parent rfl rfl hc))
  cases otherwise with
  | none =>
    refine .intro ⟨Or.inl rfl, Or.inl (.cons ⟨rfl, hbranch.kinds_mem⟩ .nil)⟩ ?_
    show ∀ g ∈ [("if-branch", branchNodes body condition)], ∀ m ∈ g.2, m.Regular
    simpa using hbranch.regular
  | some ns =>
    have hns := ho ns rfl
    refine .intro ⟨Or.inl rfl, Or.inr ?_⟩ ?_
    · exact .cons ⟨rfl, hbranch.kinds_mem⟩ (.cons ⟨rfl, hns.kinds_mem⟩ .nil)
    · show ∀ g ∈ [("if-branch", branchNodes body condition), ("else-branch", ns)], ∀ m ∈ g.2,
        m.Regular
      simpa using ⟨hbranch.regular, hns.regular⟩

theorem replyNode_regular {text : Option String} {value : List Node}
    (hv : Fits (1 + oneExpr) value) : (replyNode text value).Regular := by
  have hgroups : List.Forall₂ GroupConforms [("children", value)] [("children", 1 + oneExpr)] :=
    .cons ⟨rfl, hv.kinds_mem⟩ .nil
  have hinner : ∀ g ∈ [("children", value)], ∀ m ∈ g.2, m.Regular := by simpa using hv.regular
  cases text with
  | none => exact .intro ⟨Or.inl rfl, Or.inl hgroups⟩ hinner
  | some s => exact .intro ⟨Or.inr rfl, Or.inl hgroups⟩ hinner

theorem functionCallNode_regular (name : String) (package : Option String) (args : List Expr) :
    (functionCallNode name package (exprNodes args)).Regular :=
  .parent rfl rfl (exprNodes_fits args)

mutual

theorem stmtNodes_fits (st : Style) : ∀ s : Stmt, Fits oneStmt∗ (stmtNodes st s)
  | .block statements => by
    rw [stmtNodes]
    exact stmtListNodes_fits st statements
  | .assign lhs rhs => by
    rw [stmtNodes]
    exact fits_stmt rfl (assignNode_regular (exprNodes_fits lhs) (exprNode_fits rhs))
  | .comment text => by
    rw [stmtNodes]
    exact fits_stmt rfl (.leaf rfl rfl)
  | .ifElse condition thenBody elseBody => by
    rw [stmtNodes]
    refine fits_stmt ?_ (ifElseNode_regular (stmtNodes_fits st thenBody) (exprNode_fits condition)
      (optionNodes_fits st elseBody))
    cases optionNodes st elseBody <;> rfl
  | .whileLoop condition body => by
    have hb : Fits oneStmt∗ ((optionNodes st body).getD []) := by
      cases h : optionNodes st body with
      | none => exact Fits.nil.mono one_le_kstar
      | some ns => exact optionNodes_fits st body ns h
    rw [stmtNodes]
    exact fits_stmt rfl (.parent rfl rfl ((exprNode_fits condition).append hb))
  | .functionCall name package args => by
    rw [stmtNodes]
    exact fits_stmt rfl (.parent rfl rfl (.one rfl (functionCallNode_regular name package args)))
  | .actionCall _ _ _ _ => by
    rw [stmtNodes]
    exact Fits.nil.mono one_le_kstar
  | .reply value => by
    rw [stmtNodes]
    refine fits_stmt ?_ (replyNode_regular (exprNode_fits value))
    cases st.replyText value <;> rfl
  | .returning values => by
    rw [stmtNodes]
    exact fits_stmt rfl (.parent rfl rfl (exprNodes_fits values))

theorem optionNodes_fits (st : Style) :
    ∀ body : Option Stmt, ∀ ns ∈ optionNodes st body, Fits oneStmt∗ ns
  | none, ns, hns => by simp [optionNodes] at hns
  | some s, ns, hns => by
    obtain rfl : stmtNodes st s = ns := by simpa [optionNodes] using hns
    exact stmtNodes_fits st s

theorem stmtListNodes_fits (st : Style) : ∀ ss : List Stmt, Fits oneStmt∗ (stmtListNodes st ss)
  | [] => by
    rw [stmtListNodes]
    exact Fits.nil.mono one_le_kstar
  | s :: ss => by
    rw [stmtListNodes]
    exact ((stmtNodes_fits st s).append (stmtListNodes_fits st ss)).mono (kstar_mul_kstar _).le

end

/-! ## Declarations -/

theorem annotationNode_regular (d : AnnotationDef) : (annotationNode d).Regular :=
  .parent rfl rfl (.map (fun _ => rfl) fun _ => .leaf rfl rfl)

theorem annotationNodes_fits (ds : List AnnotationDef) :
    Fits (one .annotationDef)∗ (annotationNodes ds) :=
  .map (fun _ => rfl) annotationNode_regular

theorem parameterNodes_fits (ds : List Parameter) : Fits (one .parameterDef)∗ (parameterNodes ds) :=
  .map (fun _ => rfl) fun d => .parent rfl rfl (annotationNodes_fits d.annotations)

theorem variableNodes_fits (ds : List VariableDecl) :
    Fits (one .variableDecl)∗ (variableNodes ds) := .map (fun _ => rfl) fun _ => .leaf rfl rfl

theorem connectorDeclNodes_fits (ds : List ConnectorDecl) :
    Fits (one .connectorDecl)∗ (connectorDeclNodes ds) :=
  .map (fun _ => rfl) fun d => .parent rfl rfl (exprNodes_fits d.args)

theorem returnArgumentNode_kind (p : ReturnParameter) :
    (returnArgumentNode p).kind = .returnArgument := by
  unfold returnArgumentNode
  split <;> rfl

theorem returnArgumentNode_regular (p : ReturnParameter) : (returnArgumentNode p).Regular := by
  rcases p with ⟨type, _ | name⟩
  · exact .leaf rfl rfl
  · exact .intro ⟨Or.inr rfl, Or.inl .nil⟩ (by simp [returnArgumentNode, Node.setText, Node.set,
      Node.ofKind])

theorem returnTypeNode_regular (results : List ReturnParameter) : (returnTypeNode results).Regular :=
  .parent rfl rfl (.map returnArgumentNode_kind returnArgumentNode_regular)

theorem workerBody_fits (st : Style) (ss : List Stmt) :
    Fits ((one .statementText)∗ + oneStmt∗) (workerBody st ss) := by
  unfold workerBody
  split_ifs
  · have htexts : Fits (one .statementText)∗
        (ss.map fun s => statementTextNode (st.renderer.stmt s)) :=
      .map (fun _ => rfl) fun _ => .leaf rfl rfl
    exact htexts.mono le_self_add
  · exact (stmtListNodes_fits st ss).mono le_add_self

theorem workerTree_regular (st : Style) (d : WorkerDef) : (workerTree st d).Regular :=
  .parent rfl rfl
    (((connectorDeclNodes_fits d.connectors).append (variableNodes_fits d.locals)).append
      (workerBody_fits st d.statements))

theorem bodyNodes_fits (st : Style) : ∀ body : Option Block, Fits oneStmt∗ (bodyNodes st body)
  | none => Fits.nil.mono one_le_kstar
  | some b => stmtListNodes_fits st b.statements

/-- What the children of most declarations start with. -/
theorem preamble_fits (locals : List VariableDecl) (parameters : List Parameter)
    (connectors : List ConnectorDecl) :
    Fits ((one .variableDecl)∗ * (one .parameterDef)∗ * (one .connectorDecl)∗)
      (variableNodes locals ++ parameterNodes parameters ++ connectorDeclNodes connectors) :=
  ((variableNodes_fits locals).append (parameterNodes_fits parameters)).append
    (connectorDeclNodes_fits connectors)

theorem resourceTree_regular (st : Style) (d : ResourceDef) : (resourceTree st d).Regular := by
  have hworkers : Fits (one .workerDef)∗ (d.workers.map (workerTree st)) :=
    .map (fun _ => rfl) (workerTree_regular st)
  exact .annotated rfl rfl (annotationNodes_fits d.annotations)
    (((preamble_fits d.locals d.parameters d.connectors).append hworkers).append
      (bodyNodes_fits st d.body))

theorem serviceTree_regular (st : Style) (d : ServiceDef) : (serviceTree st d).Regular := by
  have hresources : Fits (one .resourceDef)∗ (d.resources.map (resourceTree st)) :=
    .map (fun _ => rfl) (resourceTree_regular st)
  exact .annotated rfl rfl (annotationNodes_fits d.annotations)
    (((variableNodes_fits d.locals).append (connectorDeclNodes_fits d.connectors)).append hresources)

/-- The results and the body, with which the children of an action or function
    end. -/
theorem callable_fits (st : Style) (results : List ReturnParameter) (ss : List Stmt) :
    Fits (one .returnType * oneStmt∗) (returnTypeNode results :: stmtListNodes st ss) :=
  .cons rfl (returnTypeNode_regular results) (stmtListNodes_fits st ss)

theorem actionTree_regular (st : Style) (d : ActionDef) : (actionTree st d).Regular :=
  .annotated rfl rfl (annotationNodes_fits d.annotations)
    ((preamble_fits d.locals d.parameters d.connectors).append
      (callable_fits st d.results d.body.statements))

theorem functionTree_regular (st : Style) (d : FunctionDef) : (functionTree st d).Regular :=
  .annotated rfl rfl (annotationNodes_fits d.annotations)
    ((preamble_fits d.locals d.parameters d.connectors).append
      (callable_fits st d.results d.body.statements))

theorem connectorTree_regular (st : Style) (d : ConnectorDef) : (connectorTree st d).Regular := by
  have hactions : Fits (one .actionDef)∗ (d.actions.map (actionTree st)) :=
    .map (fun _ => rfl) (actionTree_regular st)
  exact .annotated rfl rfl (annotationNodes_fits d.annotations)
    ((preamble_fits d.locals d.parameters d.connectors).append hactions)

/-! ## Files -/

theorem topLevelTree_fits (st : Style) : ∀ d : TopLevel,
    Fits (one .constantDef + one .serviceDef + one .functionDef) [topLevelTree st d]
  | .constant _ => (Fits.one rfl (.leaf rfl rfl)).mono (le_self_add.trans le_self_add)
  | .service d => (Fits.one rfl (serviceTree_regular st d)).mono (le_add_self.trans le_self_add)
  | .function d => (Fits.one rfl (functionTree_regular st d)).mono le_add_self

theorem topLevelTrees_fits (st : Style) : ∀ ds : List TopLevel,
    Fits (one .constantDef + one .serviceDef + one .functionDef)∗ (ds.map (topLevelTree st))
  | [] => Fits.nil.mono one_le_kstar
  | d :: ds => ((topLevelTree_fits st d).append (topLevelTrees_fits st ds)).mono mul_kstar_le_kstar

theorem root_fits (st : Style) (f : File) : Fits rootForm (document st f).root := by
  have himports : Fits (one .importDef)∗ (f.imports.map importNode) :=
    .map (fun _ => rfl) fun _ => .leaf rfl rfl
  have hconnectors : Fits (one .connectorDef)∗ (f.connectors.map (connectorTree st)) :=
    .map (fun _ => rfl) (connectorTree_regular st)
  have hpackage : Fits (one .packageDef * (one .importDef)∗)
      (packageNode f :: f.imports.map importNode) := .cons rfl (.leaf rfl rfl) himports
  exact (hpackage.append hconnectors).append (topLevelTrees_fits st f.ordered)

/-- **Every document conforms to the grammar.** The kinds in its root form a word
    of `rootForm`. Every node in it, at any depth, starts with its tag when it is
    written as JSON, uses no key of a tag but its own and no key twice; and it
    has the attributes and groups of its kind, with the kinds of nodes that may
    stand in them. -/
theorem document_conforms (st : Style) (f : File) :
    kinds (document st f).root ∈ rootForm ∧
    ∀ n : Node, (document st f).Contains n →
      n.value = .object n.entries ∧
      n.entries.head? = some (n.kind.family.key, .string n.kind.tag) ∧
      (n.entries.map Prod.fst).filter (· ∈ tagKeys) = [n.kind.family.key] ∧
      (n.entries.map Prod.fst).Nodup ∧
      n.Conforms := by
  have hroot := root_fits st f
  refine ⟨hroot.kinds_mem, ?_⟩
  rintro n ⟨m, hm, hn⟩
  have hconf : n.Conforms := hroot.regular m hm n hn
  obtain ⟨hhead, hnodup, htag⟩ := hconf.entries
  exact ⟨n.value_eq, hhead, htag, hnodup, hconf⟩

/-- A file with one function, which replies with a literal if a variable is
    true. -/
def replyingFile : File where
  packageName := "echo"
  imports := []
  constants := []
  services := []
  functions := [{
    name := "main"
    position := 0
    isPublic := true
    annotations := []
    locals := []
    parameters := []
    connectors := []
    results := []
    body := ⟨[.ifElse (.variable "ok") (.block [.reply (Expr.int 1)]) none]⟩ }]
  connectors := []
  structs := []
  typeConverters := []
  mainInvoker := none

theorem replyingFile_conforms :
    (document {} replyingFile).Contains (literalNode ⟨"int", .int 1⟩) ∧
    (literalNode ⟨"int", .int 1⟩).Conforms := by
  have hin : (document {} replyingFile).Contains (literalNode ⟨"int", .int 1⟩) := by
    refine ⟨functionTree {} (replyingFile.functions.head (by decide)), ?_, ?_⟩
    · simp [document, File.ordered, File.topLevel, replyingFile, topLevelTree]
    · -- function, conditional, its first branch, reply
      refine .inside (List.mem_cons_of_mem _ List.mem_cons_self)
        (List.mem_cons_of_mem _ List.mem_cons_self) ?_
      refine .inside List.mem_cons_self List.mem_cons_self ?_
      refine .inside List.mem_cons_self List.mem_cons_self ?_
      exact .inside List.mem_cons_self List.mem_cons_self .refl
  exact ⟨hin, ((document_conforms {} replyingFile).2 _ hin).2.2.2.2⟩

end TreeDoc.Model
