/-
  Every element that a document reaches has its nodes in it, once.

  Of the nodes of an element one stands for the element itself, unless it is a
  block or a stub. A few more are synthesized: they group operands and branches,
  list results and attributes, or hold a text. All others are nodes of parts.

  * `Document.nodes`: all nodes of a document, at any depth;
  * `ownNodes`: the nodes of an element that are not those of its parts;
  * `layer_perm`: what the nodes of one element consist of;
  * `document_nodes_perm`: so a document consists of the own nodes of all elements
    that it reaches, and of the node of its package;
  * `node_conservation`: the same, counted for each kind of node;
  * `document_nodes_of_kind`: the nodes of a kind that is never synthesized, in
    their order.
-/
import TreeDoc.Proofs.Conformance
import TreeDoc.Proofs.Reach
import Mathlib.Data.List.Flatten

namespace TreeDoc.Document

/-! ## All nodes of a document -/

mutual

/-- The node and all nodes in it. -/
def Node.nodes : Node → List Node
  | ⟨kind, attrs, groups⟩ => ⟨kind, attrs, groups⟩ :: nodesInGroups groups

/-- All nodes in groups. -/
def nodesInGroups : List (String × List Node) → List Node
  | [] => []
  | (_, ns) :: gs => nodesIn ns ++ nodesInGroups gs

/-- The nodes and all nodes in them. -/
def nodesIn : List Node → List Node
  | [] => []
  | n :: ns => n.nodes ++ nodesIn ns

end

/-- All nodes of the document. -/
def nodes (d : Document) : List Node := nodesIn d.root

theorem Node.nodes_eq (n : Node) : n.nodes = n :: nodesInGroups n.groups := by
  cases n
  rw [Node.nodes]

@[simp] theorem nodesInGroups_nil : nodesInGroups [] = [] := by rw [nodesInGroups]

@[simp] theorem nodesInGroups_cons (k : String) (ns : List Node) (gs : List (String × List Node)) :
    nodesInGroups ((k, ns) :: gs) = nodesIn ns ++ nodesInGroups gs := by rw [nodesInGroups]

@[simp] theorem nodesIn_nil : nodesIn [] = [] := by rw [nodesIn]

@[simp] theorem nodesIn_cons (n : Node) (ns : List Node) :
    nodesIn (n :: ns) = n :: nodesInGroups n.groups ++ nodesIn ns := by rw [nodesIn, n.nodes_eq]

@[simp] theorem nodesIn_append : ∀ ns ms : List Node, nodesIn (ns ++ ms) = nodesIn ns ++ nodesIn ms
  | [], _ => by simp
  | n :: ns, ms => by simp [nodesIn_append ns ms]

theorem nodesIn_leaves : ∀ {ns : List Node}, (∀ n ∈ ns, n.groups = []) → nodesIn ns = ns
  | [], _ => by simp
  | n :: ns, h => by
    obtain ⟨hn, hns⟩ := List.forall_mem_cons.1 h
    simp [hn, nodesIn_leaves hns]

mutual

theorem Node.mem_nodes_iff {m : Node} : ∀ {n : Node}, m ∈ n.nodes ↔ m.Within n
  | ⟨kind, attrs, groups⟩ => by
    rw [Node.nodes, List.mem_cons, mem_nodesInGroups_iff]
    constructor
    · rintro (rfl | ⟨g, hg, l, hl, hm⟩)
      · exact .refl
      · exact .inside hg hl hm
    · rintro (_ | ⟨hg, hl, hm⟩)
      · exact Or.inl rfl
      · exact Or.inr ⟨_, hg, _, hl, hm⟩

theorem mem_nodesInGroups_iff {m : Node} : ∀ {gs : List (String × List Node)},
    m ∈ nodesInGroups gs ↔ ∃ g ∈ gs, ∃ l ∈ g.2, m.Within l
  | [] => by simp
  | (k, ns) :: gs => by
    rw [nodesInGroups, List.mem_append, mem_nodesIn_iff, mem_nodesInGroups_iff,
      List.exists_mem_cons_iff]

theorem mem_nodesIn_iff {m : Node} : ∀ {ns : List Node}, m ∈ nodesIn ns ↔ ∃ l ∈ ns, m.Within l
  | [] => by simp
  | n :: ns => by
    rw [nodesIn, List.mem_append, Node.mem_nodes_iff, mem_nodesIn_iff, List.exists_mem_cons_iff]

end

theorem mem_nodes_iff {d : Document} {n : Node} : n ∈ d.nodes ↔ d.Contains n := mem_nodesIn_iff

end TreeDoc.Document

namespace TreeDoc.Model

open Document Program

/-! ## Own nodes -/

/-- The node that stands for an element, if it has one. -/
def heads (st : Style) (e : Element) : List Node := if e.isBlock then [] else elementNodes st e

/-- The nodes that an element has besides the one that stands for it and those of
    its parts. -/
def synthesized (st : Style) : Element → List Node
  | .function d => returnTypeNode d.results :: d.results.map returnArgumentNode
  | .action d => returnTypeNode d.results :: d.results.map returnArgumentNode
  | .annotationDef d => d.attributes.map fun (k, v) => attributeNode k v
  | .worker d =>
    if st.withText then d.statements.map fun s => statementTextNode (st.renderer.stmt s) else []
  | .stmt (.assign lhs rhs) =>
    [parent .leftOperand (nodesOf st (lhs.map .expr)),
      parent .rightOperand (nodesOf st [.expr rhs])]
  | .stmt (.ifElse condition thenBody _) =>
    branchNodes (nodesOf st [.stmt thenBody]) (nodesOf st [.expr condition])
  | .stmt (.functionCall name package args) =>
    [functionCallNode name package (nodesOf st (args.map .expr))]
  | _ => []

/-- The nodes of an element that are not those of its parts. -/
def ownNodes (st : Style) (e : Element) : List Node :=
  heads st e ++ synthesized st e

/-! ## One layer of nodes -/

theorem layer_perm_expr (st : Style) (e : Expr) : (nodesIn (exprLayer st e)).Perm
    (exprLayer st e ++ nodesIn (nodesOf st (entered st (.expr e)))) := by
  cases e <;> simp [exprLayer, entered, Element.isStub, Expr.isStub, Element.parts, Expr.parts,
    functionCallNode, actionCallNode, literalNode, variableNode, templateNode, creationNode,
    accessNode]

theorem layer_perm_stmt (st : Style) (s : Stmt) : (nodesIn (stmtLayer st s)).Perm
    ((if s.isBlock then [] else stmtLayer st s) ++ synthesized st (.stmt s) ++
      nodesIn (nodesOf st (entered st (.stmt s)))) := by
  cases s with
  | block statements =>
    simp [stmtLayer, Stmt.isBlock, synthesized, entered, Element.isStub, Element.parts, Stmt.parts]
  | ifElse condition thenBody elseBody =>
    cases elseBody <;> simp [stmtLayer, Stmt.isBlock, synthesized, entered, Element.isStub,
      Element.parts, Stmt.parts, branchNodes]
  | assign | comment | whileLoop | functionCall | actionCall | reply | returning =>
    simp [stmtLayer, Stmt.isBlock, synthesized, entered, Element.isStub, Element.parts, Stmt.parts,
      assignNode, commentNode, functionCallNode]

/-- The results of a callable stand between its declarations and its body. -/
theorem layer_perm_callable (st : Style) (notes declared body : List Element)
    (results : List ReturnParameter) :
    (nodesIn (nodesOf st notes) ++
      nodesIn (nodesOf st declared ++ returnTypeNode results :: nodesOf st body)).Perm
    (returnTypeNode results :: results.map returnArgumentNode ++
      nodesIn (nodesOf st (notes ++ declared ++ body))) := by
  have hresults : nodesInGroups (returnTypeNode results).groups =
      results.map returnArgumentNode := by
    have hleaves : nodesIn (results.map returnArgumentNode) = results.map returnArgumentNode :=
      nodesIn_leaves (by simp)
    simp [returnTypeNode, hleaves]
  simpa [hresults] using List.perm_append_comm_assoc
    (nodesIn (nodesOf st notes) ++ nodesIn (nodesOf st declared))
    (returnTypeNode results :: results.map returnArgumentNode) (nodesIn (nodesOf st body))

/-- The statements of a worker are texts, or parts like any others. -/
theorem layer_perm_worker (st : Style) (declared : List Element) (ss : List Stmt) :
    (nodesIn (nodesOf st declared ++ workerBody st ss)).Perm
    ((if st.withText then ss.map fun s => statementTextNode (st.renderer.stmt s) else []) ++
      nodesIn (nodesOf st (declared ++ if st.withText then [] else ss.map .stmt))) := by
  unfold workerBody
  split
  · have hleaves : nodesIn (ss.map fun s => statementTextNode (st.renderer.stmt s)) =
        ss.map fun s => statementTextNode (st.renderer.stmt s) :=
      nodesIn_leaves (by simp [statementTextNode])
    rw [nodesIn_append, hleaves, List.append_nil]
    exact List.perm_append_comm
  · rw [stmtListNodes_eq_nodesOf, nodesOf_append, List.nil_append]

/-- **One layer of nodes.** The nodes of an element, and all nodes in them, are
    its own and those of the parts that are entered. -/
theorem layer_perm (st : Style) (e : Element) : (nodesIn (layer st e)).Perm
    ((if e.isBlock then [] else layer st e) ++ synthesized st e ++
      nodesIn (nodesOf st (entered st e))) := by
  cases e with
  | stmt s => exact layer_perm_stmt st s
  | expr e => simpa [layer, Element.isBlock, synthesized] using layer_perm_expr st e
  | function d =>
    have h := layer_perm_callable st (d.annotations.map .annotationDef)
      (d.locals.map .variableDecl ++ d.parameters.map .parameter ++
        d.connectors.map .connectorDecl) (d.body.statements.map .stmt) d.results
    simpa [layer, Element.isBlock, synthesized, entered, Element.isStub, Element.parts,
      functionNode] using h
  | action d =>
    have h := layer_perm_callable st (d.annotations.map .annotationDef)
      (d.locals.map .variableDecl ++ d.parameters.map .parameter ++
        d.connectors.map .connectorDecl) (d.body.statements.map .stmt) d.results
    simpa [layer, Element.isBlock, synthesized, entered, Element.isStub, Element.parts,
      actionNode] using h
  | worker d =>
    have h := layer_perm_worker st
      (d.connectors.map .connectorDecl ++ d.locals.map .variableDecl) d.statements
    simpa [layer, Element.isBlock, synthesized, entered, workerNode] using h
  | annotationDef d =>
    have hleaves : nodesIn (d.attributes.map fun (k, v) => attributeNode k v) =
        d.attributes.map fun (k, v) => attributeNode k v := by
      refine nodesIn_leaves fun n hn => ?_
      obtain ⟨⟨k, v⟩, -, rfl⟩ := List.mem_map.1 hn
      rfl
    simp [layer, Element.isBlock, synthesized, entered, Element.isStub, Element.parts,
      annotationNode, hleaves]
  | service | connector | resource | parameter | connectorDecl =>
    simp [layer, Element.isBlock, synthesized, entered, Element.isStub, Element.parts, serviceNode,
      connectorNode, resourceNode, parameterNode, connectorDeclNode]
  | importDecl | variableDecl | constant | struct | typeConverter | mainInvoker =>
    simp [layer, Element.isBlock, synthesized, entered, Element.isStub, Element.parts, importNode,
      variableDeclNode, constantNode]

/-! ## All layers -/

/-- The nodes of an element and all nodes in them. -/
def nodesUnder (st : Style) (e : Element) : List Node := nodesIn (elementNodes st e)

theorem nodesIn_nodesOf (st : Style) : ∀ es : List Element,
    nodesIn (nodesOf st es) = es.flatMap (nodesUnder st)
  | [] => by simp
  | e :: es => by
    rw [nodesOf_cons, nodesIn_append, nodesIn_nodesOf st es, List.flatMap_cons, nodesUnder]

theorem nodesUnder_perm (st : Style) (e : Element) :
    (nodesUnder st e).Perm ((reached st e).flatMap (ownNodes st)) := by
  induction e using entered_induction st with
  | step e ih =>
    have hlayer : (nodesUnder st e).Perm
        (ownNodes st e ++ (entered st e).flatMap (nodesUnder st)) := by
      rw [nodesUnder, ownNodes, heads, elementNodes_eq_layer, ← nodesIn_nodesOf]
      exact layer_perm st e
    rw [reached_eq, List.flatMap_cons, List.flatMap_assoc]
    exact hlayer.trans ((List.Perm.flatMap_left _ ih).append_left _)

/-- **The nodes of a document** are that of the package and the own nodes of every
    element that is reached. -/
theorem document_nodes_perm (st : Style) (f : File) :
    (document st f).nodes.Perm (packageNode f :: (reachedFrom st f).flatMap (ownNodes st)) := by
  rw [nodes, document_root_eq, nodesIn_cons, nodesIn_nodesOf, reachedFrom, List.flatMap_assoc]
  exact (List.Perm.flatMap_left _ fun e _ => nodesUnder_perm st e).cons _

/-! ## Kinds -/

/-- The kind of the nodes that stand for such an expression. -/
def exprKind : Expr → Option Kind
  | .functionCall _ _ _ => some .functionCall
  | .actionCall _ _ _ _ => some .actionCall
  | .literal _ => some .literal
  | .binary op _ _ => some (.binary op)
  | .unary _ _ => some .unary
  | .variable _ => some .variableRef
  | .array _ => some .arrayInit
  | .template _ => some .template
  | .creation _ => some .creation
  | .access _ _ => some .access
  | .cast _ _ | .map _ | .keyValue _ _ | .structInit _ _ | .fieldAccess _ _ | .resourceCall _ _
  | .location _ => none

/-- The kind of the nodes that stand for such a statement. -/
def stmtKind : Stmt → Option Kind
  | .assign _ _ => some .assignment
  | .comment _ => some .comment
  | .ifElse _ _ _ => some .ifElse
  | .whileLoop _ _ => some .whileLoop
  | .functionCall _ _ _ => some .functionCallStmt
  | .reply _ => some .reply
  | .returning _ => some .returning
  | .block _ | .actionCall _ _ _ _ => none

/-- The kind of the nodes that stand for such an element. -/
def elementKind : Element → Option Kind
  | .importDecl _ => some .importDef
  | .service _ => some .serviceDef
  | .connector _ => some .connectorDef
  | .function _ => some .functionDef
  | .action _ => some .actionDef
  | .resource _ => some .resourceDef
  | .worker _ => some .workerDef
  | .annotationDef _ => some .annotationDef
  | .parameter _ => some .parameterDef
  | .connectorDecl _ => some .connectorDecl
  | .variableDecl _ => some .variableDecl
  | .constant _ => some .constantDef
  | .struct _ | .typeConverter _ | .mainInvoker _ => none
  | .stmt s => stmtKind s
  | .expr e => exprKind e

/-- The kinds of the nodes that are synthesized for an element. -/
def synthesizedKinds (st : Style) : Element → List Kind
  | .function d => .returnType :: List.replicate d.results.length .returnArgument
  | .action d => .returnType :: List.replicate d.results.length .returnArgument
  | .annotationDef d => List.replicate d.attributes.length .annotationAttribute
  | .worker d => if st.withText then List.replicate d.statements.length .statementText else []
  | .stmt (.assign _ _) => [.leftOperand, .rightOperand]
  | .stmt (.ifElse _ _ _) => [.thenBody, .ifCondition]
  | .stmt (.functionCall _ _ _) => [.functionCall]
  | _ => []

theorem kinds_map {α : Type} {node : α → Node} {k : Kind} (h : ∀ a, (node a).kind = k)
    (as : List α) : kinds (as.map node) = List.replicate as.length k := by
  have hconst : Node.kind ∘ node = fun _ => k := funext h
  rw [kinds, List.map_map, hconst, List.map_const']

theorem kinds_synthesized (st : Style) (e : Element) :
    kinds (synthesized st e) = synthesizedKinds st e := by
  cases e with
  | function d => exact congrArg _ (kinds_map returnArgumentNode_kind d.results)
  | action d => exact congrArg _ (kinds_map returnArgumentNode_kind d.results)
  | annotationDef d =>
    have hkind : ∀ a : String × String, (attributeNode a.1 a.2).kind = .annotationAttribute :=
      fun _ => rfl
    exact kinds_map hkind d.attributes
  | worker d =>
    have hkind : ∀ s, (statementTextNode (st.renderer.stmt s)).kind = .statementText := fun _ => rfl
    rw [synthesized, synthesizedKinds]
    split
    · exact kinds_map hkind d.statements
    · rfl
  | stmt s => cases s <;> rfl
  | _ => rfl

theorem kinds_elementNodes (st : Style) {e : Element} (h : e.isBlock = false) :
    kinds (elementNodes st e) = (elementKind e).toList := by
  cases e with
  | stmt s =>
    cases s with
    | block statements => simp [Element.isBlock, Stmt.isBlock] at h
    | ifElse condition thenBody elseBody => cases elseBody <;> rfl
    | reply value =>
      show kinds [replyNode (st.replyText value) (exprNode value).toList] = [.reply]
      rw [replyNode_eq]
      rfl
    | _ => rfl
  | expr e => cases e <;> rfl
  | _ => rfl

theorem elementKind_block {e : Element} (h : e.isBlock = true) : elementKind e = none := by
  cases e with
  | stmt s =>
    cases s with
    | block statements => rfl
    | _ => simp [Element.isBlock, Stmt.isBlock] at h
  | _ => simp [Element.isBlock] at h

theorem kinds_ownNodes (st : Style) (e : Element) :
    kinds (ownNodes st e) = (elementKind e).toList ++ synthesizedKinds st e := by
  rw [ownNodes, heads, kinds, List.map_append, ← kinds, ← kinds, kinds_synthesized]
  cases h : e.isBlock with
  | true => rw [if_pos rfl, elementKind_block h]; rfl
  | false => rw [if_neg Bool.false_ne_true, kinds_elementNodes st h]

theorem count_kinds_ownNodes (st : Style) (k : Kind) : ∀ es : List Element,
    (kinds (es.flatMap (ownNodes st))).count k =
      es.countP (elementKind · = some k) + (es.flatMap (synthesizedKinds st)).count k
  | [] => rfl
  | e :: es => by
    have hown : (kinds (ownNodes st e)).count k =
        (if elementKind e = some k then 1 else 0) + (synthesizedKinds st e).count k := by
      rw [kinds_ownNodes, List.count_append]
      cases elementKind e with
      | none => simp
      | some k' => simp [List.count_singleton]
    have hrest := count_kinds_ownNodes st k es
    simp only [kinds] at hown hrest
    simp only [kinds, List.flatMap_cons, List.map_append, List.count_append, List.countP_cons,
      decide_eq_true_eq, hown, hrest]
    omega

/-- **Nodes are conserved.** In the document of a file there are as many nodes of a
    kind as there are reached elements that this kind stands for, and besides
    these only the node of the package and the synthesized nodes of each reached
    element. -/
theorem node_conservation (st : Style) (f : File) (k : Kind) :
    (document st f).nodes.countP (·.kind = k) =
      (reachedFrom st f).countP (elementKind · = some k) +
        (.packageDef :: (reachedFrom st f).flatMap (synthesizedKinds st)).count k := by
  have hkinds : (document st f).nodes.countP (·.kind = k) =
      (kinds (document st f).nodes).count k := by
    rw [kinds, List.count_eq_countP, List.countP_map]
    rfl
  have hcount := ((document_nodes_perm st f).map Node.kind).count_eq k
  have hpackage : (packageNode f).kind = .packageDef := rfl
  rw [hkinds, kinds, hcount, List.map_cons, hpackage, List.count_cons, List.count_cons, ← kinds,
    count_kinds_ownNodes]
  omega

/-! ## The order of nodes -/

theorem layer_sublist_worker (st : Style) (ss : List Stmt) :
    (nodesIn (nodesOf st (if st.withText then [] else ss.map .stmt))).Sublist
      (nodesIn (workerBody st ss)) := by
  unfold workerBody
  split
  · simp
  · rw [stmtListNodes_eq_nodesOf]

/-- The node of an element comes before those of its parts, which come in the order
    in which they are entered. -/
theorem layer_sublist (st : Style) (e : Element) :
    ((if e.isBlock then [] else layer st e) ++ nodesIn (nodesOf st (entered st e))).Sublist
      (nodesIn (layer st e)) := by
  cases e with
  | stmt s =>
    cases s with
    | ifElse condition thenBody elseBody =>
      cases elseBody <;> simp [layer, stmtLayer, Element.isBlock, Stmt.isBlock, entered,
        Element.isStub, Element.parts, Stmt.parts, branchNodes]
    | _ =>
      simp [layer, stmtLayer, Element.isBlock, Stmt.isBlock, entered, Element.isStub, Element.parts,
        Stmt.parts, assignNode, commentNode, functionCallNode]
  | expr e =>
    cases e <;> simp [layer, exprLayer, Element.isBlock, entered, Element.isStub, Expr.isStub,
      Element.parts, Expr.parts, functionCallNode, actionCallNode, literalNode, variableNode,
      templateNode, creationNode, accessNode]
  | worker d =>
    simpa [layer, Element.isBlock, entered, workerNode] using layer_sublist_worker st d.statements
  | _ =>
    simp [layer, Element.isBlock, entered, Element.isStub, Element.parts, importNode,
      variableDeclNode, constantNode, serviceNode, connectorNode, resourceNode, functionNode,
      actionNode, annotationNode, parameterNode, connectorDeclNode]

theorem sublist_nodesUnder (st : Style) (e : Element) :
    ((reached st e).flatMap (heads st)).Sublist (nodesUnder st e) := by
  induction e using entered_induction st with
  | step e ih =>
    have hlayer : (heads st e ++ (entered st e).flatMap (nodesUnder st)).Sublist
        (nodesUnder st e) := by
      rw [nodesUnder, heads, elementNodes_eq_layer, ← nodesIn_nodesOf]
      exact layer_sublist st e
    rw [reached_eq, List.flatMap_cons, List.flatMap_assoc]
    refine List.Sublist.trans (List.Sublist.append_left ?_ _) hlayer
    exact List.Sublist.flatMap_right _ ih

theorem heads_sublist_nodes (st : Style) (f : File) :
    ((reachedFrom st f).flatMap (heads st)).Sublist (document st f).nodes := by
  rw [nodes, document_root_eq, nodesIn_cons, nodesIn_nodesOf, reachedFrom, List.flatMap_assoc]
  exact (List.Sublist.flatMap_right _ fun e _ => sublist_nodesUnder st e).cons _

/-- The nodes of this kind may stand for no element. -/
def isSynthetic : Kind → Bool
  | .packageDef | .returnType | .returnArgument | .annotationAttribute | .leftOperand
  | .rightOperand | .thenBody | .ifCondition | .functionCall | .statementText => true
  | _ => false

theorem isSynthetic_synthesizedKinds (st : Style) (e : Element) :
    ∀ k ∈ synthesizedKinds st e, isSynthetic k = true := by
  cases e with
  | stmt s => cases s <;> simp [synthesizedKinds, isSynthetic]
  | worker d =>
    rw [synthesizedKinds]
    split <;> simp +contextual [isSynthetic]
  | _ => simp +contextual [synthesizedKinds, isSynthetic]

/-- **The nodes of one kind.** If none of them is synthesized, they are those that
    stand for the elements which are reached, in the same order. -/
theorem document_nodes_of_kind (st : Style) (f : File) {k : Kind}
    (hk : isSynthetic k = false) :
    (document st f).nodes.filter (·.kind = k) =
      ((reachedFrom st f).flatMap (heads st)).filter (·.kind = k) := by
  have hown : ∀ e, (ownNodes st e).filter (·.kind = k) = (heads st e).filter (·.kind = k) := by
    intro e
    have hnone : (synthesized st e).filter (·.kind = k) = [] := by
      refine List.filter_eq_nil_iff.2 fun n hn hkind => ?_
      have hmem : k ∈ synthesizedKinds st e := by
        rw [← kinds_synthesized]
        exact List.mem_map.2 ⟨n, hn, of_decide_eq_true hkind⟩
      simp [isSynthetic_synthesizedKinds st e k hmem] at hk
    rw [ownNodes, List.filter_append, hnone, List.append_nil, heads]
  have hperm : ((document st f).nodes.filter (·.kind = k)).Perm
      (((reachedFrom st f).flatMap (heads st)).filter (·.kind = k)) := by
    have h := (document_nodes_perm st f).filter (·.kind = k)
    have hnot : (packageNode f).kind ≠ k := by
      rintro rfl
      cases hk
    simpa [List.filter_cons, hnot, List.filter_flatMap, hown] using h
  exact (((heads_sublist_nodes st f).filter _).eq_of_length hperm.length_eq.symm).symm

end TreeDoc.Model
