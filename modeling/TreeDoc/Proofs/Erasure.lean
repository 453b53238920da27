/-
  Documents with some of their contents left out.

  * `Erasure`: which attributes and nodes are left of a document, and
    `Node.erase`, `Document.erase`;
  * `Agree`: the same is left of the nodes of an element in two styles;
  * `TextAgrees`: so it is of the texts of one element, which is where styles
    differ;
  * `document_erase_eq`: if it is so for the texts of every element that is
    reached, the same is left of the documents.
-/
import TreeDoc.Proofs.Conservation

namespace TreeDoc.Document

/-! ## Erasing -/

/-- What is left of a document. -/
structure Erasure where
  /-- The attributes that are left of those of a node of this kind. -/
  attrs : Kind → List (String × Scalar) → List (String × Scalar) := fun _ as => as
  /-- A node of the second kind is left where it stands in one of the first. -/
  keeps : Kind → Kind → Bool := fun _ _ => true

section
variable (E : Erasure)

mutual

/-- What is left of a node. -/
def Node.erase : Node → Node
  | ⟨kind, attrs, groups⟩ => ⟨kind, E.attrs kind attrs, eraseGroups kind groups⟩

/-- What is left of the groups of a node of this kind. -/
def eraseGroups (kind : Kind) : List (String × List Node) → List (String × List Node)
  | [] => []
  | (k, ns) :: gs => (k, (eraseNodes ns).filter fun n => E.keeps kind n.kind) :: eraseGroups kind gs

/-- What is left of nodes, each on its own. -/
def eraseNodes : List Node → List Node
  | [] => []
  | n :: ns => n.erase :: eraseNodes ns

end

/-- What is left of nodes that stand in a node of this kind. -/
def eraseInside (kind : Kind) (ns : List Node) : List Node :=
  (eraseNodes E ns).filter fun n => E.keeps kind n.kind

/-- What is left of a document. -/
def erase (d : Document) : Document := ⟨eraseNodes E d.root⟩

variable {E}

theorem Node.erase_eq (n : Node) :
    n.erase E = ⟨n.kind, E.attrs n.kind n.attrs, eraseGroups E n.kind n.groups⟩ := by
  cases n
  rw [Node.erase]

@[simp] theorem eraseGroups_nil (kind : Kind) : eraseGroups E kind [] = [] := by rw [eraseGroups]

@[simp] theorem eraseGroups_cons (kind : Kind) (k : String) (ns : List Node)
    (gs : List (String × List Node)) :
    eraseGroups E kind ((k, ns) :: gs) = (k, eraseInside E kind ns) :: eraseGroups E kind gs := by
  rw [eraseGroups, eraseInside]

@[simp] theorem eraseNodes_nil : eraseNodes E [] = [] := by rw [eraseNodes]

@[simp] theorem eraseNodes_cons (n : Node) (ns : List Node) :
    eraseNodes E (n :: ns) = n.erase E :: eraseNodes E ns := by rw [eraseNodes]

@[simp] theorem eraseNodes_append : ∀ ns ms : List Node,
    eraseNodes E (ns ++ ms) = eraseNodes E ns ++ eraseNodes E ms
  | [], _ => by simp
  | n :: ns, ms => by simp [eraseNodes_append ns ms]

theorem eraseInside_append (kind : Kind) (ns ms : List Node) :
    eraseInside E kind (ns ++ ms) = eraseInside E kind ns ++ eraseInside E kind ms := by
  simp [eraseInside]

/-! ## Documents that stay as they are -/

/-- The erasure leaves every node where it is, and takes no attribute from these
    nodes. -/
structure Keeps (E : Erasure) (ns : List Node) : Prop where
  nodes : ∀ k k', E.keeps k k' = true
  attrs : ∀ n ∈ ns, E.attrs n.kind n.attrs = n.attrs

mutual

theorem Node.erase_eq_self : ∀ {n : Node}, Keeps E n.nodes → n.erase E = n
  | ⟨kind, attrs, groups⟩, h => by
    rw [Node.nodes] at h
    obtain ⟨hattrs, hgroups⟩ := List.forall_mem_cons.1 h.attrs
    rw [Node.erase, hattrs, eraseGroups_eq_self kind ⟨h.nodes, hgroups⟩]

theorem eraseGroups_eq_self (kind : Kind) : ∀ {gs : List (String × List Node)},
    Keeps E (nodesInGroups gs) → eraseGroups E kind gs = gs
  | [], _ => by rw [eraseGroups]
  | (k, ns) :: gs, h => by
    rw [nodesInGroups] at h
    obtain ⟨hns, hgs⟩ := List.forall_mem_append.1 h.attrs
    rw [eraseGroups, eraseNodes_eq_self ⟨h.nodes, hns⟩, eraseGroups_eq_self kind ⟨h.nodes, hgs⟩,
      List.filter_eq_self.2 fun n _ => h.nodes kind n.kind]

theorem eraseNodes_eq_self : ∀ {ns : List Node}, Keeps E (nodesIn ns) → eraseNodes E ns = ns
  | [], _ => by rw [eraseNodes]
  | n :: ns, h => by
    rw [nodesIn] at h
    obtain ⟨hn, hns⟩ := List.forall_mem_append.1 h.attrs
    rw [eraseNodes, Node.erase_eq_self ⟨h.nodes, hn⟩, eraseNodes_eq_self ⟨h.nodes, hns⟩]

end

theorem erase_eq_self {d : Document} (h : Keeps E d.nodes) : d.erase E = d := by
  rw [erase, eraseNodes_eq_self h]

/-- Nothing is erased. -/
theorem erase_nothing (d : Document) : d.erase {} = d :=
  erase_eq_self ⟨fun _ _ => rfl, fun _ _ => rfl⟩

/-! ## The same left of two nodes -/

theorem Node.erase_kind (n : Node) : (n.erase E).kind = n.kind := by rw [n.erase_eq]

theorem eraseInside_eq_nil {kind : Kind} : ∀ {ns : List Node},
    (∀ n ∈ ns, E.keeps kind n.kind = false) → eraseInside E kind ns = []
  | [], _ => by simp [eraseInside]
  | n :: ns, h => by
    obtain ⟨hn, hns⟩ := List.forall_mem_cons.1 h
    have ih := eraseInside_eq_nil hns
    rw [eraseInside] at ih
    rw [eraseInside, eraseNodes_cons, List.filter_cons_of_neg (by simp [n.erase_kind, hn]), ih]

theorem eraseNodes_map_congr {α : Type} {f g : α → Node} : ∀ {as : List α},
    (∀ a ∈ as, (f a).erase E = (g a).erase E) → eraseNodes E (as.map f) = eraseNodes E (as.map g)
  | [], _ => rfl
  | a :: as, h => by
    obtain ⟨ha, has⟩ := List.forall_mem_cons.1 h
    rw [List.map_cons, List.map_cons, eraseNodes_cons, eraseNodes_cons, ha,
      eraseNodes_map_congr has]

theorem eraseInside_congr {kind : Kind} {ns ms : List Node}
    (h : eraseNodes E ns = eraseNodes E ms) : eraseInside E kind ns = eraseInside E kind ms := by
  rw [eraseInside, eraseInside, h]

theorem Node.erase_congr {m n : Node} (hkind : m.kind = n.kind)
    (hattrs : E.attrs m.kind m.attrs = E.attrs n.kind n.attrs)
    (hgroups : eraseGroups E m.kind m.groups = eraseGroups E m.kind n.groups) :
    m.erase E = n.erase E := by
  rw [m.erase_eq, n.erase_eq, hgroups, hattrs, hkind]

/-- The node has its children last, and nothing else in it depends on them. -/
def ChildrenLast (node : List Node → Node) : Prop :=
  ∀ ns, node ns = { node [] with groups := (node []).groups.dropLast ++ [(childrenKey, ns)] }

theorem eraseGroups_append (kind : Kind) : ∀ gs hs : List (String × List Node),
    eraseGroups E kind (gs ++ hs) = eraseGroups E kind gs ++ eraseGroups E kind hs
  | [], _ => by simp
  | (k, ns) :: gs, hs => by simp [eraseGroups_append kind gs hs]

theorem erase_congr_children {node : List Node → Node} (hnode : ChildrenLast node)
    {ns ms : List Node} (h : eraseInside E (node []).kind ns = eraseInside E (node []).kind ms) :
    (node ns).erase E = (node ms).erase E := by
  rw [hnode ns, hnode ms]
  refine Node.erase_congr rfl rfl ?_
  simp [eraseGroups_append, h]

end

end TreeDoc.Document

namespace TreeDoc.Model

open Document Program

section
variable {E : Erasure} {st st' : Style}

/-! ## Two styles -/

/-- The same is left of the nodes of an element in both styles. -/
def Agree (E : Erasure) (st st' : Style) (e : Element) : Prop :=
  eraseNodes E (elementNodes st e) = eraseNodes E (elementNodes st' e)

/-- The same is left in both styles of what they may write as text: the text of a
    reply, and the statements of a worker unless both styles go through them. -/
def TextAgrees (E : Erasure) (st st' : Style) : Element → Prop
  | .stmt (.reply value) =>
    E.attrs .reply (replyAttrs (st.replyText value)) =
      E.attrs .reply (replyAttrs (st'.replyText value))
  | .worker d =>
    st.withText = true ∨ st'.withText = true →
      eraseInside E .workerDef (workerBody st d.statements) =
        eraseInside E .workerDef (workerBody st' d.statements)
  | _ => True

theorem eraseNodes_nodesOf : ∀ {es : List Element}, (∀ p ∈ es, Agree E st st' p) →
    eraseNodes E (nodesOf st es) = eraseNodes E (nodesOf st' es)
  | [], _ => by rw [nodesOf_nil, nodesOf_nil]
  | e :: es, h => by
    obtain ⟨he, hes⟩ := List.forall_mem_cons.1 h
    rw [nodesOf_cons, nodesOf_cons, eraseNodes_append, eraseNodes_append, eraseNodes_nodesOf hes,
      he]

theorem Agree.of_node {e : Element} {m n : Node} (hm : elementNodes st e = [m])
    (hn : elementNodes st' e = [n]) (h : m.erase E = n.erase E) : Agree E st st' e := by
  rw [Agree, hm, hn]
  simp [h]

theorem erase_parent_congr {k : Kind} {ns ms : List Node}
    (h : eraseNodes E ns = eraseNodes E ms) : (parent k ns).erase E = (parent k ms).erase E :=
  erase_congr_children (fun _ => rfl) (eraseInside_congr h)

theorem erase_ifElse_congr {ns ms : List Node} (h : eraseNodes E ns = eraseNodes E ms) :
    ∀ {o p : Option (List Node)}, o.map (eraseNodes E) = p.map (eraseNodes E) →
      (ifElseNode ns o).erase E = (ifElseNode ms p).erase E
  | none, none, _ => by
    refine Node.erase_congr rfl rfl ?_
    simp [eraseInside_congr h]
  | some ns', some ms', ho => by
    refine Node.erase_congr rfl rfl ?_
    simp [eraseInside_congr h, eraseInside_congr (Option.some.inj ho)]

theorem agree_stmt {s : Stmt} (htext : TextAgrees E st st' (.stmt s))
    (hparts : ∀ p ∈ entered st (.stmt s), Agree E st st' p) : Agree E st st' (.stmt s) := by
  cases s with
  | block statements =>
    rw [Agree, elementNodes_eq_layer, elementNodes_eq_layer]
    exact eraseNodes_nodesOf hparts
  | ifElse condition thenBody elseBody =>
    obtain ⟨hthen, hparts⟩ := List.forall_mem_cons.1 hparts
    obtain ⟨hcondition, helse⟩ := List.forall_mem_cons.1 hparts
    refine .of_node (stmtNodes_eq_layer st _) (stmtNodes_eq_layer st' _) (erase_ifElse_congr ?_ ?_)
    · have hthen := eraseNodes_nodesOf (List.forall_mem_singleton.2 hthen)
      have hcondition := eraseNodes_nodesOf (List.forall_mem_singleton.2 hcondition)
      simp only [branchNodes, eraseNodes_cons, erase_parent_congr hthen,
        erase_parent_congr hcondition]
    · cases elseBody with
      | none => simp only [Option.map_none]
      | some s => exact congrArg some (eraseNodes_nodesOf helse)
  | whileLoop condition body =>
    refine .of_node (stmtNodes_eq_layer st _) (stmtNodes_eq_layer st' _) ?_
    exact erase_parent_congr (eraseNodes_nodesOf hparts)
  | reply value =>
    refine .of_node (stmtNodes_eq_layer st _) (stmtNodes_eq_layer st' _) ?_
    have hvalue : eraseNodes E (nodesOf st [.expr value]) =
        eraseNodes E (nodesOf st' [.expr value]) := eraseNodes_nodesOf hparts
    rw [replyNode_eq, replyNode_eq]
    refine Node.erase_congr rfl htext ?_
    rw [eraseGroups_cons, eraseGroups_cons, eraseInside_congr hvalue]
  | assign | comment | functionCall | actionCall | returning =>
    simp only [Agree, elementNodes, stmtNodes]

/-- Annotations, variables, parameters and connector instances look the same in all
    styles, so only the last nodes of a declaration have to be compared. -/
theorem Agree.of_last {e : Element} {node : List Node → Node} {front ns ms : List Node}
    (hst : elementNodes st e = [node (front ++ ns)])
    (hst' : elementNodes st' e = [node (front ++ ms)]) (hnode : ChildrenLast node)
    (h : eraseInside E (node []).kind ns = eraseInside E (node []).kind ms) : Agree E st st' e := by
  refine .of_node hst hst' (erase_congr_children hnode ?_)
  rw [eraseInside_append, eraseInside_append, h]

theorem eraseNodes_map {α : Type} {wrap : α → Element} {tree : Style → α → Node}
    (htree : ∀ st a, elementNodes st (wrap a) = [tree st a]) {as : List α}
    (h : ∀ p ∈ as.map wrap, Agree E st st' p) :
    eraseNodes E (as.map (tree st)) = eraseNodes E (as.map (tree st')) := by
  rw [map_eq_nodesOf (htree st), map_eq_nodesOf (htree st'), eraseNodes_nodesOf h]

theorem eraseNodes_stmtListNodes {ss : List Stmt} (h : ∀ p ∈ ss.map .stmt, Agree E st st' p) :
    eraseNodes E (stmtListNodes st ss) = eraseNodes E (stmtListNodes st' ss) := by
  rw [stmtListNodes_eq_nodesOf, stmtListNodes_eq_nodesOf, eraseNodes_nodesOf h]

/-- **One layer.** What is left of an element in two styles is the same if it is so
    for the texts of the element and for the parts that are entered. -/
theorem agree_of_parts {e : Element} (htext : TextAgrees E st st' e)
    (hparts : ∀ p ∈ entered st e, Agree E st st' p) : Agree E st st' e := by
  cases e with
  | stmt s => exact agree_stmt htext hparts
  | service d =>
    obtain ⟨-, hresources⟩ := List.forall_mem_append.1 hparts
    refine .of_last rfl rfl (fun _ => rfl) (eraseInside_congr ?_)
    exact eraseNodes_map (fun _ _ => rfl) hresources
  | connector d =>
    obtain ⟨-, hactions⟩ := List.forall_mem_append.1 hparts
    refine .of_last rfl rfl (fun _ => rfl) (eraseInside_congr ?_)
    exact eraseNodes_map (fun _ _ => rfl) hactions
  | function d =>
    obtain ⟨-, hbody⟩ := List.forall_mem_append.1 hparts
    refine .of_last rfl rfl (fun _ => rfl) (eraseInside_congr ?_)
    rw [eraseNodes_cons, eraseNodes_cons, eraseNodes_stmtListNodes hbody]
  | action d =>
    obtain ⟨-, hbody⟩ := List.forall_mem_append.1 hparts
    refine .of_last rfl rfl (fun _ => rfl) (eraseInside_congr ?_)
    rw [eraseNodes_cons, eraseNodes_cons, eraseNodes_stmtListNodes hbody]
  | resource d =>
    obtain ⟨hparts, hbody⟩ := List.forall_mem_append.1 hparts
    obtain ⟨-, hworkers⟩ := List.forall_mem_append.1 hparts
    have hworkers : eraseNodes E (d.workers.map (workerTree st)) =
        eraseNodes E (d.workers.map (workerTree st')) := eraseNodes_map (fun _ _ => rfl) hworkers
    have hbody : eraseNodes E (bodyNodes st d.body) = eraseNodes E (bodyNodes st' d.body) := by
      rw [bodyNodes_eq_nodesOf, bodyNodes_eq_nodesOf, eraseNodes_nodesOf hbody]
    refine .of_node rfl rfl (erase_congr_children (fun _ => rfl) (eraseInside_congr ?_))
    simp only [eraseNodes_append, hworkers, hbody]
  | worker d =>
    refine .of_last rfl rfl (fun _ => rfl) ?_
    by_cases h : st.withText = true ∨ st'.withText = true
    · exact htext h
    · obtain ⟨hst, hst'⟩ := not_or.1 h
      rw [entered, if_neg hst] at hparts
      obtain ⟨-, hbody⟩ := List.forall_mem_append.1 hparts
      rw [workerBody, workerBody, if_neg hst, if_neg hst']
      exact eraseInside_congr (eraseNodes_stmtListNodes hbody)
  | importDecl | annotationDef | parameter | connectorDecl | variableDecl | constant | struct
  | typeConverter | mainInvoker | expr => rfl

/-! ## Documents -/

theorem agree_of_reached {e : Element} (h : ∀ x ∈ reached st e, TextAgrees E st st' x) :
    Agree E st st' e := by
  induction e using entered_induction st with
  | step e ih =>
    rw [reached_eq] at h
    obtain ⟨htext, hparts⟩ := List.forall_mem_cons.1 h
    exact agree_of_parts htext fun p hp =>
      ih p hp fun x hx => hparts x (List.mem_flatMap_of_mem hp hx)

/-- **Documents in two styles.** If the same is left of the texts of every element
    that is reached, the same is left of the documents. -/
theorem document_erase_eq {f : File} (h : ∀ x ∈ reachedFrom st f, TextAgrees E st st' x) :
    (document st f).erase E = (document st' f).erase E := by
  have hparts : ∀ p ∈ f.parts, Agree E st st' p := fun p hp =>
    agree_of_reached fun x hx => h x (List.mem_flatMap_of_mem hp hx)
  rw [erase, erase, document_root_eq, document_root_eq, eraseNodes_cons, eraseNodes_cons,
    eraseNodes_nodesOf hparts]

end

end TreeDoc.Model
