/-
  Texts in documents.

  A style may ask for texts: then a reply carries the text of its value, and the
  statements of a worker are replaced by their texts. The texts are those of the
  renderer of the style. Nothing else in a document depends on the style.

  * `replyNodes_eq`, `workerNodes_eq`: the nodes of replies and workers, in order;
  * `strategies_agree`: documents with texts and without;
  * `renderer_noninterference`: documents with the texts of two renderers.
-/
import TreeDoc.Proofs.Erasure

namespace TreeDoc.Program

/-- The value of a reply. -/
def Element.replied? : Element → Option Expr
  | .stmt (.reply value) => some value
  | _ => none

/-- The worker that an element is. -/
def Element.worker? : Element → Option WorkerDef
  | .worker d => some d
  | _ => none

/-- The workers of a declaration. -/
def Element.workers : Element → List WorkerDef
  | .service d => d.resources.flatMap ResourceDef.workers
  | .resource d => d.workers
  | .worker d => [d]
  | _ => []

/-- The workers of a file, in the order of a document. -/
def File.workers (f : File) : List WorkerDef :=
  f.ordered.flatMap fun d => d.element.workers

end TreeDoc.Program

namespace TreeDoc.Model

open Document Program

/-! ## Replies and workers -/

/-- The values of the replies that a document reaches. -/
def repliesIn (st : Style) (f : File) : List Expr := (reachedFrom st f).filterMap Element.replied?

theorem filter_heads {α : Type} {st : Style} {k : Kind} {view : Element → Option α}
    {node : α → Node} (h : ∀ e, (heads st e).filter (·.kind = k) = (view e).toList.map node)
    (es : List Element) :
    (es.flatMap (heads st)).filter (·.kind = k) = (es.filterMap view).map node := by
  rw [List.filter_flatMap, List.filterMap_eq_flatMap_toList, List.map_flatMap]
  simp only [h]

theorem replyNodes_eq (st : Style) (f : File) :
    (document st f).nodes.filter (·.kind = .reply) = (repliesIn st f).map fun value =>
      ⟨.reply, replyAttrs (st.replyText value), [("children", (exprNode value).toList)]⟩ := by
  rw [document_nodes_of_kind st f rfl]
  refine filter_heads (fun e => ?_) _
  cases e with
  | stmt s =>
    cases s with
    | reply value =>
      simp [heads, Element.isBlock, Stmt.isBlock, elementNodes, stmtNodes, replyNode_eq,
        Element.replied?]
    | ifElse condition thenBody elseBody => cases elseBody <;> rfl
    | _ => rfl
  | expr e => cases e <;> rfl
  | _ => rfl

theorem flatMap_nil_const {α : Type} (as : List α) :
    as.flatMap (fun _ => ([] : List WorkerDef)) = [] := by simp

theorem workers_entered (st : Style) (e : Element) :
    e.worker?.toList ++ (entered st e).flatMap Element.workers = e.workers := by
  cases e with
  | stmt s =>
    cases s <;> simp [Element.worker?, entered, Element.isStub, Element.parts, Stmt.parts,
      Element.workers, List.flatMap_map, flatMap_nil_const]
  | expr e =>
    cases e <;> simp [Element.worker?, entered, Element.isStub, Expr.isStub, Element.parts,
      Element.workers, Expr.parts, List.flatMap_map, flatMap_nil_const]
  | worker d =>
    cases h : st.withText <;> simp [Element.worker?, entered, Element.workers, List.flatMap_map,
      flatMap_nil_const, h]
  | _ =>
    simp [Element.worker?, entered, Element.isStub, Element.parts, Element.workers,
      List.flatMap_map, flatMap_nil_const]

theorem workers_reached (st : Style) (e : Element) :
    (reached st e).filterMap Element.worker? = e.workers := by
  induction e using entered_induction st with
  | step e ih =>
    simp only [List.filterMap_eq_flatMap_toList] at ih ⊢
    rw [reached_eq, List.flatMap_cons, List.flatMap_assoc, List.flatMap_congr ih, workers_entered]

theorem workers_reachedFrom (st : Style) (f : File) :
    (reachedFrom st f).filterMap Element.worker? = f.workers := by
  have hparts : f.parts.flatMap Element.workers = f.workers := by
    simp [File.parts, File.workers, Element.workers, List.flatMap_map, flatMap_nil_const]
  rw [← hparts, reachedFrom, List.filterMap_eq_flatMap_toList, List.flatMap_assoc]
  refine List.flatMap_congr fun e _ => ?_
  rw [← List.filterMap_eq_flatMap_toList, workers_reached]

theorem mem_workers {st : Style} {f : File} {d : WorkerDef} (h : .worker d ∈ reachedFrom st f) :
    d ∈ f.workers := by
  rw [← workers_reachedFrom st f]
  exact List.mem_filterMap.2 ⟨_, h, rfl⟩

theorem workerNodes_eq (st : Style) (f : File) :
    (document st f).nodes.filter (·.kind = .workerDef) = f.workers.map (workerTree st) := by
  rw [document_nodes_of_kind st f rfl, ← workers_reachedFrom st f]
  refine filter_heads (fun e => ?_) _
  cases e with
  | stmt s =>
    cases s with
    | reply value =>
      simp [heads, Element.isBlock, Stmt.isBlock, elementNodes, stmtNodes, replyNode_eq,
        Element.worker?]
    | ifElse condition thenBody elseBody => cases elseBody <;> rfl
    | _ => rfl
  | expr e => cases e <;> rfl
  | _ => rfl

/-- The texts among the children of a node. -/
def textsIn (n : Node) : List Node := n.children.filter (·.kind = .statementText)

theorem filter_map_kind_ne {α : Type} {node : α → Node} {k k' : Kind}
    (hnode : ∀ a, (node a).kind = k) (hne : k ≠ k') (as : List α) :
    (as.map node).filter (·.kind = k') = [] := by
  refine List.filter_eq_nil_iff.2 fun n hn => ?_
  obtain ⟨a, -, rfl⟩ := List.mem_map.1 hn
  simpa [hnode a] using hne

theorem textsIn_workerTree (r : Renderer) (d : WorkerDef) :
    textsIn (workerTree (.textual r) d) =
      d.statements.map fun s => statementTextNode (r.stmt s) := by
  have hconnectors : (connectorDeclNodes d.connectors).filter (·.kind = .statementText) = [] :=
    filter_map_kind_ne (k := .connectorDecl) (fun _ => rfl) (by decide) _
  have hlocals : (variableNodes d.locals).filter (·.kind = .statementText) = [] :=
    filter_map_kind_ne (k := .variableDecl) (fun _ => rfl) (by decide) _
  have hchildren : (workerTree (.textual r) d).children = connectorDeclNodes d.connectors ++
      variableNodes d.locals ++ d.statements.map fun s => statementTextNode (r.stmt s) := rfl
  rw [textsIn, hchildren, List.filter_append, List.filter_append, hconnectors, hlocals]
  refine List.filter_eq_self.2 fun n hn => ?_
  obtain ⟨s, -, rfl⟩ := List.mem_map.1 hn
  rfl

/-! ## With texts and without -/

/-- The attributes of a node of this kind, without the text of a reply. -/
def withoutReplyText (k : Kind) (attrs : List (String × Scalar)) : List (String × Scalar) :=
  if k = .reply then attrs.filter (·.1 ≠ "expression") else attrs

/-- Replies lose their text. -/
def unquoted : Erasure where
  attrs := withoutReplyText

/-- Replies lose their text, and workers all children but their declarations. -/
def pruned : Erasure where
  attrs := withoutReplyText
  keeps k k' := k ≠ .workerDef ∨ k' = .connectorDecl ∨ k' = .variableDecl

theorem withoutReplyText_replyAttrs (text : Option String) :
    withoutReplyText .reply (replyAttrs text) = [] := by
  cases text <;> simp [withoutReplyText, replyAttrs]

theorem workerBody_kind {st : Style} {ss : List Stmt} {n : Node} (h : n ∈ workerBody st ss) :
    n.kind = .statementText ∨ n.kind.isStmt = true := by
  have hkind : n.kind ∈ kinds (workerBody st ss) := List.mem_map_of_mem h
  rcases (workerBody_fits st ss).kinds_mem with hw | hw
  · exact Or.inl (of_decide_eq_true (of_mem_oneWith_kstar hw _ hkind))
  · exact Or.inr (of_mem_oneWith_kstar hw _ hkind)

theorem eraseInside_workerBody (st : Style) (ss : List Stmt) :
    eraseInside pruned .workerDef (workerBody st ss) = [] := by
  refine eraseInside_eq_nil fun n hn => ?_
  have hkind := workerBody_kind hn
  cases h : n.kind <;> simp_all [pruned, Kind.isStmt]

theorem pruned_agrees (st st' : Style) (e : Element) : TextAgrees pruned st st' e := by
  unfold TextAgrees
  split
  · exact (withoutReplyText_replyAttrs _).trans (withoutReplyText_replyAttrs _).symm
  · rw [eraseInside_workerBody, eraseInside_workerBody]
    exact fun _ => rfl
  · trivial

theorem unquoted_agrees {st st' : Style} {e : Element}
    (h : ∀ d, e = .worker d → d.statements = []) : TextAgrees unquoted st st' e := by
  unfold TextAgrees
  split
  · exact (withoutReplyText_replyAttrs _).trans (withoutReplyText_replyAttrs _).symm
  · rename_i d
    simp [h d rfl, workerBody, stmtListNodes]
  · trivial

theorem attrs_eq_nil_of_structured (r : Renderer) (f : File) {n : Node}
    (h : n ∈ (document (.structured r) f).nodes) (hkind : n.kind = .reply) : n.attrs = [] := by
  have hmem : n ∈ (document (.structured r) f).nodes.filter (·.kind = .reply) :=
    List.mem_filter.2 ⟨h, decide_eq_true hkind⟩
  rw [replyNodes_eq] at hmem
  obtain ⟨value, -, rfl⟩ := List.mem_map.1 hmem
  rfl

theorem unquoted_structured (r : Renderer) (f : File) :
    (document (.structured r) f).erase unquoted = document (.structured r) f := by
  refine erase_eq_self ⟨fun _ _ => rfl, fun n hn => ?_⟩
  show withoutReplyText n.kind n.attrs = n.attrs
  rw [withoutReplyText]
  split
  · rename_i hkind
    rw [attrs_eq_nil_of_structured r f hn hkind, List.filter_nil]
  · rfl

theorem no_statementText_own (r : Renderer) (e : Element) :
    .statementText ∉ (elementKind e).toList ++ synthesizedKinds (.structured r) e := by
  have hst : (Style.structured r).withText = false := rfl
  cases e with
  | stmt s => cases s <;> simp [elementKind, stmtKind, synthesizedKinds]
  | expr e => cases e <;> simp [elementKind, exprKind, synthesizedKinds]
  | _ => simp [elementKind, synthesizedKinds, hst]

theorem no_statementText (r : Renderer) (f : File) {n : Node}
    (h : n ∈ (document (.structured r) f).nodes) : n.kind ≠ .statementText := by
  intro hkind
  rcases List.mem_cons.1 ((document_nodes_perm _ f).mem_iff.1 h) with rfl | hn
  · cases hkind
  · obtain ⟨e, -, hn⟩ := List.mem_flatMap.1 hn
    have hmem : n.kind ∈ kinds (ownNodes (.structured r) e) := List.mem_map_of_mem hn
    rw [kinds_ownNodes, hkind] at hmem
    exact no_statementText_own r e hmem

/-- **With texts and without.** The documents of a file in both styles are the same
    but for the texts of replies and the statements of workers. Without texts, no
    reply has a text and there are no nodes for texts; with texts, every reply has
    the text of its value, and every worker those of its statements. So if no
    worker has statements, only the texts of replies make the difference. -/
theorem strategies_agree (r : Renderer) (f : File) :
    (document (.textual r) f).erase pruned = (document (.structured r) f).erase pruned ∧
    (∀ n, (document (.structured r) f).Contains n →
      n.kind ≠ .statementText ∧ (n.kind = .reply → n.attr? "expression" = none)) ∧
    (document (.textual r) f).nodes.filter (·.kind = .reply) =
      (repliesIn (.textual r) f).map (fun value =>
        ⟨.reply, [("expression", .text (r.expr value))], [("children", (exprNode value).toList)]⟩) ∧
    ((document (.textual r) f).nodes.filter (·.kind = .workerDef)).map
        (fun n => (n.attr? "worker-name", textsIn n)) =
      f.workers.map (fun d =>
        (some (.text d.name), d.statements.map fun s => statementTextNode (r.stmt s))) ∧
    ((∀ d ∈ f.workers, d.statements = []) →
      document (.structured r) f = (document (.textual r) f).erase unquoted) := by
  refine ⟨document_erase_eq fun x _ => pruned_agrees _ _ x, fun n hn => ?_, replyNodes_eq _ f, ?_,
    fun h => ?_⟩
  · have hn := mem_nodes_iff.2 hn
    refine ⟨no_statementText r f hn, fun hkind => ?_⟩
    rw [Node.attr?, attrs_eq_nil_of_structured r f hn hkind, Assoc.get?]
  · rw [workerNodes_eq, List.map_map]
    refine List.map_congr_left fun d _ => ?_
    show ((workerTree (.textual r) d).attr? "worker-name", textsIn (workerTree (.textual r) d)) = _
    rw [textsIn_workerTree]
    rfl
  · rw [← unquoted_structured]
    refine (document_erase_eq fun x hx => unquoted_agrees ?_).symm
    rintro d rfl
    exact h d (mem_workers hx)

/-- A file with one resource, which has one worker. -/
def workerFile (statements body : List Stmt) : File where
  packageName := "echo"
  imports := []
  constants := []
  services := [{
    name := "Echo"
    position := 0
    annotations := []
    locals := []
    connectors := []
    resources := [{
      name := "echo"
      position := 0
      annotations := []
      locals := []
      parameters := []
      connectors := []
      workers := [{ name := "w", position := 0, connectors := [], locals := [], statements }]
      body := some ⟨body⟩ }] }]
  functions := []
  connectors := []
  structs := []
  typeConverters := []
  mainInvoker := none

theorem workerFile_workers (statements body : List Stmt) :
    (workerFile statements body).workers =
      [{ name := "w", position := 0, connectors := [], locals := [], statements }] := by
  simp [File.workers, File.ordered, File.topLevel, workerFile, TopLevel.element, Element.workers]

theorem workerFile_replies (r : Renderer) (statements : List Stmt) (name : String) :
    repliesIn (.textual r) (workerFile statements [.reply (.variable name)]) =
      [.variable name] := by
  have hst : (Style.textual r).withText = true := rfl
  simp [repliesIn, reachedFrom, File.parts, File.ordered, File.topLevel, workerFile,
    TopLevel.element, reached_eq, entered, hst, Element.parts, Element.isStub, Expr.isStub,
    bodyStatements, Stmt.parts, Expr.parts, Element.replied?, List.filterMap_cons]

/-- The reply of the resource has its text in one style and not in the other. -/
theorem workerFile_documents :
    (document (.textual .source) (workerFile [] [.reply (.variable "x")])).nodes.filter
        (·.kind = .reply) =
      [⟨.reply, [("expression", .text "x")], [("children", [variableNode "x"])]⟩] ∧
    document (.structured .source) (workerFile [] [.reply (.variable "x")]) =
      (document (.textual .source) (workerFile [] [.reply (.variable "x")])).erase unquoted := by
  obtain ⟨-, -, hreplies, -, hquiet⟩ :=
    strategies_agree .source (workerFile [] [.reply (.variable "x")])
  refine ⟨?_, hquiet ?_⟩
  · rw [hreplies, workerFile_replies]
    rfl
  · simp [workerFile_workers]

/-! ## Two renderers -/

/-- The attribute is a text of the renderer. -/
def isRendered (k : Kind) (key : String) : Bool :=
  k = .reply ∧ key = "expression" ∨ k = .statementText ∧ key = "statement"

/-- The texts of the renderer are blank. -/
def blanked : Erasure where
  attrs k attrs := attrs.map fun (key, value) =>
    (key, if isRendered k key then .text "" else value)

theorem blanked_agrees (r r' : Renderer) (e : Element) :
    TextAgrees blanked (.textual r) (.textual r') e := by
  unfold TextAgrees
  split
  · rfl
  · intro _
    exact eraseInside_congr (eraseNodes_map_congr fun s _ => Node.erase_congr rfl rfl rfl)
  · trivial

theorem structured_agrees (E : Erasure) (r r' : Renderer) (e : Element) :
    TextAgrees E (.structured r) (.structured r') e := by
  unfold TextAgrees
  split
  · rfl
  · intro h
    rcases h with h | h <;> cases h
  · trivial

theorem textual_agrees {r r' : Renderer} {f : File} (E : Erasure)
    (hexpr : ∀ value ∈ repliesIn (.textual r) f, r.expr value = r'.expr value)
    (hstmt : ∀ d ∈ f.workers, ∀ s ∈ d.statements, r.stmt s = r'.stmt s) {e : Element}
    (he : e ∈ reachedFrom (.textual r) f) : TextAgrees E (.textual r) (.textual r') e := by
  unfold TextAgrees
  split
  · rename_i value
    have hvalue : value ∈ repliesIn (.textual r) f := List.mem_filterMap.2 ⟨_, he, rfl⟩
    show E.attrs .reply (replyAttrs (some (r.expr value))) =
      E.attrs .reply (replyAttrs (some (r'.expr value)))
    rw [hexpr value hvalue]
  · rename_i d
    intro _
    refine eraseInside_congr (eraseNodes_map_congr fun s hs => ?_)
    show (statementTextNode (r.stmt s)).erase E = (statementTextNode (r'.stmt s)).erase E
    rw [hstmt d (mem_workers he) s hs]
  · trivial

/-- **The renderer is not to be seen** in a document without texts. In one with texts
    it is seen in the texts of replies and statements only: the documents with two
    renderers are the same when these are blank, and they are equal if the
    renderers agree on the values of the replies that are reached and on the
    statements of workers. -/
theorem renderer_noninterference (r r' : Renderer) (f : File) :
    document (.structured r) f = document (.structured r') f ∧
    (document (.textual r) f).erase blanked = (document (.textual r') f).erase blanked ∧
    ((∀ value ∈ repliesIn (.textual r) f, r.expr value = r'.expr value) →
      (∀ d ∈ f.workers, ∀ s ∈ d.statements, r.stmt s = r'.stmt s) →
      document (.textual r) f = document (.textual r') f) := by
  refine ⟨?_, document_erase_eq fun e _ => blanked_agrees r r' e, fun hexpr hstmt => ?_⟩
  · rw [← erase_nothing (document (.structured r) f), ← erase_nothing (document (.structured r') f)]
    exact document_erase_eq fun e _ => structured_agrees {} r r' e
  · rw [← erase_nothing (document (.textual r) f), ← erase_nothing (document (.textual r') f)]
    exact document_erase_eq fun e he => textual_agrees {} hexpr hstmt he

/-- A renderer that knows no other texts may serve for the file as well. -/
theorem workerFile_constant_renderer :
    document (.textual .source) (workerFile [.comment "// c"] [.reply (.variable "x")]) =
      document (.textual { expr := fun _ => "x", stmt := fun _ => "// c" })
        (workerFile [.comment "// c"] [.reply (.variable "x")]) := by
  refine (renderer_noninterference .source _ _).2.2 ?_ ?_
  · rw [workerFile_replies]
    simp [Renderer.source, Expr.source]
  · rw [workerFile_workers]
    simp [Renderer.source, Stmt.source]

end TreeDoc.Model
