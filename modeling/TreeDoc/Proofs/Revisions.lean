/-
  Changes to the declarations of a file.

  A revision gives declarations other positions, and other lists of expressions and
  statements where they have some. A document has the nodes of these lists, and no node
  shows a position.

  * `Revision`, `File.revised`: revisions, and the file that one makes of another;
  * `Revision.Hidden`, `Revision.HidesWorker`: the new lists have the nodes of the old ones;
  * `connectorTree_revised`, `topLevelTree_revised`: then declarations have the same tree;
  * `document_revised`: and files the same document, if positions stay as they are.
-/
import TreeDoc.Proofs.Texts

namespace TreeDoc.Program

/-! ## Revisions -/

/-- A change to declarations: to the arguments of connector instances, to the statements
    of bodies and of workers, and to positions. -/
structure Revision where
  args : List Expr → List Expr := id
  body : List Stmt → List Stmt := id
  worker : List Stmt → List Stmt := id
  position : Position → Position := id

section
variable (ρ : Revision)

/-- The import after a change. -/
def ImportDecl.revised (d : ImportDecl) : ImportDecl :=
  { d with position := ρ.position d.position }

/-- The connector instance after a change. -/
def ConnectorDecl.revised (d : ConnectorDecl) : ConnectorDecl := { d with args := ρ.args d.args }

/-- The constant after a change. -/
def ConstantDef.revised (d : ConstantDef) : ConstantDef :=
  { d with position := ρ.position d.position }

/-- The worker after a change. -/
def WorkerDef.revised (d : WorkerDef) : WorkerDef :=
  { d with
    position := ρ.position d.position
    connectors := d.connectors.map (ConnectorDecl.revised ρ)
    statements := ρ.worker d.statements }

/-- The resource after a change. -/
def ResourceDef.revised (d : ResourceDef) : ResourceDef :=
  { d with
    position := ρ.position d.position
    connectors := d.connectors.map (ConnectorDecl.revised ρ)
    workers := d.workers.map (WorkerDef.revised ρ)
    body := d.body.map fun b => ⟨ρ.body b.statements⟩ }

/-- The service after a change. -/
def ServiceDef.revised (d : ServiceDef) : ServiceDef :=
  { d with
    position := ρ.position d.position
    connectors := d.connectors.map (ConnectorDecl.revised ρ)
    resources := d.resources.map (ResourceDef.revised ρ) }

/-- The action after a change. -/
def ActionDef.revised (d : ActionDef) : ActionDef :=
  { d with
    position := ρ.position d.position
    connectors := d.connectors.map (ConnectorDecl.revised ρ)
    body := ⟨ρ.body d.body.statements⟩ }

/-- The connector after a change. -/
def ConnectorDef.revised (d : ConnectorDef) : ConnectorDef :=
  { d with
    position := ρ.position d.position
    connectors := d.connectors.map (ConnectorDecl.revised ρ)
    actions := d.actions.map (ActionDef.revised ρ) }

/-- The function after a change. -/
def FunctionDef.revised (d : FunctionDef) : FunctionDef :=
  { d with
    position := ρ.position d.position
    connectors := d.connectors.map (ConnectorDecl.revised ρ)
    body := ⟨ρ.body d.body.statements⟩ }

/-- The struct type after a change. -/
def StructDef.revised (d : StructDef) : StructDef := { d with position := ρ.position d.position }

/-- The type converter after a change. -/
def TypeConverter.revised (d : TypeConverter) : TypeConverter :=
  { d with position := ρ.position d.position }

/-- The declaration after a change. -/
def TopLevel.revised : TopLevel → TopLevel
  | .constant d => .constant (d.revised ρ)
  | .service d => .service (d.revised ρ)
  | .function d => .function (d.revised ρ)

/-- The file after a change. -/
def File.revised (f : File) : File :=
  { f with
    imports := f.imports.map (ImportDecl.revised ρ)
    constants := f.constants.map (ConstantDef.revised ρ)
    services := f.services.map (ServiceDef.revised ρ)
    functions := f.functions.map (FunctionDef.revised ρ)
    connectors := f.connectors.map (ConnectorDef.revised ρ)
    structs := f.structs.map (StructDef.revised ρ)
    typeConverters := f.typeConverters.map (TypeConverter.revised ρ) }

theorem topLevel_revised (f : File) :
    (f.revised ρ).topLevel = f.topLevel.map (TopLevel.revised ρ) := by
  simp only [File.topLevel, File.revised, List.map_append, List.map_map]
  rfl

theorem position_revised (d : TopLevel) : (d.revised ρ).position = ρ.position d.position := by
  cases d <;> rfl

/-- Declarations whose positions stay the same keep their order. -/
theorem ordered_revised (hposition : ∀ p, ρ.position p = p) (f : File) :
    (f.revised ρ).ordered = f.ordered.map (TopLevel.revised ρ) := by
  rw [File.ordered, topLevel_revised, File.ordered, List.map_mergeSort]
  intro a _ b _
  rw [position_revised, position_revised, hposition, hposition]

end

end TreeDoc.Program

namespace TreeDoc.Model

open Document Program

/-! ## Changes that are not seen -/

/-- The lists of arguments and the bodies have the same nodes after a change, in a style
    that may be another one than before. -/
structure Revision.Hidden (ρ : Revision) (st st' : Style) : Prop where
  args : ∀ es, exprNodes (ρ.args es) = exprNodes es
  body : ∀ ss, stmtListNodes st (ρ.body ss) = stmtListNodes st' ss

/-- The statements of the worker have the same nodes after a change. -/
def Revision.HidesWorker (ρ : Revision) (st st' : Style) (d : WorkerDef) : Prop :=
  workerBody st (ρ.worker d.statements) = workerBody st' d.statements

theorem map_revised {α : Type} {revised : α → α} {tree tree' : α → Node} {ds : List α}
    (h : ∀ d ∈ ds, tree (revised d) = tree' d) : (ds.map revised).map tree = ds.map tree' := by
  rw [List.map_map]
  exact List.map_congr_left h

section
variable {ρ : Revision} {st st' : Style} (hidden : Revision.Hidden ρ st st')
include hidden

theorem connectorDeclNodes_revised (ds : List ConnectorDecl) :
    connectorDeclNodes (ds.map (ConnectorDecl.revised ρ)) = connectorDeclNodes ds := by
  refine map_revised fun d _ => ?_
  show connectorDeclNode d (exprNodes (ρ.args d.args)) = connectorDeclNode d (exprNodes d.args)
  rw [hidden.args]

theorem actionTree_revised (d : ActionDef) :
    actionTree st (d.revised ρ) = actionTree st' d := by
  simp only [actionTree, ActionDef.revised, connectorDeclNodes_revised hidden, hidden.body]
  rfl

theorem connectorTree_revised (d : ConnectorDef) :
    connectorTree st (d.revised ρ) = connectorTree st' d := by
  have hactions := map_revised fun a (_ : a ∈ d.actions) => actionTree_revised hidden a
  simp only [connectorTree, ConnectorDef.revised, connectorDeclNodes_revised hidden, hactions]
  rfl

theorem functionTree_revised (d : FunctionDef) :
    functionTree st (d.revised ρ) = functionTree st' d := by
  simp only [functionTree, FunctionDef.revised, connectorDeclNodes_revised hidden, hidden.body]
  rfl

theorem workerTree_revised {d : WorkerDef} (h : Revision.HidesWorker ρ st st' d) :
    workerTree st (d.revised ρ) = workerTree st' d := by
  have hbody : workerBody st (ρ.worker d.statements) = workerBody st' d.statements := h
  simp only [workerTree, WorkerDef.revised, connectorDeclNodes_revised hidden, hbody]
  rfl

theorem bodyNodes_revised (o : Option Block) :
    bodyNodes st (o.map fun b => ⟨ρ.body b.statements⟩) = bodyNodes st' o := by
  cases o with
  | none => rfl
  | some b => exact hidden.body b.statements

theorem resourceTree_revised {d : ResourceDef}
    (h : ∀ w ∈ d.workers, Revision.HidesWorker ρ st st' w) :
    resourceTree st (d.revised ρ) = resourceTree st' d := by
  have hworkers := map_revised fun w hw => workerTree_revised hidden (h w hw)
  simp only [resourceTree, ResourceDef.revised, connectorDeclNodes_revised hidden, hworkers,
    bodyNodes_revised hidden]
  rfl

theorem serviceTree_revised {d : ServiceDef}
    (h : ∀ w ∈ d.resources.flatMap ResourceDef.workers, Revision.HidesWorker ρ st st' w) :
    serviceTree st (d.revised ρ) = serviceTree st' d := by
  have hresources := map_revised fun e he => resourceTree_revised hidden fun w hw =>
    h w (List.mem_flatMap.2 ⟨e, he, hw⟩)
  simp only [serviceTree, ServiceDef.revised, connectorDeclNodes_revised hidden, hresources]
  rfl

theorem topLevelTree_revised {d : TopLevel}
    (h : ∀ w ∈ d.element.workers, Revision.HidesWorker ρ st st' w) :
    topLevelTree st (d.revised ρ) = topLevelTree st' d := by
  cases d with
  | constant d => rfl
  | service d => exact serviceTree_revised hidden h
  | function d => exact functionTree_revised hidden d

/-- **A change that is not seen.** If positions stay as they are and the new lists have the
    nodes of the old ones, then the document is the same. -/
theorem document_revised (hposition : ∀ p, ρ.position p = p) {f : File}
    (h : ∀ w ∈ f.workers, Revision.HidesWorker ρ st st' w) :
    document st (f.revised ρ) = document st' f := by
  have himports : (f.imports.map (ImportDecl.revised ρ)).map importNode =
      f.imports.map importNode := map_revised fun _ _ => rfl
  have hconnectors := map_revised fun d (_ : d ∈ f.connectors) => connectorTree_revised hidden d
  have hordered := map_revised fun d hd => topLevelTree_revised hidden fun w hw =>
    h w (List.mem_flatMap.2 ⟨d, hd, hw⟩)
  rw [document, document, ordered_revised ρ hposition, hordered]
  simp only [File.revised, himports, hconnectors]
  rfl

end

end TreeDoc.Model
