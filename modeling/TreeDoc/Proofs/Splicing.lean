/-
  Blocks are transparent.

  A block has no node of its own: its statements have theirs in its place. So a
  document does not show which statements stand together in a block.

  * `Stmt.spliced`, `spliceds`: blocks inside statements, and in lists of
    statements, replaced by their statements at all depths;
  * `Stmt.flat`, `stmtsFlat`: no list of statements has a block as an entry;
  * `File.mapBodies`: a change to the lists of statements of a file;
  * `blocks_transparent`: neither the emitter nor a document sees the difference.
-/
import TreeDoc.Proofs.Emitter
import TreeDoc.Proofs.Outline

namespace TreeDoc.Program

/-! ## Splicing -/

/-- What stands in a list of statements instead of one statement: the statements of
    a block. -/
def Stmt.entries : Stmt → List Stmt
  | .block statements => statements
  | s => [s]

mutual

/-- The statement with all lists in it spliced. A block stays a block, so that branches
    and bodies keep their form. -/
def Stmt.spliced : Stmt → Stmt
  | .block statements => .block (spliceds statements)
  | .ifElse condition thenBody elseBody =>
    .ifElse condition thenBody.spliced (optionSpliced elseBody)
  | .whileLoop condition body => .whileLoop condition (optionSpliced body)
  | s => s

/-- A statement that may be missing, with all lists in it spliced. -/
def optionSpliced : Option Stmt → Option Stmt
  | none => none
  | some s => some s.spliced

/-- The list in which every block is replaced by its statements, at all depths. -/
def spliceds : List Stmt → List Stmt
  | [] => []
  | s :: ss => s.spliced.entries ++ spliceds ss

end

mutual

/-- No list in the statement has a block as an entry. -/
def Stmt.flat : Stmt → Bool
  | .block statements => stmtsFlat statements
  | .ifElse _ thenBody elseBody => thenBody.flat && optionFlat elseBody
  | .whileLoop _ body => optionFlat body
  | _ => true

/-- No list in a statement that may be missing has a block as an entry. -/
def optionFlat : Option Stmt → Bool
  | none => true
  | some s => s.flat

/-- Neither the list nor one in its statements has a block as an entry. -/
def stmtsFlat : List Stmt → Bool
  | [] => true
  | s :: ss => !s.isBlock && s.flat && stmtsFlat ss

end

theorem stmtsFlat_append (ss ts : List Stmt) :
    stmtsFlat (ss ++ ts) = (stmtsFlat ss && stmtsFlat ts) := by
  induction ss with
  | nil => simp [stmtsFlat]
  | cons s ss ih => simp [stmtsFlat, ih, Bool.and_assoc]

theorem stmtsFlat_entries {s : Stmt} (h : s.flat = true) : stmtsFlat s.entries = true := by
  cases s with
  | block statements => simpa [Stmt.entries, Stmt.flat] using h
  | _ => simp [Stmt.entries, stmtsFlat, Stmt.isBlock, h]

mutual

theorem flat_spliced : ∀ s : Stmt, s.spliced.flat = true
  | .block statements => by
    rw [Stmt.spliced, Stmt.flat]
    exact flat_spliceds statements
  | .ifElse condition thenBody elseBody => by
    rw [Stmt.spliced, Stmt.flat, flat_spliced thenBody, flat_optionSpliced elseBody]
    rfl
  | .whileLoop condition body => by
    rw [Stmt.spliced, Stmt.flat]
    exact flat_optionSpliced body
  | .assign _ _ | .comment _ | .functionCall _ _ _ | .actionCall _ _ _ _ | .reply _
  | .returning _ => rfl

theorem flat_optionSpliced : ∀ o : Option Stmt, optionFlat (optionSpliced o) = true
  | none => rfl
  | some s => flat_spliced s

theorem flat_spliceds : ∀ ss : List Stmt, stmtsFlat (spliceds ss) = true
  | [] => rfl
  | s :: ss => by
    rw [spliceds, stmtsFlat_append, stmtsFlat_entries (flat_spliced s), flat_spliceds ss]
    rfl

end

/-! ## Files -/

section
variable (body worker : List Stmt → List Stmt)

/-- The resource with other lists of statements in its body and in its workers. -/
def ResourceDef.mapBodies (d : ResourceDef) : ResourceDef :=
  { d with
    workers := d.workers.map fun w => { w with statements := worker w.statements }
    body := d.body.map fun b => ⟨body b.statements⟩ }

/-- The service with other lists of statements in its resources. -/
def ServiceDef.mapBodies (d : ServiceDef) : ServiceDef :=
  { d with resources := d.resources.map (ResourceDef.mapBodies body worker) }

/-- The action with another list of statements. -/
def ActionDef.mapBodies (d : ActionDef) : ActionDef := { d with body := ⟨body d.body.statements⟩ }

/-- The connector with other lists of statements in its actions. -/
def ConnectorDef.mapBodies (d : ConnectorDef) : ConnectorDef :=
  { d with actions := d.actions.map (ActionDef.mapBodies body) }

/-- The function with another list of statements. -/
def FunctionDef.mapBodies (d : FunctionDef) : FunctionDef :=
  { d with body := ⟨body d.body.statements⟩ }

/-- The declaration with other lists of statements. -/
def TopLevel.mapBodies : TopLevel → TopLevel
  | .constant d => .constant d
  | .service d => .service (d.mapBodies body worker)
  | .function d => .function (d.mapBodies body)

/-- The file with other lists of statements: those of functions, actions and resources
    changed in one way, those of workers in another. -/
def File.mapBodies (f : File) : File :=
  { f with
    services := f.services.map (ServiceDef.mapBodies body worker)
    functions := f.functions.map (FunctionDef.mapBodies body)
    connectors := f.connectors.map (ConnectorDef.mapBodies body) }

theorem topLevel_mapBodies (f : File) :
    (f.mapBodies body worker).topLevel = f.topLevel.map (TopLevel.mapBodies body worker) := by
  simp only [File.topLevel, File.mapBodies, List.map_append, List.map_map]
  rfl

/-- Statements have no part in the order of the declarations. -/
theorem ordered_mapBodies (f : File) :
    (f.mapBodies body worker).ordered = f.ordered.map (TopLevel.mapBodies body worker) := by
  have hposition : ∀ d : TopLevel, (d.mapBodies body worker).position = d.position := by
    intro d
    cases d <;> rfl
  rw [File.ordered, topLevel_mapBodies, File.ordered, List.map_mergeSort]
  intro a _ b _
  rw [hposition, hposition]

end

/-- The file without blocks among the statements of functions, actions and resources,
    and, if asked for, of workers. -/
def File.spliced (workers : Bool) (f : File) : File :=
  f.mapBodies spliceds (if workers then spliceds else id)

end TreeDoc.Program

namespace TreeDoc.Model

open Document Program

/-! ## The nodes of spliced statements -/

theorem stmtListNodes_entries (st : Style) (s : Stmt) :
    stmtListNodes st s.entries = stmtNodes st s := by
  cases s with
  | block statements => rw [Stmt.entries, stmtNodes]
  | _ => exact stmtListNodes_singleton st _

mutual

theorem stmtNodes_spliced (st : Style) : ∀ s : Stmt, stmtNodes st s.spliced = stmtNodes st s
  | .block statements => by
    rw [Stmt.spliced, stmtNodes, stmtNodes, stmtListNodes_spliceds st statements]
  | .ifElse condition thenBody elseBody => by
    rw [Stmt.spliced, stmtNodes, stmtNodes, stmtNodes_spliced st thenBody,
      optionNodes_spliced st elseBody]
  | .whileLoop condition body => by
    rw [Stmt.spliced, stmtNodes, stmtNodes, optionNodes_spliced st body]
  | .assign _ _ | .comment _ | .functionCall _ _ _ | .actionCall _ _ _ _ | .reply _
  | .returning _ => rfl

theorem optionNodes_spliced (st : Style) :
    ∀ o : Option Stmt, optionNodes st (optionSpliced o) = optionNodes st o
  | none => rfl
  | some s => by rw [optionSpliced, optionNodes, optionNodes, stmtNodes_spliced st s]

theorem stmtListNodes_spliceds (st : Style) :
    ∀ ss : List Stmt, stmtListNodes st (spliceds ss) = stmtListNodes st ss
  | [] => rfl
  | s :: ss => by
    rw [spliceds, stmtListNodes_append, stmtListNodes_entries, stmtListNodes,
      stmtNodes_spliced st s, stmtListNodes_spliceds st ss]

end

/-! ## The document of a changed file -/

section
variable {st : Style} {body worker : List Stmt → List Stmt}
  (hbody : ∀ ss, stmtListNodes st (body ss) = stmtListNodes st ss)
  (hworker : ∀ ss, workerBody st (worker ss) = workerBody st ss)

include hbody in
theorem actionTree_mapBodies (d : ActionDef) :
    actionTree st (d.mapBodies body) = actionTree st d := by
  simp only [actionTree, ActionDef.mapBodies, hbody]
  rfl

include hbody in
theorem functionTree_mapBodies (d : FunctionDef) :
    functionTree st (d.mapBodies body) = functionTree st d := by
  simp only [functionTree, FunctionDef.mapBodies, hbody]
  rfl

include hbody in
theorem connectorTree_mapBodies (d : ConnectorDef) :
    connectorTree st (d.mapBodies body) = connectorTree st d := by
  simp only [connectorTree, ConnectorDef.mapBodies,
    map_outline (actionTree_mapBodies hbody) d.actions]
  rfl

include hbody in
theorem bodyNodes_map (o : Option Block) :
    bodyNodes st (o.map fun b => ⟨body b.statements⟩) = bodyNodes st o := by
  cases o with
  | none => rfl
  | some b => exact hbody b.statements

include hbody hworker

theorem resourceTree_mapBodies (d : ResourceDef) :
    resourceTree st (d.mapBodies body worker) = resourceTree st d := by
  have hworkers : ∀ w : WorkerDef,
      workerTree st { w with statements := worker w.statements } = workerTree st w := by
    intro w
    simp only [workerTree, hworker]
    rfl
  simp only [resourceTree, ResourceDef.mapBodies, map_outline hworkers d.workers,
    bodyNodes_map hbody]
  rfl

theorem topLevelTree_mapBodies (d : TopLevel) :
    topLevelTree st (d.mapBodies body worker) = topLevelTree st d := by
  cases d with
  | constant d => rfl
  | service d =>
    simp only [topLevelTree, TopLevel.mapBodies, serviceTree, ServiceDef.mapBodies,
      map_outline (resourceTree_mapBodies hbody hworker) d.resources]
    rfl
  | function d => exact functionTree_mapBodies hbody d

/-- A change to the statements that their nodes do not show is not seen in the document. -/
theorem document_mapBodies (f : File) :
    document st (f.mapBodies body worker) = document st f := by
  have hconnectors := map_outline (connectorTree_mapBodies hbody) f.connectors
  have hordered := map_outline (topLevelTree_mapBodies hbody hworker) f.ordered
  rw [document, document, ordered_mapBodies, hordered]
  simp only [File.mapBodies, hconnectors]
  rfl

end

/-- **Blocks are transparent in every position.** The emitter appends for a list with a
    block in it the nodes of the list with the statements of the block there. No blocks
    are left in spliced lists, at any depth, and the document is the same: in every
    style if the statements of workers stay as they are, and without texts if they are
    spliced as well. -/
theorem blocks_transparent (st : Style) :
    (∀ (before inner after : List Stmt) (top : List Node) (rest : List (List Node)),
      (Emitter.emitStmts st (before ++ [.block inner] ++ after)).run ⟨top :: rest⟩ =
        (.ok (), ⟨(top ++ stmtListNodes st (before ++ inner ++ after)) :: rest⟩) ∧
      (Emitter.emitStmts st (before ++ inner ++ after)).run ⟨top :: rest⟩ =
        (.ok (), ⟨(top ++ stmtListNodes st (before ++ inner ++ after)) :: rest⟩)) ∧
    (∀ ss, stmtsFlat (spliceds ss) = true) ∧
    (∀ f, document st (f.spliced false) = document st f) ∧
    ∀ r f, document (.structured r) (f.spliced true) = document (.structured r) f := by
  refine ⟨fun before inner after top rest => ?_, flat_spliceds, fun f => ?_, fun r f => ?_⟩
  · have hnodes : stmtListNodes st (before ++ [.block inner] ++ after) =
        stmtListNodes st (before ++ inner ++ after) := by
      rw [stmtListNodes_append, stmtListNodes_append, stmtListNodes_singleton, stmtNodes,
        stmtListNodes_append, stmtListNodes_append]
    refine ⟨?_, Emitter.emitStmts_spec st _ _⟩
    rw [← hnodes]
    exact Emitter.emitStmts_spec st _ _
  · exact document_mapBodies (stmtListNodes_spliceds st) (fun _ => rfl) f
  · have hnodes := stmtListNodes_spliceds (.structured r)
    exact document_mapBodies hnodes hnodes f

end TreeDoc.Model
