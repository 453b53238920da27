/-
  Stubs are not to be seen.

  An expression or statement that is a stub has no node, whatever is in it. So stubs may
  leave the lists that they stand in, and what is in them may be anything.

  * `Treatment`: what becomes of stubs: they are erased from lists, or emptied;
  * `Expr.treated`, `Stmt.treated`, `File.treated`: what is left then;
  * `Expr.cleared`, `Stmt.cleared`: no list has a stub as an entry;
  * `exprNode_treated`, `stmtNodes_treated`: stubs do not count for nodes;
  * `stubs_erasable`: nor do they count for documents.
-/
import TreeDoc.Proofs.Revisions

namespace TreeDoc.Program

/-! ## What becomes of stubs -/

/-- The statement has no node. -/
def Stmt.isStub : Stmt → Bool
  | .actionCall _ _ _ _ => true
  | _ => false

/-- What becomes of stubs. -/
structure Treatment where
  /-- Stubs leave the lists of arguments, targets, results and statements. -/
  removes : Bool
  /-- Stubs that stay lose all that is in them. -/
  empties : Bool

/-- Stubs are erased from lists, and stay where one expression or statement stands. -/
def Treatment.erasing : Treatment where
  removes := true
  empties := false

/-- Stubs stay where they are, and are all the same. -/
def Treatment.emptying : Treatment where
  removes := false
  empties := true

section
variable (t : Treatment)

/-- What becomes of a stub that stays. -/
def Treatment.stub (e : Expr) : Expr := if t.empties then .location ⟨.constant, 0⟩ else e

mutual

/-- The expression after a treatment of the stubs in it. -/
def Expr.treated : Expr → Expr
  | .functionCall name package args => .functionCall name package (treateds args)
  | .actionCall name connector package args => .actionCall name connector package (treateds args)
  | .literal l => .literal l
  | .binary op lhs rhs => .binary op lhs.treated rhs.treated
  | .unary op operand => .unary op operand.treated
  | .variable name => .variable name
  | .cast type operand => t.stub (.cast type operand.treated)
  | .array args => .array (treateds args)
  | .map args => t.stub (.map (treatedEach args))
  | .template content => .template content
  | .creation type => .creation type
  | .access name index => .access name index.treated
  | .keyValue key value => t.stub (.keyValue key.treated value.treated)
  | .structInit type args => t.stub (.structInit type (treatedEach args))
  | .fieldAccess name fields => t.stub (.fieldAccess name fields)
  | .resourceCall name args => t.stub (.resourceCall name (treatedEach args))
  | .location slot => t.stub (.location slot)

/-- The list of expressions after a treatment of the stubs in it. -/
def treateds : List Expr → List Expr
  | [] => []
  | e :: es => if t.removes && e.isStub then treateds es else e.treated :: treateds es

/-- The expressions after a treatment of the stubs in each of them. -/
def treatedEach : List Expr → List Expr
  | [] => []
  | e :: es => e.treated :: treatedEach es

end

mutual

/-- The statement after a treatment of the stubs in it. -/
def Stmt.treated : Stmt → Stmt
  | .block statements => .block (treatedStmts statements)
  | .assign lhs rhs => .assign (treateds t lhs) (rhs.treated t)
  | .comment text => .comment text
  | .ifElse condition thenBody elseBody =>
    .ifElse (condition.treated t) thenBody.treated (treatedOption elseBody)
  | .whileLoop condition body => .whileLoop (condition.treated t) (treatedOption body)
  | .functionCall name package args => .functionCall name package (treateds t args)
  | .actionCall name connector package args =>
    if t.empties then .actionCall "" "" none []
    else .actionCall name connector package (treateds t args)
  | .reply value => .reply (value.treated t)
  | .returning values => .returning (treateds t values)

/-- A statement that may be missing, after a treatment of the stubs in it. -/
def treatedOption : Option Stmt → Option Stmt
  | none => none
  | some s => some s.treated

/-- The list of statements after a treatment of the stubs in it. -/
def treatedStmts : List Stmt → List Stmt
  | [] => []
  | s :: ss => if t.removes && s.isStub then treatedStmts ss else s.treated :: treatedStmts ss

end

/-- A treatment of stubs as a change to declarations. -/
def Treatment.revision : Revision where
  args := treateds t
  body := treatedStmts t
  worker := treatedStmts t

/-- The file after a treatment of the stubs in it. Struct types, type converters and the
    main invoker are stubs as well. -/
def File.treated (f : File) : File :=
  { f.revised t.revision with structs := [], typeConverters := [], mainInvoker := none }

end

/-- The file with all stubs erased from lists. -/
def File.erased (f : File) : File := f.treated .erasing

/-- The file with nothing in its stubs. -/
def File.emptied (f : File) : File := f.treated .emptying

/-! ## Lists without stubs -/

mutual

/-- No list of arguments in the expression has a stub as an entry. -/
def Expr.cleared : Expr → Bool
  | .functionCall _ _ args | .actionCall _ _ _ args | .array args => exprsCleared args
  | .binary _ lhs rhs => lhs.cleared && rhs.cleared
  | .keyValue key value => key.cleared && value.cleared
  | .unary _ operand | .cast _ operand => operand.cleared
  | .access _ index => index.cleared
  | .map args | .structInit _ args | .resourceCall _ args => eachCleared args
  | .literal _ | .variable _ | .template _ | .creation _ | .fieldAccess _ _ | .location _ => true

/-- Neither the list nor one in its expressions has a stub as an entry. -/
def exprsCleared : List Expr → Bool
  | [] => true
  | e :: es => !e.isStub && e.cleared && exprsCleared es

/-- No list in the expressions has a stub as an entry. -/
def eachCleared : List Expr → Bool
  | [] => true
  | e :: es => e.cleared && eachCleared es

end

mutual

/-- No list in the statement has a stub as an entry. -/
def Stmt.cleared : Stmt → Bool
  | .block statements => stmtsCleared statements
  | .assign lhs rhs => exprsCleared lhs && rhs.cleared
  | .comment _ => true
  | .ifElse condition thenBody elseBody =>
    condition.cleared && thenBody.cleared && optionCleared elseBody
  | .whileLoop condition body => condition.cleared && optionCleared body
  | .functionCall _ _ args | .actionCall _ _ _ args => exprsCleared args
  | .reply value => value.cleared
  | .returning values => exprsCleared values

/-- No list in a statement that may be missing has a stub as an entry. -/
def optionCleared : Option Stmt → Bool
  | none => true
  | some s => s.cleared

/-- Neither the list nor one in its statements has a stub as an entry. -/
def stmtsCleared : List Stmt → Bool
  | [] => true
  | s :: ss => !s.isStub && s.cleared && stmtsCleared ss

end

theorem stub_erasing (e : Expr) : Treatment.erasing.stub e = e := rfl

theorem isStub_stub (t : Treatment) {e : Expr} (h : e.isStub = true) :
    (t.stub e).isStub = true := by
  unfold Treatment.stub
  split
  · rfl
  · exact h

theorem isStub_treated (t : Treatment) (e : Expr) : (e.treated t).isStub = e.isStub := by
  cases e <;> rw [Expr.treated] <;> first | rfl | exact isStub_stub t rfl

theorem isStub_treatedStmt (t : Treatment) (s : Stmt) : (s.treated t).isStub = s.isStub := by
  cases s with
  | actionCall name connector package args =>
    rw [Stmt.treated]
    split <;> rfl
  | _ => rfl

mutual

theorem cleared_erased : ∀ e : Expr, (e.treated .erasing).cleared = true
  | .functionCall name package args => by
    simpa [Expr.treated, Expr.cleared] using cleared_eraseds args
  | .actionCall name connector package args => by
    simpa [Expr.treated, Expr.cleared] using cleared_eraseds args
  | .array args => by simpa [Expr.treated, Expr.cleared] using cleared_eraseds args
  | .binary op lhs rhs => by
    simp [Expr.treated, Expr.cleared, cleared_erased lhs, cleared_erased rhs]
  | .keyValue key value => by
    simp [Expr.treated, stub_erasing, Expr.cleared, cleared_erased key, cleared_erased value]
  | .unary op operand => by simpa [Expr.treated, Expr.cleared] using cleared_erased operand
  | .cast type operand => by
    simpa [Expr.treated, stub_erasing, Expr.cleared] using cleared_erased operand
  | .access name index => by simpa [Expr.treated, Expr.cleared] using cleared_erased index
  | .map args => by simpa [Expr.treated, stub_erasing, Expr.cleared] using cleared_erasedEach args
  | .structInit type args => by
    simpa [Expr.treated, stub_erasing, Expr.cleared] using cleared_erasedEach args
  | .resourceCall name args => by
    simpa [Expr.treated, stub_erasing, Expr.cleared] using cleared_erasedEach args
  | .literal _ | .variable _ | .template _ | .creation _ | .fieldAccess _ _ | .location _ => rfl

theorem cleared_eraseds : ∀ es : List Expr, exprsCleared (treateds .erasing es) = true
  | [] => rfl
  | e :: es => by
    rw [treateds]
    split
    · exact cleared_eraseds es
    · rename_i hstub
      have hstub : e.isStub = false := by simpa [Treatment.erasing] using hstub
      simp [exprsCleared, isStub_treated, hstub, cleared_erased e, cleared_eraseds es]

theorem cleared_erasedEach : ∀ es : List Expr, eachCleared (treatedEach .erasing es) = true
  | [] => rfl
  | e :: es => by simp [treatedEach, eachCleared, cleared_erased e, cleared_erasedEach es]

end

mutual

theorem cleared_erasedStmt : ∀ s : Stmt, (s.treated .erasing).cleared = true
  | .block statements => by simpa [Stmt.treated, Stmt.cleared] using cleared_erasedStmts statements
  | .assign lhs rhs => by simp [Stmt.treated, Stmt.cleared, cleared_eraseds, cleared_erased]
  | .comment _ => rfl
  | .ifElse condition thenBody elseBody => by
    simp [Stmt.treated, Stmt.cleared, cleared_erased, cleared_erasedStmt thenBody,
      cleared_erasedOption elseBody]
  | .whileLoop condition body => by
    simp [Stmt.treated, Stmt.cleared, cleared_erased, cleared_erasedOption body]
  | .functionCall name package args => by simp [Stmt.treated, Stmt.cleared, cleared_eraseds]
  | .actionCall name connector package args => by
    simpa [Stmt.treated, Treatment.erasing, Stmt.cleared] using cleared_eraseds args
  | .reply value => by simp [Stmt.treated, Stmt.cleared, cleared_erased]
  | .returning values => by simp [Stmt.treated, Stmt.cleared, cleared_eraseds]

theorem cleared_erasedOption : ∀ o : Option Stmt, optionCleared (treatedOption .erasing o) = true
  | none => rfl
  | some s => cleared_erasedStmt s

theorem cleared_erasedStmts : ∀ ss : List Stmt, stmtsCleared (treatedStmts .erasing ss) = true
  | [] => rfl
  | s :: ss => by
    rw [treatedStmts]
    split
    · exact cleared_erasedStmts ss
    · rename_i hstub
      have hstub : s.isStub = false := by simpa [Treatment.erasing] using hstub
      simp [stmtsCleared, isStub_treatedStmt, hstub, cleared_erasedStmt s, cleared_erasedStmts ss]

end

theorem length_treatedStmts (t : Treatment) :
    ∀ ss : List Stmt, (treatedStmts t ss).length ≤ ss.length
  | [] => le_rfl
  | s :: ss => by
    have ih := length_treatedStmts t ss
    rw [treatedStmts]
    split <;> simp only [List.length_cons] <;> omega

/-- If a list of statements stays as it is, then so does every statement in it. -/
theorem treated_of_mem {t : Treatment} : ∀ {ss : List Stmt}, treatedStmts t ss = ss →
    ∀ s ∈ ss, s.treated t = s
  | [], _ => by simp
  | s :: ss, h => by
    rw [treatedStmts] at h
    split at h
    · -- A list that has lost an entry is too short.
      have hlength := length_treatedStmts t ss
      rw [h, List.length_cons] at hlength
      omega
    · obtain ⟨hs, hss⟩ := List.cons.inj h
      exact List.forall_mem_cons.2 ⟨hs, treated_of_mem hss⟩

theorem treatedStmts_of_stay {t : Treatment} (h : t.removes = false) :
    ∀ ss : List Stmt, treatedStmts t ss = ss.map (Stmt.treated t)
  | [] => rfl
  | s :: ss => by simp [treatedStmts, h, treatedStmts_of_stay h ss]

end TreeDoc.Program

namespace TreeDoc.Model

open Document Program

/-! ## Nodes -/

theorem exprNode_of_isStub {e : Expr} (h : e.isStub = true) : exprNode e = none := by
  cases e <;> first | rfl | cases h

theorem exprNode_stub (t : Treatment) {e : Expr} (h : e.isStub = true) :
    exprNode (t.stub e) = none := exprNode_of_isStub (isStub_stub t h)

mutual

/-- **The node of an expression** does not depend on the stubs in it. -/
theorem exprNode_treated (t : Treatment) : ∀ e : Expr, exprNode (e.treated t) = exprNode e
  | .functionCall name package args => by
    rw [Expr.treated, exprNode, exprNode, exprNodes_treateds t args]
  | .actionCall name connector package args => by
    rw [Expr.treated, exprNode, exprNode, exprNodes_treateds t args]
  | .binary op lhs rhs => by
    rw [Expr.treated, exprNode, exprNode, exprNode_treated t lhs, exprNode_treated t rhs]
  | .unary op operand => by rw [Expr.treated, exprNode, exprNode, exprNode_treated t operand]
  | .array args => by rw [Expr.treated, exprNode, exprNode, exprNodes_treateds t args]
  | .access name index => by rw [Expr.treated, exprNode, exprNode, exprNode_treated t index]
  | .literal _ | .variable _ | .template _ | .creation _ => by rw [Expr.treated]
  | .cast _ _ | .map _ | .keyValue _ _ | .structInit _ _ | .fieldAccess _ _ | .resourceCall _ _
  | .location _ => by
    rw [Expr.treated]
    exact exprNode_stub t rfl

theorem exprNodes_treateds (t : Treatment) :
    ∀ es : List Expr, exprNodes (treateds t es) = exprNodes es
  | [] => by rw [treateds]
  | e :: es => by
    rw [treateds]
    split
    · rename_i hstub
      have hnone := exprNode_of_isStub (Bool.and_eq_true_iff.1 hstub).2
      rw [exprNodes, exprNodes_treateds t es, hnone, Option.toList_none, List.nil_append]
    · rw [exprNodes, exprNodes, exprNode_treated t e, exprNodes_treateds t es]

end

theorem stmtNodes_of_isStub (st : Style) {s : Stmt} (h : s.isStub = true) :
    stmtNodes st s = [] := by
  cases s with
  | actionCall name connector package args => rw [stmtNodes]
  | _ => cases h

/-- The texts of replies in one style, after a treatment of stubs, are those of the other
    style before. -/
def SameReplies (t : Treatment) (st st' : Style) : Prop :=
  ∀ value : Expr, st.replyText (value.treated t) = st'.replyText value

section
variable {t : Treatment} {st st' : Style}

mutual

/-- **The nodes of a statement** do not depend on the stubs in it, if the texts of replies
    do not. -/
theorem stmtNodes_treated (hreply : SameReplies t st st') :
    ∀ s : Stmt, stmtNodes st (s.treated t) = stmtNodes st' s
  | .block statements => by
    rw [Stmt.treated, stmtNodes, stmtNodes, stmtListNodes_treated hreply statements]
  | .assign lhs rhs => by
    rw [Stmt.treated, stmtNodes, stmtNodes, exprNodes_treateds, exprNode_treated]
  | .comment text => by rw [Stmt.treated, stmtNodes, stmtNodes]
  | .ifElse condition thenBody elseBody => by
    rw [Stmt.treated, stmtNodes, stmtNodes, exprNode_treated, stmtNodes_treated hreply thenBody,
      optionNodes_treated hreply elseBody]
  | .whileLoop condition body => by
    rw [Stmt.treated, stmtNodes, stmtNodes, exprNode_treated, optionNodes_treated hreply body]
  | .functionCall name package args => by
    rw [Stmt.treated, stmtNodes, stmtNodes, exprNodes_treateds]
  | .actionCall name connector package args => by
    rw [stmtNodes_of_isStub st' rfl]
    exact stmtNodes_of_isStub st (isStub_treatedStmt t _)
  | .reply value => by rw [Stmt.treated, stmtNodes, stmtNodes, exprNode_treated, hreply value]
  | .returning values => by rw [Stmt.treated, stmtNodes, stmtNodes, exprNodes_treateds]

theorem optionNodes_treated (hreply : SameReplies t st st') :
    ∀ o : Option Stmt, optionNodes st (treatedOption t o) = optionNodes st' o
  | none => by rw [treatedOption, optionNodes, optionNodes]
  | some s => by rw [treatedOption, optionNodes, optionNodes, stmtNodes_treated hreply s]

theorem stmtListNodes_treated (hreply : SameReplies t st st') :
    ∀ ss : List Stmt, stmtListNodes st (treatedStmts t ss) = stmtListNodes st' ss
  | [] => by rw [treatedStmts, stmtListNodes, stmtListNodes]
  | s :: ss => by
    rw [treatedStmts]
    split
    · rename_i hstub
      have hnone := stmtNodes_of_isStub st' (Bool.and_eq_true_iff.1 hstub).2
      rw [stmtListNodes, stmtListNodes_treated hreply ss, hnone, List.nil_append]
    · rw [stmtListNodes, stmtListNodes, stmtNodes_treated hreply s, stmtListNodes_treated hreply ss]

end

theorem hidden_treated (hreply : SameReplies t st st') : Revision.Hidden t.revision st st' :=
  ⟨exprNodes_treateds t, stmtListNodes_treated hreply⟩

theorem document_treated (hreply : SameReplies t st st') {f : File}
    (h : ∀ d ∈ f.workers, Revision.HidesWorker t.revision st st' d) :
    document st (f.treated t) = document st' f :=
  document_revised (hidden_treated hreply) (fun _ => rfl) h

end

/-! ## Documents -/

theorem document_structured_treated (t : Treatment) (r : Renderer) (f : File) :
    document (.structured r) (f.treated t) = document (.structured r) f :=
  document_treated (fun _ => rfl) fun d _ => stmtListNodes_treated (fun _ => rfl) d.statements

/-- The texts of expressions and statements after a treatment of the stubs in them. -/
def Renderer.after (r : Renderer) (t : Treatment) : Renderer where
  expr e := r.expr (e.treated t)
  stmt s := r.stmt (s.treated t)

/-- A treatment of stubs is seen in texts only, if no worker loses a statement. -/
theorem document_textual_treated {t : Treatment} (r : Renderer) {f : File}
    (h : ∀ d ∈ f.workers, treatedStmts t d.statements = d.statements.map (Stmt.treated t)) :
    document (.textual r) (f.treated t) = document (.textual (r.after t)) f := by
  refine document_treated (fun _ => rfl) fun d hd => ?_
  show (treatedStmts t d.statements).map _ = d.statements.map _
  rw [h d hd, List.map_map]
  rfl

theorem document_textual_erased {r : Renderer} {f : File}
    (hreplies : ∀ value ∈ repliesIn (.textual r) f, value.treated .erasing = value)
    (hworkers : ∀ d ∈ f.workers, treatedStmts .erasing d.statements = d.statements) :
    document (.textual r) f.erased = document (.textual r) f := by
  have hstay : ∀ d ∈ f.workers,
      treatedStmts .erasing d.statements = d.statements.map (Stmt.treated .erasing) := by
    intro d hd
    have hid : d.statements.map (Stmt.treated .erasing) = d.statements.map id :=
      List.map_congr_left (treated_of_mem (hworkers d hd))
    rw [hworkers d hd, hid, List.map_id]
  rw [File.erased, document_textual_treated r hstay, ← erase_nothing (document (.textual r) f),
    ← erase_nothing (document (.textual (r.after .erasing)) f)]
  refine (document_erase_eq fun e he => textual_agrees {} ?_ ?_ he).symm
  · intro value hvalue
    exact congrArg r.expr (hreplies value hvalue).symm
  · intro d hd s hs
    exact congrArg r.stmt (treated_of_mem (hworkers d hd) s hs).symm

theorem document_textual_emptied (r : Renderer) (f : File) :
    (document (.textual r) f.emptied).erase blanked = (document (.textual r) f).erase blanked := by
  rw [File.emptied, document_textual_treated r fun d _ => treatedStmts_of_stay rfl d.statements]
  exact document_erase_eq fun e _ => blanked_agrees _ r e

/-- **Stubs are erasable.** Erasing leaves no stub in a list, at any depth, and does not
    change a document without texts. It does not change a document with texts either, if
    the values of replies and the statements of workers stay as they are. Nothing that is
    in a stub reaches a document: files that differ only there have the same document
    without texts, and with texts the same but for the texts of the renderer. -/
theorem stubs_erasable (r : Renderer) (f : File) :
    (∀ es, exprsCleared (treateds .erasing es) = true) ∧
    (∀ ss, stmtsCleared (treatedStmts .erasing ss) = true) ∧
    document (.structured r) f.erased = document (.structured r) f ∧
    ((∀ value ∈ repliesIn (.textual r) f, value.treated .erasing = value) →
      (∀ d ∈ f.workers, treatedStmts .erasing d.statements = d.statements) →
      document (.textual r) f.erased = document (.textual r) f) ∧
    ∀ g : File, g.emptied = f.emptied →
      document (.structured r) g = document (.structured r) f ∧
      (document (.textual r) g).erase blanked = (document (.textual r) f).erase blanked := by
  refine ⟨cleared_eraseds, cleared_erasedStmts, document_structured_treated .erasing r f,
    document_textual_erased, fun g hg => ⟨?_, ?_⟩⟩
  · rw [← document_structured_treated .emptying r g, ← document_structured_treated .emptying r f]
    exact congrArg (document (.structured r)) hg
  · rw [← document_textual_emptied r g, hg, document_textual_emptied r f]

/-- A file with a cast among returned values and an action call among statements. -/
def stubbedFile (operand : Expr) (args : List Expr) : File :=
  { workerFile [.comment "// c"] [.returning [.variable "x", .cast "int" operand],
      .actionCall "get" "c" none args, .reply (.variable "x")] with
    structs := [{ name := "Point", fields := [], position := 0 }]
    mainInvoker := some { function := "main" } }

theorem stubbedFile_replies (r : Renderer) (operand : Expr) (args : List Expr) :
    repliesIn (.textual r) (stubbedFile operand args) = [.variable "x"] := by
  have hst : (Style.textual r).withText = true := rfl
  simp [repliesIn, reachedFrom, File.parts, File.ordered, File.topLevel, stubbedFile, workerFile,
    TopLevel.element, reached_eq, entered, hst, Element.parts, Element.isStub, Expr.isStub,
    bodyStatements, Stmt.parts, Expr.parts, Element.replied?, List.filterMap_cons]

/-- Both stubs of the file are erased, and its documents do not show what was in them. -/
theorem stubbedFile_documents :
    (stubbedFile (.variable "y") []).erased =
      workerFile [.comment "// c"] [.returning [.variable "x"], .reply (.variable "x")] ∧
    document (.textual .source) (stubbedFile (.variable "y") []).erased =
      document (.textual .source) (stubbedFile (.variable "y") []) ∧
    document (.structured .source) (stubbedFile (.call "f" []) [.int 1]) =
      document (.structured .source) (stubbedFile (.variable "y") []) := by
  obtain ⟨-, -, -, htextual, hemptied⟩ := stubs_erasable .source (stubbedFile (.variable "y") [])
  refine ⟨rfl, htextual ?_ ?_, (hemptied (stubbedFile (.call "f" []) [.int 1]) rfl).1⟩
  · rw [stubbedFile_replies]
    simp [Expr.treated]
  · have hworkers : (stubbedFile (.variable "y") []).workers =
        (workerFile [.comment "// c"] []).workers := by
      simp [File.workers, File.ordered, File.topLevel, stubbedFile, workerFile, TopLevel.element,
        Element.workers]
    rw [hworkers, workerFile_workers]
    simp [treatedStmts, Stmt.isStub, Stmt.treated]

end TreeDoc.Model
