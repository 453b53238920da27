/-
  The constructs of a program, and what they are made of.

  A construct is a structure of a program file, a statement or an expression. In it there
  are others, directly or in lists.

  * `Construct`, `Construct.contents`: constructs, and those that stand directly in one;
  * `Content`, `Values.contents`: values with their shapes, and those that fields hold;
  * `Made`: a value and what it is made of;
  * `Made.constructs`: the constructs in a value are those among what it is made of.
-/
import TreeDoc.Decode.Layouts
import TreeDoc.Proofs.Reach

namespace TreeDoc.Program

open Decode (Record)

/-! ## Constructs -/

/-- A structure of a program file, a statement or an expression. -/
inductive Construct where
  | record (record : Record) (value : record.Carrier)
  | stmt (statement : Stmt)
  | expr (expression : Expr)

/-- The expressions and statements that a statement is made of. -/
def Stmt.contents : Stmt → List Construct
  | .block statements => statements.map .stmt
  | .assign lhs rhs => lhs.map .expr ++ [.expr rhs]
  | .comment _ => []
  | .ifElse condition thenBody elseBody =>
    .expr condition :: .stmt thenBody :: elseBody.toList.map .stmt
  | .whileLoop condition body => .expr condition :: body.toList.map .stmt
  | .functionCall _ _ args | .actionCall _ _ _ args => args.map .expr
  | .reply value => [.expr value]
  | .returning values => values.map .expr

/-- The constructs that stand directly in a construct. -/
def Construct.contents : Construct → List Construct
  | .record .file f =>
    f.imports.map (.record .importDecl) ++ f.constants.map (.record .constant) ++
      f.services.map (.record .service) ++ f.functions.map (.record .function) ++
      f.connectors.map (.record .connector) ++ f.structs.map (.record .struct) ++
      f.typeConverters.map (.record .typeConverter) ++
      f.mainInvoker.toList.map (.record .mainInvoker)
  | .record .service d =>
    d.annotations.map (.record .annotationDef) ++ d.locals.map (.record .variableDecl) ++
      d.connectors.map (.record .connectorDecl) ++ d.resources.map (.record .resource)
  | .record .connector d =>
    d.annotations.map (.record .annotationDef) ++ d.locals.map (.record .variableDecl) ++
      d.parameters.map (.record .parameter) ++ d.connectors.map (.record .connectorDecl) ++
      d.actions.map (.record .action)
  | .record .function d =>
    d.annotations.map (.record .annotationDef) ++ d.locals.map (.record .variableDecl) ++
      d.parameters.map (.record .parameter) ++ d.connectors.map (.record .connectorDecl) ++
      d.results.map (.record .returnParameter) ++ [.record .block d.body]
  | .record .action d =>
    d.annotations.map (.record .annotationDef) ++ d.locals.map (.record .variableDecl) ++
      d.parameters.map (.record .parameter) ++ d.connectors.map (.record .connectorDecl) ++
      d.results.map (.record .returnParameter) ++ [.record .block d.body]
  | .record .resource d =>
    d.annotations.map (.record .annotationDef) ++ d.locals.map (.record .variableDecl) ++
      d.parameters.map (.record .parameter) ++ d.connectors.map (.record .connectorDecl) ++
      d.workers.map (.record .worker) ++ d.body.toList.map (.record .block)
  | .record .worker d =>
    d.connectors.map (.record .connectorDecl) ++ d.locals.map (.record .variableDecl) ++
      d.statements.map .stmt
  | .record .parameter d => d.annotations.map (.record .annotationDef)
  | .record .connectorDecl d => d.args.map .expr
  | .record .constant d => [.record .typedLiteral d.value]
  | .record .struct d => d.fields.map (.record .variableDecl)
  | .record .block b => b.statements.map .stmt
  | .record .importDecl _ | .record .annotationDef _ | .record .returnParameter _
  | .record .variableDecl _ | .record .typeConverter _ | .record .mainInvoker _
  | .record .typedLiteral _ | .record .settings _ => []
  | .stmt s => s.contents
  | .expr e => e.parts.map .expr

end TreeDoc.Program

namespace TreeDoc.Decode

open Program

/-! ## What values are made of -/

/-- The constructs that a value of a shape is, or is a list of. -/
def Shape.constructs : (s : Shape) → s.Carrier → List Construct
  | .record r, a => [.record r a]
  | .stmt, s => [.stmt s]
  | .expr, e => [.expr e]
  | .list s, as => as.flatMap s.constructs
  | .text, _ | .flag, _ | .position, _ | .offset, _ | .attributes, _ | .literal, _
  | .choice _, _ => []

/-- A value of some shape. -/
abbrev Content := (s : Shape) × s.Carrier

/-- What the value of a field is made of. -/
def Field.contents : (f : Field) → f.Carrier → List Content
  | .required _ s, a | .defaulted _ s, a => [⟨s, a⟩]
  | .optional _ s, a => a.toList.map fun b => ⟨s, b⟩

/-- What the values of fields are made of. -/
def Values.contents : (fs : List Field) → Values fs → List Content
  | [], _ => []
  | f :: fs, vs => f.contents vs.1 ++ Values.contents fs vs.2

/-- What the values that are found so far are made of. -/
def Slots.contents : (fs : List Field) → Slots fs → List Content
  | [], _ => []
  | f :: fs, slots => slots.1.toList.flatMap f.contents ++ Slots.contents fs slots.2

/-- **What a value is made of**: the items of a list, the values of the fields of anything
    else. -/
inductive Made : (s : Shape) → s.Carrier → List Content → Prop
  | list {s : Shape} (as : List s.Carrier) : Made (.list s) as (as.map fun a => ⟨s, a⟩)
  | record {r : Record} (vs : Values r.layout.fields) :
    Made (.record r) (r.layout.build vs) (Values.contents _ vs)
  | expr {w : Variant Expr} (hw : w ∈ exprVariants) (vs : Values w.layout.fields) :
    Made .expr (w.layout.build vs) (Values.contents _ vs)
  | stmt {w : Variant Stmt} (hw : w ∈ stmtVariants) (vs : Values w.layout.fields) :
    Made .stmt (w.layout.build vs) (Values.contents _ vs)

/-- The constructs that contents are, or are lists of. -/
def constructsOf (cs : List Content) : List Construct := cs.flatMap fun c => c.1.constructs c.2

section
variable (cs ds : List Content)

@[simp] theorem constructsOf_nil : constructsOf [] = [] := rfl

@[simp] theorem constructsOf_cons (c : Content) :
    constructsOf (c :: cs) = c.1.constructs c.2 ++ constructsOf cs := List.flatMap_cons

@[simp] theorem constructsOf_append :
    constructsOf (cs ++ ds) = constructsOf cs ++ constructsOf ds := List.flatMap_append

end

@[simp] theorem constructs_list (s : Shape) (as : List s.Carrier) :
    Shape.constructs (.list s) as = as.flatMap s.constructs := by rw [Shape.constructs]

@[simp] theorem constructs_record (r : Record) :
    Shape.constructs (.record r) = fun a => [.record r a] := by
  funext a
  rw [Shape.constructs]

@[simp] theorem constructs_stmt : Shape.constructs .stmt = fun s => [.stmt s] := by
  funext s
  rw [Shape.constructs]

@[simp] theorem constructs_expr : Shape.constructs .expr = fun e => [.expr e] := by
  funext e
  rw [Shape.constructs]

section
variable (k : String) (s : Shape)

@[simp] theorem constructs_required (a : s.Carrier) :
    constructsOf ((Field.required k s).contents a) = s.constructs a := by
  simp [Field.contents]

@[simp] theorem constructs_defaulted (a : s.Carrier) :
    constructsOf ((Field.defaulted k s).contents a) = s.constructs a := by
  simp [Field.contents]

@[simp] theorem constructs_optional (a : Option s.Carrier) :
    constructsOf ((Field.optional k s).contents a) = a.toList.flatMap s.constructs := by
  rw [Field.contents, constructsOf, List.flatMap_map]

end

/-- The constructs in a structure are those among the values of its fields. -/
theorem contents_record (r : Record) (vs : Values r.layout.fields) :
    (Construct.record r (r.layout.build vs)).contents = constructsOf (Values.contents _ vs) := by
  cases r <;>
    simp [Record.layout, fileLayout, importLayout, serviceLayout, connectorLayout,
      functionLayout, actionLayout, resourceLayout, workerLayout, annotationLayout,
      parameterLayout, returnParameterLayout, connectorDeclLayout, variableLayout,
      constantLayout, structLayout, typeConverterLayout, mainInvokerLayout, blockLayout,
      typedLiteralLayout, settingsLayout, Construct.contents, Values.contents, Shape.constructs,
      ← List.map_eq_flatMap]

theorem contents_expr : ∀ w ∈ exprVariants, ∀ vs : Values w.layout.fields,
    (Construct.expr (w.layout.build vs)).contents = constructsOf (Values.contents _ vs) := by
  simp [exprVariants, functionCallLayout, actionCallLayout, literalExprLayout,
    typedLiteralLayout, slotLayout, Construct.contents, Expr.parts, Values.contents,
    Shape.constructs, ← List.map_eq_flatMap]

theorem contents_stmt : ∀ w ∈ stmtVariants, ∀ vs : Values w.layout.fields,
    (Construct.stmt (w.layout.build vs)).contents = constructsOf (Values.contents _ vs) := by
  simp [stmtVariants, functionCallLayout, actionCallLayout, blockStmtLayout, blockLayout,
    Construct.contents, Stmt.contents, Values.contents, Shape.constructs, ← List.map_eq_flatMap]

/-- A list has the constructs of its items. Anything else is a construct, which has them as
    its contents. -/
theorem Made.constructs {s : Shape} {a : s.Carrier} {cs : List Content} (h : Made s a cs) :
    s.constructs a = constructsOf cs ∨
      ∃ c, s.constructs a = [c] ∧ c.contents = constructsOf cs := by
  cases h with
  | list as => exact .inl (by simp [constructsOf, List.flatMap_map])
  | record vs => exact .inr ⟨_, by rw [constructs_record], contents_record _ vs⟩
  | expr hw vs => exact .inr ⟨_, by rw [constructs_expr], contents_expr _ hw vs⟩
  | stmt hw vs => exact .inr ⟨_, by rw [constructs_stmt], contents_stmt _ hw vs⟩

end TreeDoc.Decode
