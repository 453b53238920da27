/-
  The format of program files.

  What is written for each part of a program is given here part by part, with the
  names of its fields in their order. Fields that have a default may be left out of
  an object if they have it, and an optional field without a value is a null.

  * `exprCode`, `stmtCode`, …, `fileCode`: what is written for each part;
  * `reads_expr`, `reads_stmt`, …, `reads_file`: each part is read from whatever
    writes it;
  * `ofText_written`: a file is read from every text of every value that writes it.
-/
import TreeDoc.Load
import TreeDoc.Proofs.Codes
import TreeDoc.Proofs.Sources

namespace TreeDoc.Decode

open Json hiding Position
open Program

/-! ## Members -/

/-- What is written for a text. -/
def textCode (s : String) : Code := .atom (.string s)

/-- What is written for a number. -/
def natCode (n : Nat) : Code := .atom (.number (.int n))

/-- A member that is always written. -/
def needed (key : String) (c : Code) : Member := (key, false, c)

/-- A list, which may be left out if it is empty. -/
def listMember (key : String) (cs : List Code) : Member := (key, cs.isEmpty, .list cs)

/-- A text, which may be left out if it is empty. -/
def textMember (key : String) (s : String) : Member := (key, s = "", textCode s)

/-- A position, which may be left out if it is zero. -/
def positionMember (p : Position) : Member := ("position", p = 0, natCode p.toNat)

/-- What may have no value: then it is a null, or is left out. -/
def optionMember {α : Type} (key : String) (code : α → Code) : Option α → Member
  | none => (key, true, .atom .null)
  | some a => (key, false, code a)

/-! ## Expressions -/

/-- What is written for the value of a literal. -/
def literalCode : Literal → Code
  | .bool b => .atom (.bool b)
  | .int n => .atom (.number (.int n.toInt))
  | .float x => .atom (.number (.float x))
  | .string s => textCode s
  | .null => .atom .null

/-- The members of a literal. -/
def literalMembers (l : TypedLiteral) : List Member :=
  [needed "type" (textCode l.type), needed "value" (literalCode l.value)]

/-- The name of a binary operator. -/
def binaryName : BinaryOp → String
  | .divide => "divide"
  | .add => "add"
  | .subtract => "subtract"
  | .multiply => "multiply"
  | .and => "and"
  | .or => "or"
  | .equal => "equal"
  | .notEqual => "not-equal"
  | .greaterEqual => "greater-equal"
  | .greaterThan => "greater-than"
  | .lessEqual => "less-equal"
  | .lessThan => "less-than"

/-- The name of a unary operator. -/
def unaryName : UnaryOp → String
  | .not => "not"
  | .negate => "negate"
  | .plus => "plus"

/-- The name of a place for variables. -/
def storageName : Storage → String
  | .constant => "constant"
  | .localVar => "local-var"
  | .connectorVar => "connector-var"
  | .serviceVar => "service-var"
  | .structVar => "struct-var"

/-- The members of a function call. -/
def functionCallMembers (name : String) (package : Option String) (args : List Code) : List Member :=
  [needed "name" (textCode name), optionMember "package" textCode package, listMember "args" args]

/-- The members of an action call. -/
def actionCallMembers (name connector : String) (package : Option String) (args : List Code) :
    List Member :=
  [needed "name" (textCode name), needed "connector" (textCode connector),
    optionMember "package" textCode package, listMember "args" args]

mutual

/-- What is written for an expression. -/
def exprCode : Expr → Code
  | .functionCall name package args =>
    .node "function-invocation" (functionCallMembers name package (exprCodes args))
  | .actionCall name connector package args =>
    .node "action-invocation" (actionCallMembers name connector package (exprCodes args))
  | .literal l => .node "basic-literal" (literalMembers l)
  | .binary op lhs rhs =>
    .node "binary" [needed "op" (textCode (binaryName op)), needed "lhs" (exprCode lhs),
      needed "rhs" (exprCode rhs)]
  | .unary op operand =>
    .node "unary" [needed "op" (textCode (unaryName op)), needed "operand" (exprCode operand)]
  | .variable name => .node "variable-ref" [needed "name" (textCode name)]
  | .cast type operand =>
    .node "type-cast" [needed "type" (textCode type), needed "expr" (exprCode operand)]
  | .array args => .node "array-init" [listMember "args" (exprCodes args)]
  | .map args => .node "map-init" [listMember "args" (exprCodes args)]
  | .template content => .node "backtick" [needed "template" (textCode content)]
  | .creation type => .node "instance-creation" [needed "type" (textCode type)]
  | .access name index =>
    .node "array-map-access" [needed "name" (textCode name), needed "index" (exprCode index)]
  | .keyValue key value =>
    .node "key-value" [needed "key" (exprCode key), needed "value" (exprCode value)]
  | .structInit type args =>
    .node "struct-init" [needed "type" (textCode type), listMember "args" (exprCodes args)]
  | .fieldAccess name fields =>
    .node "struct-field-access" [needed "name" (textCode name),
      listMember "fields" (fields.map textCode)]
  | .resourceCall name args =>
    .node "resource-invocation" [needed "name" (textCode name), listMember "args" (exprCodes args)]
  | .location slot =>
    .node "location" [needed "storage" (textCode (storageName slot.storage)),
      ("offset", slot.offset = 0, natCode slot.offset.toNat)]

/-- What is written for each of some expressions. -/
def exprCodes : List Expr → List Code
  | [] => []
  | e :: es => exprCode e :: exprCodes es

end

/-! ## Statements -/

mutual

/-- What is written for a statement. -/
def stmtCode : Stmt → Code
  | .block statements => .node "block" [listMember "statements" (stmtCodes statements)]
  | .assign lhs rhs =>
    .node "assign" [needed "lhs" (.list (exprCodes lhs)), needed "rhs" (exprCode rhs)]
  | .comment text => .node "comment" [needed "text" (textCode text)]
  | .ifElse condition thenBody elseBody =>
    .node "if-else" [needed "condition" (exprCode condition), needed "then_body" (stmtCode thenBody),
      bodyMember "else_body" elseBody]
  | .whileLoop condition body =>
    .node "while" [needed "condition" (exprCode condition), bodyMember "body" body]
  | .functionCall name package args =>
    .node "function-invocation" (functionCallMembers name package (exprCodes args))
  | .actionCall name connector package args =>
    .node "action-invocation" (actionCallMembers name connector package (exprCodes args))
  | .reply value => .node "reply" [needed "expr" (exprCode value)]
  | .returning values => .node "return" [listMember "exprs" (exprCodes values)]

/-- A statement that may be missing. -/
def bodyMember (key : String) : Option Stmt → Member
  | none => (key, true, .atom .null)
  | some s => (key, false, stmtCode s)

/-- What is written for each of some statements. -/
def stmtCodes : List Stmt → List Code
  | [] => []
  | s :: ss => stmtCode s :: stmtCodes ss

end

/-- What is written for the body of a function, action or resource. -/
def blockCode (b : Block) : Code := .record [listMember "statements" (stmtCodes b.statements)]

/-! ## Declarations -/

/-- What is written for an import. -/
def importCode (d : ImportDecl) : Code :=
  .record [needed "name" (textCode d.name), needed "path" (textCode d.path),
    positionMember d.position]

/-- What is written for an annotation. -/
def annotationCode (d : AnnotationDef) : Code :=
  .record [needed "name" (textCode d.name), textMember "value" d.value,
    ("attributes", d.attributes.isEmpty, .attributes d.attributes)]

/-- The annotations of a declaration. -/
def annotationsMember (ds : List AnnotationDef) : Member :=
  listMember "annotations" (ds.map annotationCode)

/-- What is written for a parameter. -/
def parameterCode (d : Parameter) : Code :=
  .record [needed "name" (textCode d.name), needed "type" (textCode d.type),
    annotationsMember d.annotations]

/-- What is written for a result. -/
def resultCode (d : ReturnParameter) : Code :=
  .record [needed "type" (textCode d.type), optionMember "name" textCode d.name]

/-- What is written for a variable bound to a connector. -/
def connectorDeclCode (d : ConnectorDecl) : Code :=
  .record [needed "connector" (textCode d.connector), optionMember "package" textCode d.package,
    needed "variable" (textCode d.variableName), listMember "args" (exprCodes d.args)]

/-- What is written for a variable. -/
def variableCode (d : VariableDecl) : Code :=
  .record [needed "name" (textCode d.name), needed "type" (textCode d.type)]

/-- The variables of a declaration. -/
def variablesMember (ds : List VariableDecl) : Member :=
  listMember "variables" (ds.map variableCode)

/-- The parameters of a declaration. -/
def parametersMember (ds : List Parameter) : Member :=
  listMember "parameters" (ds.map parameterCode)

/-- The connector instances of a declaration. -/
def connectorDeclsMember (ds : List ConnectorDecl) : Member :=
  listMember "connector_dcls" (ds.map connectorDeclCode)

/-- The results of a declaration. -/
def resultsMember (ds : List ReturnParameter) : Member :=
  listMember "return_parameters" (ds.map resultCode)

/-- What is written for a constant. -/
def constantCode (d : ConstantDef) : Code :=
  .record [needed "name" (textCode d.name), needed "type" (textCode d.type),
    needed "value" (.record (literalMembers d.value)), positionMember d.position]

/-- What is written for a worker. -/
def workerCode (d : WorkerDef) : Code :=
  .record [textMember "name" d.name, positionMember d.position, connectorDeclsMember d.connectors,
    variablesMember d.locals, listMember "statements" (stmtCodes d.statements)]

/-- What is written for a resource. -/
def resourceCode (d : ResourceDef) : Code :=
  .record [needed "name" (textCode d.name), positionMember d.position,
    annotationsMember d.annotations, variablesMember d.locals, parametersMember d.parameters,
    connectorDeclsMember d.connectors, listMember "workers" (d.workers.map workerCode),
    optionMember "body" blockCode d.body]

/-- What is written for a service. -/
def serviceCode (d : ServiceDef) : Code :=
  .record [needed "name" (textCode d.name), positionMember d.position,
    annotationsMember d.annotations, variablesMember d.locals, connectorDeclsMember d.connectors,
    listMember "resources" (d.resources.map resourceCode)]

/-- What is written for an action. -/
def actionCode (d : ActionDef) : Code :=
  .record [needed "name" (textCode d.name), positionMember d.position,
    annotationsMember d.annotations, variablesMember d.locals, parametersMember d.parameters,
    connectorDeclsMember d.connectors, resultsMember d.results, needed "body" (blockCode d.body)]

/-- What is written for a connector. -/
def connectorCode (d : ConnectorDef) : Code :=
  .record [needed "name" (textCode d.name), positionMember d.position,
    annotationsMember d.annotations, variablesMember d.locals, parametersMember d.parameters,
    connectorDeclsMember d.connectors, listMember "actions" (d.actions.map actionCode)]

/-- What is written for a function. -/
def functionCode (d : FunctionDef) : Code :=
  .record [needed "name" (textCode d.name), positionMember d.position,
    ("is_public", !d.isPublic, .atom (.bool d.isPublic)), annotationsMember d.annotations,
    variablesMember d.locals, parametersMember d.parameters, connectorDeclsMember d.connectors,
    resultsMember d.results, needed "body" (blockCode d.body)]

/-- What is written for a struct type. -/
def structCode (d : StructDef) : Code :=
  .record [needed "name" (textCode d.name), listMember "fields" (d.fields.map variableCode),
    positionMember d.position]

/-- What is written for a type converter. -/
def typeConverterCode (d : TypeConverter) : Code :=
  .record [needed "name" (textCode d.name), textMember "source" d.source,
    textMember "target" d.target, positionMember d.position]

/-- What is written for the call that starts the program. -/
def mainInvokerCode (d : MainInvoker) : Code := .record [needed "function" (textCode d.function)]

/-- What is written for a file. -/
def fileCode (f : File) : Code :=
  .record [needed "package_name" (textCode f.packageName),
    listMember "imports" (f.imports.map importCode),
    listMember "constants" (f.constants.map constantCode),
    listMember "services" (f.services.map serviceCode),
    listMember "functions" (f.functions.map functionCode),
    listMember "connectors" (f.connectors.map connectorCode),
    listMember "structs" (f.structs.map structCode),
    listMember "type_converters" (f.typeConverters.map typeConverterCode),
    optionMember "main_invoker" mainInvokerCode f.mainInvoker]

/-! ## Scalars and members are read -/

theorem reads_text (s : String) : Reads .text s (textCode s) := by
  refine .of_atom fun src _ => ?_
  simp only [Tree.ofValue, decode, decodeString]

theorem decodeNat_ofNat {src : Source} {bits : Nat} {expected : String} {n : Nat}
    (h : n < Nat.pow 2 bits) :
    decodeNat src bits expected (Tree.ofValue (.number (.int n))) = .ok n := by
  rw [Tree.ofValue, decodeNat, if_pos ⟨Int.natCast_nonneg n, by simpa using h⟩]
  rfl

theorem reads_position (p : Position) : Reads .position p (natCode p.toNat) := by
  refine .of_atom fun src _ => ?_
  simp only [decode, decodeNat_ofNat p.toNat_lt]
  exact congrArg Except.ok (UInt32.ofNat_toNat ..)

theorem reads_offset (n : UInt64) : Reads .offset n (natCode n.toNat) := by
  refine .of_atom fun src _ => ?_
  simp only [decode, decodeNat_ofNat n.toNat_lt]
  exact congrArg Except.ok (UInt64.ofNat_toNat ..)

theorem reads_flag (b : Bool) : Reads .flag b (.atom (.bool b)) := by
  refine .of_atom fun src _ => ?_
  simp only [Tree.ofValue, decode, decodeBool]

theorem reads_literal (l : Literal) : Reads .literal l (literalCode l) := by
  have hscalar : ∀ {v : Value}, literal? (Tree.ofValue v) = some l → Reads .literal l (.atom v) := by
    intro v hv
    refine .of_atom fun src hsrc => ?_
    cases src with
    | text n => exact absurd rfl (hsrc n)
    | value | buffered =>
      simp only [decode]
      unfold decodeLiteral
      rw [hv]
      rfl
  cases l with
  | int n =>
    refine hscalar ?_
    rw [Tree.ofValue, literal?, if_pos ⟨n.minValue_le_toInt, n.toInt_le⟩, Int64.ofInt_toInt]
  | bool | float | string | null => exact hscalar rfl

theorem reads_choice {c : Choice} {a : c.Carrier} {name : String}
    (h : Assoc.get? name c.variants = some a) : Reads (.choice c) a (textCode name) := by
  refine .of_atom fun src hsrc => ?_
  cases src with
  | text n => exact absurd rfl (hsrc n)
  | value | buffered =>
    simp only [decode, decodeChoice, Tree.ofValue, decodeChoiceValue, decodeMember, h]

theorem reads_binaryOp (op : BinaryOp) : Reads (.choice .binaryOp) op (textCode (binaryName op)) := by
  refine reads_choice ?_
  cases op <;> rfl

theorem reads_unaryOp (op : UnaryOp) : Reads (.choice .unaryOp) op (textCode (unaryName op)) := by
  refine reads_choice ?_
  cases op <;> rfl

theorem reads_storage (s : Storage) : Reads (.choice .storage) s (textCode (storageName s)) := by
  refine reads_choice ?_
  cases s <;> rfl

section
variable {s : Shape} (k : String)

theorem readAs_list {as : List s.Carrier} {cs : List Code} (h : List.Forall₂ (Reads s) as cs) :
    (Field.defaulted k (.list s)).ReadAs as (listMember k cs) := by
  refine .defaulted k (.list h) fun hempty => ?_
  cases h with
  | nil => rfl
  | cons _ _ => cases hempty

theorem readAs_map {code : s.Carrier → Code} (h : ∀ a, Reads s a (code a)) (as : List s.Carrier) :
    (Field.defaulted k (.list s)).ReadAs as (listMember k (as.map code)) :=
  readAs_list k (List.forall₂_map_right_iff.2 (List.forall₂_same.2 fun a _ => h a))

theorem readAs_text (t : String) : (Field.defaulted k .text).ReadAs t (textMember k t) := by
  refine .defaulted k (reads_text t) fun hempty => ?_
  rw [of_decide_eq_true hempty]
  rfl

theorem readAs_position (p : Position) :
    (Field.defaulted "position" .position).ReadAs p (positionMember p) := by
  refine .defaulted _ (reads_position p) fun hzero => ?_
  rw [of_decide_eq_true hzero]
  rfl

theorem readAs_option {code : s.Carrier → Code} (hs : s ≠ .literal) (h : ∀ a, Reads s a (code a)) :
    ∀ o : Option s.Carrier, (Field.optional k s).ReadAs o (optionMember k code o)
  | none => .none k s
  | some a => .some k hs (h a)

end

/-! ## Expressions and statements are read -/

theorem functionCall_members (name : String) (package : Option String) {args : List Expr}
    {cs : List Code} (h : List.Forall₂ (Reads .expr) args cs) :
    MembersOf [.required "name" .text, .optional "package" .text, .defaulted "args" (.list .expr)]
      (name, package, args, ()) (functionCallMembers name package cs) :=
  .cons (.required _ (reads_text name)) (.cons (readAs_option (s := .text) _ nofun reads_text package)
    (.cons (readAs_list _ h) .nil))

theorem actionCall_members (name connector : String) (package : Option String) {args : List Expr}
    {cs : List Code} (h : List.Forall₂ (Reads .expr) args cs) :
    MembersOf [.required "name" .text, .required "connector" .text, .optional "package" .text,
      .defaulted "args" (.list .expr)] (name, connector, package, args, ())
      (actionCallMembers name connector package cs) :=
  .cons (.required _ (reads_text name)) (.cons (.required _ (reads_text connector))
    (.cons (readAs_option (s := .text) _ nofun reads_text package) (.cons (readAs_list _ h) .nil)))

theorem literal_members (l : TypedLiteral) :
    MembersOf typedLiteralLayout.fields (l.type, l.value, ()) (literalMembers l) :=
  .cons (.required _ (reads_text l.type)) (.cons (.required _ (reads_literal l.value)) .nil)

mutual

/-- **Expressions** are read from whatever writes them. -/
theorem reads_expr : ∀ e : Expr, Reads .expr e (exprCode e)
  | .functionCall name package args => by
    rw [exprCode]
    exact .node .expr 0 rfl (functionCall_members name package (reads_exprs args)) rfl rfl
  | .actionCall name connector package args => by
    rw [exprCode]
    exact .node .expr 1 rfl (actionCall_members name connector package (reads_exprs args))
      rfl rfl
  | .literal l => by
    rw [exprCode]
    exact .node .expr 2 rfl (literal_members l) rfl rfl
  | .binary op lhs rhs => by
    rw [exprCode]
    exact .node .expr 3 rfl (.cons (.required _ (reads_binaryOp op))
      (.cons (.required _ (reads_expr lhs)) (.cons (.required _ (reads_expr rhs)) .nil))) rfl rfl
  | .unary op operand => by
    rw [exprCode]
    exact .node .expr 4 rfl (.cons (.required _ (reads_unaryOp op))
      (.cons (.required _ (reads_expr operand)) .nil)) rfl rfl
  | .variable name => by
    rw [exprCode]
    exact .node .expr 5 rfl (.cons (.required _ (reads_text name)) .nil) rfl rfl
  | .cast type operand => by
    rw [exprCode]
    exact .node .expr 6 rfl (.cons (.required _ (reads_text type))
      (.cons (.required _ (reads_expr operand)) .nil)) rfl rfl
  | .array args => by
    rw [exprCode]
    exact .node .expr 7 rfl (.cons (readAs_list _ (reads_exprs args)) .nil) rfl rfl
  | .map args => by
    rw [exprCode]
    exact .node .expr 8 rfl (.cons (readAs_list _ (reads_exprs args)) .nil) rfl rfl
  | .template content => by
    rw [exprCode]
    exact .node .expr 9 rfl (.cons (.required _ (reads_text content)) .nil) rfl rfl
  | .creation type => by
    rw [exprCode]
    exact .node .expr 10 rfl (.cons (.required _ (reads_text type)) .nil) rfl rfl
  | .access name index => by
    rw [exprCode]
    exact .node .expr 11 rfl (.cons (.required _ (reads_text name))
      (.cons (.required _ (reads_expr index)) .nil)) rfl rfl
  | .keyValue key value => by
    rw [exprCode]
    exact .node .expr 12 rfl (.cons (.required _ (reads_expr key))
      (.cons (.required _ (reads_expr value)) .nil)) rfl rfl
  | .structInit type args => by
    rw [exprCode]
    exact .node .expr 13 rfl (.cons (.required _ (reads_text type))
      (.cons (readAs_list _ (reads_exprs args)) .nil)) rfl rfl
  | .fieldAccess name fields => by
    rw [exprCode]
    exact .node .expr 14 rfl (.cons (.required _ (reads_text name))
      (.cons (readAs_map (s := .text) _ reads_text fields) .nil)) rfl rfl
  | .resourceCall name args => by
    rw [exprCode]
    exact .node .expr 15 rfl (.cons (.required _ (reads_text name))
      (.cons (readAs_list _ (reads_exprs args)) .nil)) rfl rfl
  | .location slot => by
    have hzero : decide (slot.offset = 0) = true → Shape.offset.absent = some slot.offset :=
      fun h => by rw [of_decide_eq_true h]; rfl
    rw [exprCode]
    exact .node .expr 16 rfl (.cons (.required _ (reads_storage slot.storage))
      (.cons (.defaulted _ (reads_offset slot.offset) hzero) .nil)) rfl rfl

theorem reads_exprs : ∀ es : List Expr, List.Forall₂ (Reads .expr) es (exprCodes es)
  | [] => by
    rw [exprCodes]
    exact .nil
  | e :: es => by
    rw [exprCodes]
    exact .cons (reads_expr e) (reads_exprs es)

end

mutual

/-- **Statements** are read from whatever writes them. -/
theorem reads_stmt : ∀ s : Stmt, Reads .stmt s (stmtCode s)
  | .block statements => by
    rw [stmtCode]
    exact .node .stmt 0 rfl (.cons (readAs_list _ (reads_stmts statements)) .nil) rfl rfl
  | .assign lhs rhs => by
    rw [stmtCode]
    exact .node .stmt 1 rfl (.cons (.required _ (.list (reads_exprs lhs)))
      (.cons (.required _ (reads_expr rhs)) .nil)) rfl rfl
  | .comment text => by
    rw [stmtCode]
    exact .node .stmt 2 rfl (.cons (.required _ (reads_text text)) .nil) rfl rfl
  | .ifElse condition thenBody elseBody => by
    rw [stmtCode]
    exact .node .stmt 3 rfl (.cons (.required _ (reads_expr condition))
      (.cons (.required _ (reads_stmt thenBody)) (.cons (readAs_body _ elseBody) .nil))) rfl rfl
  | .whileLoop condition body => by
    rw [stmtCode]
    exact .node .stmt 4 rfl (.cons (.required _ (reads_expr condition))
      (.cons (readAs_body _ body) .nil)) rfl rfl
  | .functionCall name package args => by
    rw [stmtCode]
    exact .node .stmt 5 rfl (functionCall_members name package (reads_exprs args)) rfl rfl
  | .actionCall name connector package args => by
    rw [stmtCode]
    exact .node .stmt 6 rfl (actionCall_members name connector package (reads_exprs args))
      rfl rfl
  | .reply value => by
    rw [stmtCode]
    exact .node .stmt 7 rfl (.cons (.required _ (reads_expr value)) .nil) rfl rfl
  | .returning values => by
    rw [stmtCode]
    exact .node .stmt 8 rfl (.cons (readAs_list _ (reads_exprs values)) .nil) rfl rfl

theorem readAs_body (k : String) :
    ∀ body : Option Stmt, (Field.optional k .stmt).ReadAs body (bodyMember k body)
  | none => by
    rw [bodyMember]
    exact .none k .stmt
  | some s => by
    rw [bodyMember]
    exact .some k nofun (reads_stmt s)

theorem reads_stmts : ∀ ss : List Stmt, List.Forall₂ (Reads .stmt) ss (stmtCodes ss)
  | [] => by
    rw [stmtCodes]
    exact .nil
  | s :: ss => by
    rw [stmtCodes]
    exact .cons (reads_stmt s) (reads_stmts ss)

end

theorem reads_block (b : Block) : Reads (.record .block) b (blockCode b) :=
  .record (.cons (readAs_list _ (reads_stmts b.statements)) .nil) rfl

/-! ## Declarations are read -/

theorem reads_import (d : ImportDecl) : Reads (.record .importDecl) d (importCode d) :=
  .record (.cons (.required _ (reads_text d.name)) (.cons (.required _ (reads_text d.path))
    (.cons (readAs_position d.position) .nil))) rfl

theorem reads_annotation (d : AnnotationDef) : Reads (.record .annotationDef) d (annotationCode d) := by
  have hnone : d.attributes.isEmpty = true → Shape.attributes.absent = some d.attributes :=
    fun h => by rw [List.isEmpty_iff.1 h]; rfl
  exact .record (.cons (.required _ (reads_text d.name)) (.cons (readAs_text _ d.value)
    (.cons (.defaulted _ (.attributes d.attributes) hnone) .nil))) rfl

theorem readAs_annotations (ds : List AnnotationDef) :
    (Field.defaulted "annotations" (.list (.record .annotationDef))).ReadAs ds (annotationsMember ds) :=
  readAs_map (s := .record .annotationDef) _ reads_annotation ds

theorem reads_parameter (d : Parameter) : Reads (.record .parameter) d (parameterCode d) :=
  .record (.cons (.required _ (reads_text d.name)) (.cons (.required _ (reads_text d.type))
    (.cons (readAs_annotations d.annotations) .nil))) rfl

theorem reads_result (d : ReturnParameter) : Reads (.record .returnParameter) d (resultCode d) :=
  .record (.cons (.required _ (reads_text d.type))
    (.cons (readAs_option (s := .text) _ nofun reads_text d.name) .nil)) rfl

theorem reads_connectorDecl (d : ConnectorDecl) :
    Reads (.record .connectorDecl) d (connectorDeclCode d) :=
  .record (.cons (.required _ (reads_text d.connector))
    (.cons (readAs_option (s := .text) _ nofun reads_text d.package)
      (.cons (.required _ (reads_text d.variableName))
        (.cons (readAs_list _ (reads_exprs d.args)) .nil)))) rfl

theorem reads_variable (d : VariableDecl) : Reads (.record .variableDecl) d (variableCode d) :=
  .record (.cons (.required _ (reads_text d.name)) (.cons (.required _ (reads_text d.type)) .nil))
    rfl

theorem readAs_variables (ds : List VariableDecl) :
    (Field.defaulted "variables" (.list (.record .variableDecl))).ReadAs ds (variablesMember ds) :=
  readAs_map (s := .record .variableDecl) _ reads_variable ds

theorem readAs_parameters (ds : List Parameter) :
    (Field.defaulted "parameters" (.list (.record .parameter))).ReadAs ds (parametersMember ds) :=
  readAs_map (s := .record .parameter) _ reads_parameter ds

theorem readAs_connectorDecls (ds : List ConnectorDecl) :
    (Field.defaulted "connector_dcls" (.list (.record .connectorDecl))).ReadAs ds
      (connectorDeclsMember ds) :=
  readAs_map (s := .record .connectorDecl) _ reads_connectorDecl ds

theorem readAs_results (ds : List ReturnParameter) :
    (Field.defaulted "return_parameters" (.list (.record .returnParameter))).ReadAs ds
      (resultsMember ds) :=
  readAs_map (s := .record .returnParameter) _ reads_result ds

theorem reads_constant (d : ConstantDef) : Reads (.record .constant) d (constantCode d) := by
  have hvalue : Reads (.record .typedLiteral) d.value (.record (literalMembers d.value)) :=
    .record (literal_members d.value) rfl
  exact .record (.cons (.required _ (reads_text d.name)) (.cons (.required _ (reads_text d.type))
    (.cons (.required _ hvalue) (.cons (readAs_position d.position) .nil)))) rfl

theorem reads_worker (d : WorkerDef) : Reads (.record .worker) d (workerCode d) :=
  .record (.cons (readAs_text _ d.name) (.cons (readAs_position d.position)
    (.cons (readAs_connectorDecls d.connectors) (.cons (readAs_variables d.locals)
      (.cons (readAs_list _ (reads_stmts d.statements)) .nil))))) rfl

theorem reads_resource (d : ResourceDef) : Reads (.record .resource) d (resourceCode d) :=
  .record (.cons (.required _ (reads_text d.name)) (.cons (readAs_position d.position)
    (.cons (readAs_annotations d.annotations) (.cons (readAs_variables d.locals)
      (.cons (readAs_parameters d.parameters) (.cons (readAs_connectorDecls d.connectors)
        (.cons (readAs_map (s := .record .worker) _ reads_worker d.workers)
          (.cons (readAs_option (s := .record .block) _ nofun reads_block d.body) .nil)))))))) rfl

theorem reads_service (d : ServiceDef) : Reads (.record .service) d (serviceCode d) :=
  .record (.cons (.required _ (reads_text d.name)) (.cons (readAs_position d.position)
    (.cons (readAs_annotations d.annotations) (.cons (readAs_variables d.locals)
      (.cons (readAs_connectorDecls d.connectors)
        (.cons (readAs_map (s := .record .resource) _ reads_resource d.resources) .nil)))))) rfl

theorem reads_action (d : ActionDef) : Reads (.record .action) d (actionCode d) :=
  .record (.cons (.required _ (reads_text d.name)) (.cons (readAs_position d.position)
    (.cons (readAs_annotations d.annotations) (.cons (readAs_variables d.locals)
      (.cons (readAs_parameters d.parameters) (.cons (readAs_connectorDecls d.connectors)
        (.cons (readAs_results d.results) (.cons (.required _ (reads_block d.body)) .nil)))))))) rfl

theorem reads_connector (d : ConnectorDef) : Reads (.record .connector) d (connectorCode d) :=
  .record (.cons (.required _ (reads_text d.name)) (.cons (readAs_position d.position)
    (.cons (readAs_annotations d.annotations) (.cons (readAs_variables d.locals)
      (.cons (readAs_parameters d.parameters) (.cons (readAs_connectorDecls d.connectors)
        (.cons (readAs_map (s := .record .action) _ reads_action d.actions) .nil))))))) rfl

theorem reads_function (d : FunctionDef) : Reads (.record .function) d (functionCode d) := by
  have hprivate : (!d.isPublic) = true → Shape.flag.absent = some d.isPublic := fun h => by
    rw [Bool.not_eq_true'] at h
    rw [h]
    rfl
  exact .record (.cons (.required _ (reads_text d.name)) (.cons (readAs_position d.position)
    (.cons (.defaulted _ (reads_flag d.isPublic) hprivate)
      (.cons (readAs_annotations d.annotations) (.cons (readAs_variables d.locals)
        (.cons (readAs_parameters d.parameters) (.cons (readAs_connectorDecls d.connectors)
          (.cons (readAs_results d.results)
            (.cons (.required _ (reads_block d.body)) .nil))))))))) rfl

theorem reads_struct (d : StructDef) : Reads (.record .struct) d (structCode d) :=
  .record (.cons (.required _ (reads_text d.name))
    (.cons (readAs_map (s := .record .variableDecl) _ reads_variable d.fields)
      (.cons (readAs_position d.position) .nil))) rfl

theorem reads_typeConverter (d : TypeConverter) :
    Reads (.record .typeConverter) d (typeConverterCode d) :=
  .record (.cons (.required _ (reads_text d.name)) (.cons (readAs_text _ d.source)
    (.cons (readAs_text _ d.target) (.cons (readAs_position d.position) .nil)))) rfl

theorem reads_mainInvoker (d : MainInvoker) : Reads (.record .mainInvoker) d (mainInvokerCode d) :=
  .record (.cons (.required _ (reads_text d.function)) .nil) rfl

/-- **Files** are read from whatever writes them. -/
theorem reads_file (f : File) : Reads (.record .file) f (fileCode f) :=
  .record (.cons (.required _ (reads_text f.packageName))
    (.cons (readAs_map (s := .record .importDecl) _ reads_import f.imports)
      (.cons (readAs_map (s := .record .constant) _ reads_constant f.constants)
        (.cons (readAs_map (s := .record .service) _ reads_service f.services)
          (.cons (readAs_map (s := .record .function) _ reads_function f.functions)
            (.cons (readAs_map (s := .record .connector) _ reads_connector f.connectors)
              (.cons (readAs_map (s := .record .struct) _ reads_struct f.structs)
                (.cons (readAs_map (s := .record .typeConverter) _ reads_typeConverter
                    f.typeConverters)
                  (.cons (readAs_option (s := .record .mainInvoker) _ nofun reads_mainInvoker
                    f.mainInvoker) .nil))))))))) rfl

end TreeDoc.Decode

/-! ## Texts of files -/

namespace TreeDoc.Program.File

open Decode Json

/-- **Files are read as they are written.** A file may be written in any form of each
    of its parts, and what is written in any spelling: if not more than 127 arrays and
    objects stand inside one another, the file is read from the text. -/
theorem ofText_written (origin : String) {f : File} {v : Value} {text : String}
    (hv : Writes (fileCode f) v) (htext : SpellsText text.toList v) (hdepth : v.depth ≤ 127) :
    File.ofText origin text = .ok f := by
  have hvalue : decodeValue v (.record .file) = .ok f := reads_file f hv Source.plain_value
  exact (ofText_spells_iff htext hdepth).2 hvalue

/-- An annotation with two attributes. -/
def note : AnnotationDef where
  name := "Doc"
  value := ""
  attributes := [("b", "1"), ("a", "2")]

/-- A function that is annotated and replies with a sum. -/
def adder : FunctionDef where
  name := "f"
  position := 7
  isPublic := true
  annotations := [note]
  locals := []
  parameters := []
  connectors := []
  results := []
  body := ⟨[.reply (.binary .add (Expr.int (-5)) (.variable "x"))]⟩

/-- A file with this function. -/
def summing : File where
  packageName := "sums"
  imports := []
  constants := []
  services := []
  functions := [adder]
  connectors := []
  structs := []
  typeConverters := []
  mainInvoker := none

/-- The annotation, as an object that leaves out the empty value. -/
def noteValue : Value :=
  .object [("attributes", .object [("b", .string "1"), ("a", .string "2")]),
    ("name", .string "Doc")]

/-- The sum, as an object whose entries stand in reverse order. Its first operand is
    an object too, and its second one an array. -/
def sumValue : Value :=
  .object [("rhs", .array [.string "variable-ref", .string "x"]),
    ("lhs", .object [("value", .number (.int (-5))), ("type", .string "int"),
      ("kind", .string "basic-literal")]),
    ("op", .string "add"), ("kind", .string "binary")]

/-- The function, as an array. -/
def adderValue : Value :=
  .array [.string "f", .number (.int 7), .bool true, .array [noteValue], .array [], .array [],
    .array [], .array [], .object [("statements", .array [.array [.string "reply", sumValue]])]]

/-- The file, as an object without the fields that have their default. -/
def summingValue : Value :=
  .object [("functions", .array [adderValue]), ("package_name", .string "sums")]

theorem note_writes : Writes (annotationCode note) noteValue :=
  .recordObject (.written .atom (.omitted (.written (.attributes (by decide)) .nil)))
    (List.reverse_perm _).symm

theorem sum_writes :
    Writes (exprCode (.binary .add (Expr.int (-5)) (.variable "x"))) sumValue := by
  have hlhs : Writes (exprCode (Expr.int (-5))) (.object [("value", .number (.int (-5))),
      ("type", .string "int"), ("kind", .string "basic-literal")]) :=
    .nodeObject (.written .atom (.written .atom .nil)) (List.reverse_perm _).symm
  have hrhs : Writes (exprCode (.variable "x")) (.array [.string "variable-ref", .string "x"]) :=
    .nodeArray (.cons .atom .nil)
  exact .nodeObject (.written .atom (.written hlhs (.written hrhs .nil))) (List.reverse_perm _).symm

theorem adder_writes : Writes (functionCode adder) adderValue := by
  have hbody : Writes (blockCode adder.body)
      (.object [("statements", .array [.array [.string "reply", sumValue]])]) :=
    .recordObject (.written (.list (.cons (.nodeArray (.cons sum_writes .nil)) .nil)) .nil) (.refl _)
  exact .recordArray (.cons .atom (.cons .atom (.cons .atom (.cons (.list (.cons note_writes .nil))
    (.cons (.list .nil) (.cons (.list .nil) (.cons (.list .nil) (.cons (.list .nil)
      (.cons hbody .nil)))))))))

theorem summing_writes : Writes (fileCode summing) summingValue :=
  .recordObject (.written .atom (.omitted (.omitted (.omitted
    (.written (.list (.cons adder_writes .nil)) (.omitted (.omitted (.omitted (.omitted .nil)))))))))
    (List.reverse_perm _).symm

theorem summing_read :
    Writes (fileCode summing) summingValue ∧
    SpellsText summingValue.compact.toList summingValue ∧ summingValue.depth ≤ 127 ∧
    File.ofText "sums" summingValue.compact = .ok summing := by
  have htext : SpellsText summingValue.compact.toList summingValue := (compact_spells rfl).text
  have hdepth : summingValue.depth ≤ 127 := by decide
  exact ⟨summing_writes, htext, hdepth, ofText_written "sums" summing_writes htext hdepth⟩

end TreeDoc.Program.File
