/-
  How programs are written in JSON.

  * `Choice.variants`: the names of the members of each enumeration;
  * `Record.layout`: the fields of each structure;
  * `exprVariants`, `stmtVariants`: the tags of expressions and statements, and
    the fields that go with each of them.
-/
import TreeDoc.Decode.Shape

namespace TreeDoc.Decode

open Program Model

/-! ## Enumerations -/

/-- The members of an enumeration by name. -/
def Choice.variants : (c : Choice) → List (String × c.Carrier)
  | binaryOp => [("divide", .divide), ("add", .add), ("subtract", .subtract),
      ("multiply", .multiply), ("and", .and), ("or", .or), ("equal", .equal),
      ("not-equal", .notEqual), ("greater-equal", .greaterEqual), ("greater-than", .greaterThan),
      ("less-equal", .lessEqual), ("less-than", .lessThan)]
  | unaryOp => [("not", .not), ("negate", .negate), ("plus", .plus)]
  | storage => [("constant", .constant), ("local-var", .localVar),
      ("connector-var", .connectorVar), ("service-var", .serviceVar), ("struct-var", .structVar)]
  | strategy => [("structured", .structured), ("structured-with-text", .structuredWithText)]

/-! ## Structures -/

/-- The fields of a source file. -/
def fileLayout : Layout File where
  title := "struct File"
  fields := [.required "package_name" .text, .defaulted "imports" (.list (.record .importDecl)),
    .defaulted "constants" (.list (.record .constant)),
    .defaulted "services" (.list (.record .service)),
    .defaulted "functions" (.list (.record .function)),
    .defaulted "connectors" (.list (.record .connector)),
    .defaulted "structs" (.list (.record .struct)),
    .defaulted "type_converters" (.list (.record .typeConverter)),
    .optional "main_invoker" (.record .mainInvoker)]
  build := fun (packageName, imports, constants, services, functions, connectors, structs,
      typeConverters, mainInvoker, _) =>
    { packageName, imports, constants, services, functions, connectors, structs, typeConverters,
      mainInvoker }

/-- The fields of an import. -/
def importLayout : Layout ImportDecl where
  title := "struct Import"
  fields := [.required "name" .text, .required "path" .text, .defaulted "position" .position]
  build := fun (name, path, position, _) => { name, path, position }

/-- The fields of a service. -/
def serviceLayout : Layout ServiceDef where
  title := "struct Service"
  fields := [.required "name" .text, .defaulted "position" .position,
    .defaulted "annotations" (.list (.record .annotationDef)),
    .defaulted "variables" (.list (.record .variableDecl)),
    .defaulted "connector_dcls" (.list (.record .connectorDecl)),
    .defaulted "resources" (.list (.record .resource))]
  build := fun (name, position, annotations, locals, connectors, resources, _) =>
    { name, position, annotations, locals, connectors, resources }

/-- The fields of a connector. -/
def connectorLayout : Layout ConnectorDef where
  title := "struct Connector"
  fields := [.required "name" .text, .defaulted "position" .position,
    .defaulted "annotations" (.list (.record .annotationDef)),
    .defaulted "variables" (.list (.record .variableDecl)),
    .defaulted "parameters" (.list (.record .parameter)),
    .defaulted "connector_dcls" (.list (.record .connectorDecl)),
    .defaulted "actions" (.list (.record .action))]
  build := fun (name, position, annotations, locals, parameters, connectors, actions, _) =>
    { name, position, annotations, locals, parameters, connectors, actions }

/-- The fields of a function. -/
def functionLayout : Layout FunctionDef where
  title := "struct Function"
  fields := [.required "name" .text, .defaulted "position" .position,
    .defaulted "is_public" .flag,
    .defaulted "annotations" (.list (.record .annotationDef)),
    .defaulted "variables" (.list (.record .variableDecl)),
    .defaulted "parameters" (.list (.record .parameter)),
    .defaulted "connector_dcls" (.list (.record .connectorDecl)),
    .defaulted "return_parameters" (.list (.record .returnParameter)),
    .required "body" (.record .block)]
  build := fun (name, position, isPublic, annotations, locals, parameters, connectors, results,
      body, _) =>
    { name, position, isPublic, annotations, locals, parameters, connectors, results, body }

/-- The fields of an action. -/
def actionLayout : Layout ActionDef where
  title := "struct Action"
  fields := [.required "name" .text, .defaulted "position" .position,
    .defaulted "annotations" (.list (.record .annotationDef)),
    .defaulted "variables" (.list (.record .variableDecl)),
    .defaulted "parameters" (.list (.record .parameter)),
    .defaulted "connector_dcls" (.list (.record .connectorDecl)),
    .defaulted "return_parameters" (.list (.record .returnParameter)),
    .required "body" (.record .block)]
  build := fun (name, position, annotations, locals, parameters, connectors, results, body, _) =>
    { name, position, annotations, locals, parameters, connectors, results, body }

/-- The fields of a resource. -/
def resourceLayout : Layout ResourceDef where
  title := "struct Resource"
  fields := [.required "name" .text, .defaulted "position" .position,
    .defaulted "annotations" (.list (.record .annotationDef)),
    .defaulted "variables" (.list (.record .variableDecl)),
    .defaulted "parameters" (.list (.record .parameter)),
    .defaulted "connector_dcls" (.list (.record .connectorDecl)),
    .defaulted "workers" (.list (.record .worker)),
    .optional "body" (.record .block)]
  build := fun (name, position, annotations, locals, parameters, connectors, workers, body, _) =>
    { name, position, annotations, locals, parameters, connectors, workers, body }

/-- The fields of a worker. -/
def workerLayout : Layout WorkerDef where
  title := "struct Worker"
  fields := [.defaulted "name" .text, .defaulted "position" .position,
    .defaulted "connector_dcls" (.list (.record .connectorDecl)),
    .defaulted "variables" (.list (.record .variableDecl)),
    .defaulted "statements" (.list .stmt)]
  build := fun (name, position, connectors, locals, statements, _) =>
    { name, position, connectors, locals, statements }

/-- The fields of an annotation. -/
def annotationLayout : Layout AnnotationDef where
  title := "struct Annotation"
  fields := [.required "name" .text, .defaulted "value" .text,
    .defaulted "attributes" .attributes]
  build := fun (name, value, attributes, _) => { name, value, attributes }

/-- The fields of a parameter. -/
def parameterLayout : Layout Parameter where
  title := "struct Parameter"
  fields := [.required "name" .text, .required "type" .text,
    .defaulted "annotations" (.list (.record .annotationDef))]
  build := fun (name, type, annotations, _) => { name, type, annotations }

/-- The fields of a result. -/
def returnParameterLayout : Layout ReturnParameter where
  title := "struct ReturnParameter"
  fields := [.required "type" .text, .optional "name" .text]
  build := fun (type, name, _) => { type, name }

/-- The fields of a connector instance. -/
def connectorDeclLayout : Layout ConnectorDecl where
  title := "struct ConnectorDcl"
  fields := [.required "connector" .text, .optional "package" .text, .required "variable" .text,
    .defaulted "args" (.list .expr)]
  build := fun (connector, package, variableName, args, _) =>
    { connector, package, variableName, args }

/-- The fields of a variable. -/
def variableLayout : Layout VariableDecl where
  title := "struct VariableDcl"
  fields := [.required "name" .text, .required "type" .text]
  build := fun (name, type, _) => { name, type }

/-- The fields of a constant. -/
def constantLayout : Layout ConstantDef where
  title := "struct Const"
  fields := [.required "name" .text, .required "type" .text,
    .required "value" (.record .typedLiteral), .defaulted "position" .position]
  build := fun (name, type, value, position, _) => { name, type, value, position }

/-- The fields of a struct type. -/
def structLayout : Layout StructDef where
  title := "struct StructDecl"
  fields := [.required "name" .text, .defaulted "fields" (.list (.record .variableDecl)),
    .defaulted "position" .position]
  build := fun (name, fields, position, _) => { name, fields, position }

/-- The fields of a type converter. -/
def typeConverterLayout : Layout TypeConverter where
  title := "struct TypeConverter"
  fields := [.required "name" .text, .defaulted "source" .text, .defaulted "target" .text,
    .defaulted "position" .position]
  build := fun (name, source, target, position, _) => { name, source, target, position }

/-- The field of a main invoker. -/
def mainInvokerLayout : Layout MainInvoker where
  title := "struct MainInvoker"
  fields := [.required "function" .text]
  build := fun (function, _) => { function }

/-- The field of a block. -/
def blockLayout : Layout Block where
  title := "struct Block"
  fields := [.defaulted "statements" (.list .stmt)]
  build := fun (statements, _) => { statements }

/-- The fields of a literal. -/
def typedLiteralLayout : Layout TypedLiteral where
  title := "struct BasicLiteral"
  fields := [.required "type" .text, .required "value" .literal]
  build := fun (type, value, _) => { type, value }

/-- The field of the settings. -/
def settingsLayout : Layout Settings where
  title := "struct ModelConfig"
  fields := [.defaulted "strategy" (.choice .strategy)]
  build := fun (strategy, _) => { strategy }

/-- The fields of each structure. -/
def Record.layout : (r : Record) → Layout r.Carrier
  | file => fileLayout
  | importDecl => importLayout
  | service => serviceLayout
  | connector => connectorLayout
  | function => functionLayout
  | action => actionLayout
  | resource => resourceLayout
  | worker => workerLayout
  | annotationDef => annotationLayout
  | parameter => parameterLayout
  | returnParameter => returnParameterLayout
  | connectorDecl => connectorDeclLayout
  | variableDecl => variableLayout
  | constant => constantLayout
  | struct => structLayout
  | typeConverter => typeConverterLayout
  | mainInvoker => mainInvokerLayout
  | block => blockLayout
  | typedLiteral => typedLiteralLayout
  | settings => settingsLayout

/-! ## Expressions and statements -/

/-- The fields of a function call, and what its values make. -/
def functionCallLayout {α : Type} (make : String → Option String → List Expr → α) : Layout α where
  title := "struct FunctionInvocation"
  fields := [.required "name" .text, .optional "package" .text, .defaulted "args" (.list .expr)]
  build := fun (name, package, args, _) => make name package args

/-- The fields of an action call, and what its values make. -/
def actionCallLayout {α : Type} (make : String → String → Option String → List Expr → α) :
    Layout α where
  title := "struct ActionInvocation"
  fields := [.required "name" .text, .required "connector" .text, .optional "package" .text,
    .defaulted "args" (.list .expr)]
  build := fun (name, connector, package, args, _) => make name connector package args

/-- The fields of a literal as an expression. -/
def literalExprLayout : Layout Expr where
  title := typedLiteralLayout.title
  fields := typedLiteralLayout.fields
  build := fun values => .literal (typedLiteralLayout.build values)

/-- The fields of a storage slot. -/
def slotLayout : Layout Expr where
  title := "struct Location"
  fields := [.required "storage" (.choice .storage), .defaulted "offset" .offset]
  build := fun (storage, offset, _) => .location { storage, offset }

/-- The tags of expressions, in order, with their fields. -/
def exprVariants : List (Variant Expr) := [
  { tag := "function-invocation", layout := functionCallLayout .functionCall },
  { tag := "action-invocation", layout := actionCallLayout .actionCall },
  { tag := "basic-literal", layout := literalExprLayout },
  { tag := "binary"
    layout :=
      { title := "struct variant Expr::Binary"
        fields := [.required "op" (.choice .binaryOp), .required "lhs" .expr, .required "rhs" .expr]
        build := fun (op, lhs, rhs, _) => .binary op lhs rhs } },
  { tag := "unary"
    layout :=
      { title := "struct variant Expr::Unary"
        fields := [.required "op" (.choice .unaryOp), .required "operand" .expr]
        build := fun (op, operand, _) => .unary op operand } },
  { tag := "variable-ref"
    layout :=
      { title := "struct variant Expr::VariableRef"
        fields := [.required "name" .text]
        build := fun (name, _) => .variable name } },
  { tag := "type-cast"
    layout :=
      { title := "struct variant Expr::TypeCast"
        fields := [.required "type" .text, .required "expr" .expr]
        build := fun (type, operand, _) => .cast type operand } },
  { tag := "array-init"
    layout :=
      { title := "struct variant Expr::ArrayInit"
        fields := [.defaulted "args" (.list .expr)]
        build := fun (args, _) => .array args } },
  { tag := "map-init"
    layout :=
      { title := "struct variant Expr::MapInit"
        fields := [.defaulted "args" (.list .expr)]
        build := fun (args, _) => .map args } },
  { tag := "backtick"
    layout :=
      { title := "struct variant Expr::Backtick"
        fields := [.required "template" .text]
        build := fun (content, _) => .template content } },
  { tag := "instance-creation"
    layout :=
      { title := "struct variant Expr::InstanceCreation"
        fields := [.required "type" .text]
        build := fun (type, _) => .creation type } },
  { tag := "array-map-access"
    layout :=
      { title := "struct variant Expr::ArrayMapAccess"
        fields := [.required "name" .text, .required "index" .expr]
        build := fun (name, index, _) => .access name index } },
  { tag := "key-value"
    layout :=
      { title := "struct variant Expr::KeyValue"
        fields := [.required "key" .expr, .required "value" .expr]
        build := fun (key, value, _) => .keyValue key value } },
  { tag := "struct-init"
    layout :=
      { title := "struct variant Expr::StructInit"
        fields := [.required "type" .text, .defaulted "args" (.list .expr)]
        build := fun (type, args, _) => .structInit type args } },
  { tag := "struct-field-access"
    layout :=
      { title := "struct variant Expr::StructFieldAccess"
        fields := [.required "name" .text, .defaulted "fields" (.list .text)]
        build := fun (name, fields, _) => .fieldAccess name fields } },
  { tag := "resource-invocation"
    layout :=
      { title := "struct variant Expr::ResourceInvocation"
        fields := [.required "name" .text, .defaulted "args" (.list .expr)]
        build := fun (name, args, _) => .resourceCall name args } },
  { tag := "location", layout := slotLayout }]

/-- The field of a block as a statement. -/
def blockStmtLayout : Layout Stmt where
  title := blockLayout.title
  fields := blockLayout.fields
  build := fun values => .block (blockLayout.build values).statements

/-- The tags of statements, in order, with their fields. -/
def stmtVariants : List (Variant Stmt) := [
  { tag := "block", layout := blockStmtLayout },
  { tag := "assign"
    layout :=
      { title := "struct variant Stmt::Assign"
        fields := [.required "lhs" (.list .expr), .required "rhs" .expr]
        build := fun (lhs, rhs, _) => .assign lhs rhs } },
  { tag := "comment"
    layout :=
      { title := "struct variant Stmt::Comment"
        fields := [.required "text" .text]
        build := fun (text, _) => .comment text } },
  { tag := "if-else"
    layout :=
      { title := "struct variant Stmt::IfElse"
        fields := [.required "condition" .expr, .required "then_body" .stmt,
          .optional "else_body" .stmt]
        build := fun (condition, thenBody, elseBody, _) => .ifElse condition thenBody elseBody } },
  { tag := "while"
    layout :=
      { title := "struct variant Stmt::While"
        fields := [.required "condition" .expr, .optional "body" .stmt]
        build := fun (condition, body, _) => .whileLoop condition body } },
  { tag := "function-invocation", layout := functionCallLayout .functionCall },
  { tag := "action-invocation", layout := actionCallLayout .actionCall },
  { tag := "reply"
    layout :=
      { title := "struct variant Stmt::Reply"
        fields := [.required "expr" .expr]
        build := fun (value, _) => .reply value } },
  { tag := "return"
    layout :=
      { title := "struct variant Stmt::Return"
        fields := [.defaulted "exprs" (.list .expr)]
        build := fun (values, _) => .returning values } }]

end TreeDoc.Decode
