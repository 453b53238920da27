/-
  The node of each declaration, statement and expression, made from the nodes
  of its parts.

  This is where attributes, groups and their keys are fixed. Which nodes stand in
  the groups, and in which order, is decided by those who call.
-/
import TreeDoc.Document.Node
import TreeDoc.Program.Source

namespace TreeDoc.Model

open Document Program

/-- A node whose only group are its children. -/
def parent (kind : Kind) (children : List Node) : Node :=
  (Node.ofKind kind).attach childrenKey children

/-! ## Expressions -/

/-- The node of a function call. -/
def functionCallNode (name : String) (package : Option String) (args : List Node) : Node :=
  (parent .functionCall args).setText "function-name" (qualified package name)

/-- The node of an action call. -/
def actionCallNode (name connector : String) (package : Option String) (args : List Node) : Node :=
  (parent .actionCall args).setText "action-name" name
    |>.set "action-package-name" (.ofOption package)
    |>.setText "action-connector-name" connector

/-- The node of a literal. -/
def literalNode (l : TypedLiteral) : Node :=
  (Node.ofKind .literal).setText "basic-literal-type" l.type
    |>.setText "basic-literal-value" l.value.text

/-- The node of a variable. -/
def variableNode (name : String) : Node :=
  (Node.ofKind .variableRef).setText "variable-reference-name" name

/-- The node of a template. -/
def templateNode (content : String) : Node :=
  (Node.ofKind .template).setText "back-quote-enclosed-string" content

/-- The node of a new instance. -/
def creationNode (type : String) : Node :=
  (parent .creation []).setText "instance-type" type

/-- The node of an access to an array or map. -/
def accessNode (name : String) (index : List Node) : Node :=
  (parent .access index).setText "array-map-access-name" name

/-! ## Statements -/

/-- The node of an assignment. -/
def assignNode (lhs rhs : List Node) : Node :=
  parent .assignment [parent .leftOperand lhs, parent .rightOperand rhs]

/-- The node of a comment. -/
def commentNode (text : String) : Node := (Node.ofKind .comment).setText "comment-string" text

/-- The first branch of a conditional: its body, then its condition. -/
def branchNodes (body condition : List Node) : List Node :=
  [parent .thenBody body, parent .ifCondition condition]

/-- The node of a conditional, whose else branch may be missing. -/
def ifElseNode (branch : List Node) (otherwise : Option (List Node)) : Node :=
  let node := (Node.ofKind .ifElse).attach "if-branch" branch
  match otherwise with
  | none => node
  | some ns => node.attach "else-branch" ns

/-- The node of a reply, with its text if there is one. -/
def replyNode (text : Option String) (value : List Node) : Node :=
  match text with
  | none => parent .reply value
  | some s => (parent .reply value).setText "expression" s

/-- The node of a statement of which only the text is kept. -/
def statementTextNode (text : String) : Node :=
  (Node.ofKind .statementText).setText "statement" text

/-! ## Declarations -/

/-- The node of an import. -/
def importNode (d : ImportDecl) : Node :=
  (Node.ofKind .importDef).setText "import-package-name" d.name
    |>.setText "import-package-path" d.path

/-- The node of an attribute of an annotation. -/
def attributeNode (key value : String) : Node :=
  (Node.ofKind .annotationAttribute).setText "key" key |>.setText "value" value

/-- The node of an annotation. -/
def annotationNode (d : AnnotationDef) : Node :=
  (parent .annotationDef (d.attributes.map fun (k, v) => attributeNode k v))
    |>.setText "annotation-name" d.name
    |>.setText "annotation-value" d.value

/-- The node of a parameter. -/
def parameterNode (d : Parameter) (annotations : List Node) : Node :=
  (parent .parameterDef annotations).setText "parameter-name" d.name
    |>.setText "parameter-type" d.type

/-- The node of a connector instance. -/
def connectorDeclNode (d : ConnectorDecl) (args : List Node) : Node :=
  (parent .connectorDecl args).setText "connector-name" d.connector
    |>.set "connector-package-name" (.ofOption d.package)
    |>.setText "connector-variable" d.variableName

/-- The node of a variable declaration. -/
def variableDeclNode (d : VariableDecl) : Node :=
  (Node.ofKind .variableDecl).setText "variable-name" d.name
    |>.setText "variable-type" d.type

/-- The node of a constant. -/
def constantNode (d : ConstantDef) : Node :=
  (Node.ofKind .constantDef).setText "constant-type" d.type
    |>.setText "constant-name" d.name
    |>.setText "constant-value" d.value.value.text

/-- The node of a declared result. -/
def returnArgumentNode (p : ReturnParameter) : Node :=
  let node := (Node.ofKind .returnArgument).setText "parameter-type" p.type
  match p.name with
  | none => node
  | some name => node.setText "parameter-name" name

/-- The node that lists the declared results of a function or action. -/
def returnTypeNode (results : List ReturnParameter) : Node :=
  parent .returnType (results.map returnArgumentNode)

/-- A node with annotations and children. -/
def annotated (kind : Kind) (annotations children : List Node) : Node :=
  (Node.ofKind kind).attach "annotations" annotations |>.attach childrenKey children

/-- The node of a worker. -/
def workerNode (d : WorkerDef) (children : List Node) : Node :=
  (parent .workerDef children).setText "worker-name" d.name

/-- The node of a resource. -/
def resourceNode (d : ResourceDef) (annotations children : List Node) : Node :=
  (annotated .resourceDef annotations children).setText "resource-name" d.name

/-- The node of a service. -/
def serviceNode (d : ServiceDef) (annotations children : List Node) : Node :=
  (annotated .serviceDef annotations children).setText "service-name" d.name

/-- The node of an action. -/
def actionNode (d : ActionDef) (annotations children : List Node) : Node :=
  (annotated .actionDef annotations children).setText "action-name" d.name

/-- The node of a connector. -/
def connectorNode (d : ConnectorDef) (annotations children : List Node) : Node :=
  (annotated .connectorDef annotations children).setText "connector-name" d.name

/-- The node of a function. -/
def functionNode (d : FunctionDef) (annotations children : List Node) : Node :=
  (annotated .functionDef annotations children).setText "function-name" d.name
    |>.set "is-public-function" (.bool d.isPublic)

/-- The node of the package that a file belongs to. -/
def packageNode (f : File) : Node := (Node.ofKind .packageDef).setText "package-name" f.packageName

end TreeDoc.Model
