/-
  The kinds of document nodes.

  * `Family`: definitions, statements and expressions, told apart by the key
    under which a node carries its tag;
  * `Kind`: every kind of node, and `Kind.family`, `Kind.tag`;
  * `Kind.ofTag?`: the kind with a tag.
-/
import TreeDoc.Program.Dump

namespace TreeDoc.Document

open Program (BinaryOp)

/-- The families of nodes. -/
inductive Family where
  | definition
  | statement
  | expression
deriving Repr, DecidableEq

/-- The key under which the nodes of a family carry their tag. -/
def Family.key : Family → String
  | definition => "definition-type"
  | statement => "statement-type"
  | expression => "expression-type"

/-- The dump of a family. -/
def Family.dump : Family → Dump
  | definition => .atom "Definition"
  | statement => .atom "Statement"
  | expression => .atom "Expression"

/-- Every kind of node that a document may hold. -/
inductive Kind where
  -- definitions
  | packageDef
  | importDef
  | serviceDef
  | connectorDef
  | resourceDef
  | functionDef
  | actionDef
  | workerDef
  | annotationDef
  | annotationAttribute
  | parameterDef
  | connectorDecl
  | variableDecl
  | constantDef
  | returnType
  | returnArgument
  -- statements
  | assignment
  | comment
  | ifElse
  | whileLoop
  | functionCallStmt
  | reply
  | returning
  | statementText
  -- expressions
  | leftOperand
  | rightOperand
  | thenBody
  | ifCondition
  | functionCall
  | actionCall
  | literal
  | binary (op : BinaryOp)
  | unary
  | variableRef
  | arrayInit
  | template
  | creation
  | access
deriving Repr, DecidableEq

namespace Kind

/-- The family of a kind. -/
def family : Kind → Family
  | packageDef | importDef | serviceDef | connectorDef | resourceDef | functionDef | actionDef
  | workerDef | annotationDef | annotationAttribute | parameterDef | connectorDecl | variableDecl
  | constantDef | returnType | returnArgument => .definition
  | assignment | comment | ifElse | whileLoop | functionCallStmt | reply | returning
  | statementText => .statement
  | leftOperand | rightOperand | thenBody | ifCondition | functionCall | actionCall | literal
  | binary _ | unary | variableRef | arrayInit | template | creation | access => .expression

/-- What a node of this kind carries under the key of its family. -/
def tag : Kind → String
  | packageDef => "package-definition"
  | importDef => "import-definition"
  | serviceDef => "service-definition"
  | connectorDef => "connector-definition"
  | resourceDef => "resource-definition"
  | functionDef => "function-definition"
  | actionDef => "action-definition"
  | workerDef => "worker-definition"
  | annotationDef => "annotation-definition"
  | annotationAttribute => "annotation-attribute"
  | parameterDef => "parameter-definition"
  | connectorDecl => "connector-declaration"
  | variableDecl => "variable-declaration"
  | constantDef => "constant-definition"
  | returnType => "return-type"
  | returnArgument => "return-argument"
  | assignment => "assignment-statement"
  | comment => "comment-statement"
  | ifElse => "if-else-statement"
  | whileLoop => "while-statement"
  | functionCallStmt => "function-invocation-statement"
  | reply => "reply-statement"
  | returning => "return-statement"
  | statementText => "statement-text"
  | leftOperand => "left-operand"
  | rightOperand => "right-operand"
  | thenBody => "then-body"
  | ifCondition => "if-condition"
  | functionCall => "function-invocation-expression"
  | actionCall => "action-invocation-expression"
  | literal => "basic-literal-expression"
  | binary .divide => "division-expression"
  | binary .add => "add-expression"
  | binary .subtract => "subtract-expression"
  | binary .multiply => "multiply-expression"
  | binary .and => "and-expression"
  | binary .or => "or-expression"
  | binary .equal => "equal-expression"
  | binary .notEqual => "not-equal-expression"
  | binary .greaterEqual => "greater-equal-expression"
  | binary .greaterThan => "greater-than-expression"
  | binary .lessEqual => "less-equal-expression"
  | binary .lessThan => "less-than-expression"
  | unary => "unary-expression"
  | variableRef => "variable-reference-expression"
  | arrayInit => "array-init-expression"
  | template => "back-quote-expression"
  | creation => "instance-creation-expression"
  | access => "array-map-access-expression"

/-- The dump of a kind. -/
def dump : Kind → Dump
  | packageDef => .atom "Package"
  | importDef => .atom "Import"
  | serviceDef => .atom "Service"
  | connectorDef => .atom "Connector"
  | resourceDef => .atom "Resource"
  | functionDef => .atom "Function"
  | actionDef => .atom "Action"
  | workerDef => .atom "Worker"
  | annotationDef => .atom "Annotation"
  | annotationAttribute => .atom "AnnotationAttribute"
  | parameterDef => .atom "Parameter"
  | connectorDecl => .atom "ConnectorDcl"
  | variableDecl => .atom "VariableDcl"
  | constantDef => .atom "Constant"
  | returnType => .atom "ReturnType"
  | returnArgument => .atom "ReturnArgument"
  | assignment => .atom "Assignment"
  | comment => .atom "Comment"
  | ifElse => .atom "IfElse"
  | whileLoop => .atom "While"
  | functionCallStmt => .atom "FunctionInvocationStmt"
  | reply => .atom "Reply"
  | returning => .atom "Return"
  | statementText => .atom "StatementText"
  | leftOperand => .atom "LeftOperand"
  | rightOperand => .atom "RightOperand"
  | thenBody => .atom "ThenBody"
  | ifCondition => .atom "IfCondition"
  | functionCall => .atom "FunctionInvocation"
  | actionCall => .atom "ActionInvocation"
  | literal => .atom "BasicLiteral"
  | binary op => op.dump
  | unary => .atom "Unary"
  | variableRef => .atom "VariableRef"
  | arrayInit => .atom "ArrayInit"
  | template => .atom "BackQuote"
  | creation => .atom "InstanceCreation"
  | access => .atom "ArrayMapAccess"

/-- All kinds. -/
def all : List Kind :=
  [packageDef, importDef, serviceDef, connectorDef, resourceDef, functionDef, actionDef, workerDef,
    annotationDef, annotationAttribute, parameterDef, connectorDecl, variableDecl, constantDef,
    returnType, returnArgument, assignment, comment, ifElse, whileLoop, functionCallStmt, reply,
    returning, statementText, leftOperand, rightOperand, thenBody, ifCondition, functionCall,
    actionCall, literal, binary .divide, binary .add, binary .subtract, binary .multiply,
    binary .and, binary .or, binary .equal, binary .notEqual, binary .greaterEqual,
    binary .greaterThan, binary .lessEqual, binary .lessThan, unary, variableRef, arrayInit,
    template, creation, access]

/-- The kind with a tag. -/
def ofTag? (tag : String) : Option Kind := all.find? fun k => k.tag = tag

end Kind

end TreeDoc.Document
