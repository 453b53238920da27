/-
  The parts of a source file that a document may describe on their own.
-/
import TreeDoc.Program.Dump

namespace TreeDoc.Program

/-- A declaration, a statement or an expression. -/
inductive Element where
  | importDecl (decl : ImportDecl)
  | service (decl : ServiceDef)
  | connector (decl : ConnectorDef)
  | function (decl : FunctionDef)
  | action (decl : ActionDef)
  | resource (decl : ResourceDef)
  | worker (decl : WorkerDef)
  | annotationDef (decl : AnnotationDef)
  | parameter (decl : Parameter)
  | connectorDecl (decl : ConnectorDecl)
  | variableDecl (decl : VariableDecl)
  | constant (decl : ConstantDef)
  | struct (decl : StructDef)
  | typeConverter (decl : TypeConverter)
  | mainInvoker (decl : MainInvoker)
  | stmt (statement : Stmt)
  | expr (expression : Expr)
deriving Repr

/-- A declaration that is ordered by its position, as an element. -/
def TopLevel.element : TopLevel → Element
  | .constant d => .constant d
  | .service d => .service d
  | .function d => .function d

/-- The dump of an element. -/
def Element.dump : Element → Dump
  | .importDecl d => d.dump
  | .service d => d.dump
  | .connector d => d.dump
  | .function d => d.dump
  | .action d => d.dump
  | .resource d => d.dump
  | .worker d => d.dump
  | .annotationDef d => d.dump
  | .parameter d => d.dump
  | .connectorDecl d => d.dump
  | .variableDecl d => d.dump
  | .constant d => d.dump
  | .struct d => d.dump
  | .typeConverter d => d.dump
  | .mainInvoker d => d.dump
  | .stmt s => s.dump
  | .expr e => e.dump

end TreeDoc.Program
