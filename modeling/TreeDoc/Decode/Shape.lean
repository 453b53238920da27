/-
  What is expected at a place of a JSON text.

  * `Choice`, `Record`: the enumerations and structures of a program file;
  * `Shape`: what a value should look like, and `Shape.Carrier`, the type of
    what it is read as;
  * `Field`, `Values`: the fields of a structure, and a value for each of them;
  * `Slots`: the values found so far.
-/
import TreeDoc.Model.Settings
import TreeDoc.Program.Syntax

namespace TreeDoc.Decode

open Program Model

/-! ## Shapes -/

/-- Enumerations whose members have nothing but a name. -/
inductive Choice where
  | binaryOp
  | unaryOp
  | storage
  | strategy
deriving Repr, DecidableEq

/-- The type of the members of an enumeration. -/
@[reducible] def Choice.Carrier : Choice → Type
  | binaryOp => BinaryOp
  | unaryOp => UnaryOp
  | storage => Storage
  | strategy => Strategy

/-- Structures with named fields. -/
inductive Record where
  | file
  | importDecl
  | service
  | connector
  | function
  | action
  | resource
  | worker
  | annotationDef
  | parameter
  | returnParameter
  | connectorDecl
  | variableDecl
  | constant
  | struct
  | typeConverter
  | mainInvoker
  | block
  | typedLiteral
  | settings
deriving Repr, DecidableEq

/-- The type of a structure. -/
@[reducible] def Record.Carrier : Record → Type
  | file => File
  | importDecl => ImportDecl
  | service => ServiceDef
  | connector => ConnectorDef
  | function => FunctionDef
  | action => ActionDef
  | resource => ResourceDef
  | worker => WorkerDef
  | annotationDef => AnnotationDef
  | parameter => Parameter
  | returnParameter => ReturnParameter
  | connectorDecl => ConnectorDecl
  | variableDecl => VariableDecl
  | constant => ConstantDef
  | struct => StructDef
  | typeConverter => TypeConverter
  | mainInvoker => MainInvoker
  | block => Block
  | typedLiteral => TypedLiteral
  | settings => Settings

/-- What a value should look like. -/
inductive Shape where
  | text
  | flag
  | position
  | offset
  | attributes
  | literal
  | choice (choice : Choice)
  | record (record : Record)
  | expr
  | stmt
  | list (item : Shape)
deriving Repr, DecidableEq

/-- The type of what a value of this shape is read as. -/
@[reducible] def Shape.Carrier : Shape → Type
  | text => String
  | flag => Bool
  | position => UInt32
  | offset => UInt64
  | attributes => List (String × String)
  | literal => Literal
  | choice c => c.Carrier
  | record r => r.Carrier
  | expr => Expr
  | stmt => Stmt
  | list s => List s.Carrier

/-- What a missing value of this shape is read as, if it may be missing. -/
def Shape.absent : (s : Shape) → Option s.Carrier
  | text => some ""
  | flag => some false
  | position => some 0
  | offset => some 0
  | attributes => some []
  | choice .strategy => some .structuredWithText
  | list _ => some []
  | choice .binaryOp | choice .unaryOp | choice .storage | literal | record _ | expr | stmt => none

/-! ## Fields -/

/-- A field of a structure. -/
inductive Field where
  /-- The field must be there. -/
  | required (key : String) (shape : Shape)
  /-- A missing field has the value that its shape gives it. -/
  | defaulted (key : String) (shape : Shape)
  /-- The field may be missing or null. -/
  | optional (key : String) (shape : Shape)
deriving Repr, DecidableEq

/-- The key of a field. -/
def Field.key : Field → String
  | required k _ | defaulted k _ | optional k _ => k

/-- The type of what a field is read as. -/
@[reducible] def Field.Carrier : Field → Type
  | required _ s | defaulted _ s => s.Carrier
  | optional _ s => Option s.Carrier

/-- What a missing field is read as, if it may be missing. -/
def Field.absent : (f : Field) → Option f.Carrier
  | required _ _ => none
  | defaulted _ s => s.absent
  | optional _ _ => some none

/-- A value for each field. -/
@[reducible] def Values : List Field → Type
  | [] => Unit
  | f :: fs => f.Carrier × Values fs

/-- The values of fields that are all missing, or the number of fields before
    the first one that must be there. -/
def Values.absent (count : Nat) : (fs : List Field) → Except Nat (Values fs)
  | [] => .ok ()
  | f :: fs =>
    match f.absent with
    | none => .error count
    | some v => (Values.absent (count + 1) fs).map (v, ·)

/-- The values found so far. -/
@[reducible] def Slots : List Field → Type
  | [] => Unit
  | f :: fs => Option f.Carrier × Slots fs

/-- Nothing is found yet. -/
def Slots.empty : (fs : List Field) → Slots fs
  | [] => ()
  | _ :: fs => (none, Slots.empty fs)

/-- Reads the field with a key and keeps its value. A field that has a value is
    a `duplicate`; if there is no field with this key the result is `none`. -/
def Slots.put {ε : Type} (key : String) (duplicate : ε) (read : (f : Field) → Except ε f.Carrier) :
    (fs : List Field) → Slots fs → Except ε (Option (Slots fs))
  | [], _ => .ok none
  | f :: fs, (slot, slots) =>
    if f.key = key then
      match slot with
      | some _ => .error duplicate
      | none => (read f).map fun v => some (some v, slots)
    else (Slots.put key duplicate read fs slots).map fun r => r.map (slot, ·)

/-- A value for each field, or the key of the first one that is missing. -/
def Slots.finish : (fs : List Field) → Slots fs → Except String (Values fs)
  | [], _ => .ok ()
  | f :: fs, (slot, slots) =>
    match slot <|> f.absent with
    | none => .error f.key
    | some v => (Slots.finish fs slots).map (v, ·)

/-! ## Layouts -/

/-- How a structure is written: its title in messages, its fields in order, and
    what their values make. -/
structure Layout (α : Type) where
  title : String
  fields : List Field
  build : Values fields → α

/-- The words for the number of fields. -/
def Layout.elements {α : Type} (l : Layout α) : String :=
  match l.fields.length with
  | 1 => l.title ++ " with 1 element"
  | n => l.title ++ " with " ++ toString n ++ " elements"

/-- One of several ways to write a value, told apart by a tag. -/
structure Variant (α : Type) where
  tag : String
  layout : Layout α

end TreeDoc.Decode
