/-
  Documents and their nodes.

  A node carries the tag of its kind, then attributes, then named groups of
  nodes, all in the order in which they were first set.

  * `Scalar`, `Node`: attribute values and nodes;
  * `Node.set`, `Node.attach`: the two ways to extend a node;
  * `Node.same`: equality up to the order of attributes and groups;
  * `Node.value`, `Document.value`: nodes and documents as JSON, in which an
    attribute and a group may share a key;
  * `Document.compact`, `Document.pretty`: the text of a document.
-/
import TreeDoc.Assoc
import TreeDoc.Document.Kind
import TreeDoc.Json.Writer

namespace TreeDoc.Document

open Json (Value)

/-! ## Scalars -/

/-- The value of an attribute. -/
inductive Scalar where
  | text (value : String)
  | bool (value : Bool)
  /-- An attribute that is known to have no value. -/
  | null
deriving Repr, DecidableEq

namespace Scalar

/-- A text that may be missing. -/
def ofOption : Option String → Scalar
  | some s => .text s
  | none => .null

/-- A scalar as JSON. -/
def value : Scalar → Value
  | .text s => .string s
  | .bool b => .bool b
  | .null => .null

/-- The dump of a scalar. -/
def dump : Scalar → Dump
  | .text s => .tuple "Text" [.text s]
  | .bool b => .tuple "Bool" [.bool b]
  | .null => .atom "Null"

end Scalar

/-! ## Nodes -/

/-- A node of a document. Neither list repeats a key if the node is made by
    `Node.ofKind`, `Node.set` and `Node.attach`. -/
structure Node where
  kind : Kind
  attrs : List (String × Scalar)
  groups : List (String × List Node)
deriving Repr

/-- The key of the group that most nodes have. -/
def childrenKey : String := "children"

namespace Node

/-- A bare node. -/
def ofKind (kind : Kind) : Node := { kind, attrs := [], groups := [] }

/-- The node with an attribute. -/
def set (key : String) (value : Scalar) (n : Node) : Node :=
  { n with attrs := Assoc.insert key value n.attrs }

/-- The node with a text attribute. -/
def setText (key : String) (text : String) (n : Node) : Node := n.set key (.text text)

/-- The node with a group. -/
def attach (key : String) (group : List Node) (n : Node) : Node :=
  { n with groups := Assoc.insert key group n.groups }

/-- The attribute under a key. -/
def attr? (n : Node) (key : String) : Option Scalar := Assoc.get? key n.attrs

/-- The group under a key. -/
def group? (n : Node) (key : String) : Option (List Node) := Assoc.get? key n.groups

/-- The children; a node without that group has none. -/
def children (n : Node) : List Node := (n.group? childrenKey).getD []

end Node

/-! ## Equality up to order -/

/-- The attribute lists have the same keys and values. -/
def sameAttrs (as bs : List (String × Scalar)) : Bool :=
  as.length = bs.length && as.all fun (k, a) => Assoc.get? k bs = some a

mutual

/-- Equality up to the order of attributes and groups; the nodes of a group are
    compared in order. -/
def Node.same : Node → Node → Bool
  | ⟨kind, attrs, groups⟩, n =>
    kind = n.kind && sameAttrs attrs n.attrs && groups.length = n.groups.length &&
      sameGroups groups n.groups

/-- Every group of the first list has one of the same key and nodes in the
    second. -/
def sameGroups : List (String × List Node) → List (String × List Node) → Bool
  | [], _ => true
  | (k, as) :: gs, hs =>
    (match Assoc.get? k hs with
      | some bs => sameNodes as bs
      | none => false) && sameGroups gs hs

/-- The nodes are the same, one by one. -/
def sameNodes : List Node → List Node → Bool
  | [], [] => true
  | a :: as, b :: bs => a.same b && sameNodes as bs
  | _, _ => false

end

/-! ## JSON -/

mutual

/-- A node as JSON: its tag, its attributes, its groups. -/
def Node.value : Node → Value
  | ⟨kind, attrs, groups⟩ =>
    .object ((kind.family.key, .string kind.tag) :: attrs.map (fun (k, s) => (k, s.value)) ++
      groupValues groups)

/-- Groups as entries of an object. -/
def groupValues : List (String × List Node) → List (String × Value)
  | [] => []
  | (k, ns) :: gs => (k, .array (nodeValues ns)) :: groupValues gs

/-- Nodes as items of an array. -/
def nodeValues : List Node → List Value
  | [] => []
  | n :: ns => n.value :: nodeValues ns

end

/-- The compact text of a node. -/
def Node.compact (n : Node) : String := n.value.compact

/-- The compact text of a list of nodes. -/
def compactNodes (ns : List Node) : String := (Value.array (nodeValues ns)).compact

/-! ## Dumps -/

mutual

/-- The dump of a node. -/
def Node.dump : Node → Dump
  | ⟨kind, attrs, groups⟩ =>
    .record "DocNode" [("kind", kind.dump),
      ("attrs", .table (attrs.map fun (k, s) => (k, s.dump))), ("groups", .table (groupDumps groups))]

/-- The dumps of groups. -/
def groupDumps : List (String × List Node) → List (String × Dump)
  | [] => []
  | (k, ns) :: gs => (k, .list (nodeDumps ns)) :: groupDumps gs

/-- The dumps of nodes. -/
def nodeDumps : List Node → List Dump
  | [] => []
  | n :: ns => n.dump :: nodeDumps ns

end

end TreeDoc.Document

/-! ## Documents -/

namespace TreeDoc

/-- What is made of one source file. -/
structure Document where
  root : List Document.Node
deriving Repr

namespace Document

/-- A document as JSON, with any repeated key kept. -/
def value (d : Document) : Json.Value := .object [("root", .array (nodeValues d.root))]

/-- The text of a document on one line. -/
def compact (d : Document) : String := d.value.compact

/-- The text of a document with every item and entry on a line of its own. -/
def pretty (d : Document) : String := d.value.pretty

/-- A document as JSON with every key once. -/
def merged (d : Document) : Json.Value := d.value.merged

end Document

end TreeDoc
