/-
  The families of nodes.

  Expressions and statements are read in the same way: a tag names one of the variants of
  the family, and the fields of this variant are read from what has been read in full.
  What is proved of a family holds of both.

  * `Variant.ofObject`, `Variant.ofArray`: a node read from an object or an array;
  * `NodeFamily`: expressions or statements, with their shape and variants;
  * `NodeFamily.decode_eq`: a tree is read as a node of its family;
  * `NodeFamily.tags_nodup`, `NodeFamily.keys_nodup`: tags, and the keys of one variant,
    are different.
-/
import Mathlib.Data.List.Nodup
import TreeDoc.Decode.Decoder

namespace TreeDoc.Decode

open Json

/-! ## Nodes with given variants -/

section
variable {α : Type}

/-- A node from an object: the tag that is found names the variant. -/
def Variant.ofObject (variants : List (Variant α)) (src : Source) (entries : Entries) :
    Except Failure α := do
  let i ← findTag src (variants.map Variant.tag) none entries
  match variants[i]? with
  | some w => (decodeObject .buffered w.layout.fields (Slots.empty _) entries).map w.layout.build
  | none => .error { cause := .missingField tagKey }

/-- A node from an array: the tag that comes first names the variant. -/
def Variant.ofArray (variants : List (Variant α)) (src : Source) : Items → Except Failure α
  | .item p tag rest => do
    let (i, _) ← firstTag src (variants.map Variant.tag) (.item p tag rest)
    match variants[i]? with
    | some w => (decodeArray .buffered w.layout.elements w.layout.fields 0 rest).map w.layout.build
    | none => .error { cause := .missingField tagKey }
  | items => do
    let _ ← firstTag src (variants.map Variant.tag) items
    .error { cause := .missingField tagKey }

end

/-! ## Families -/

/-- **A family of nodes:** expressions or statements. -/
inductive NodeFamily where
  | expr
  | stmt

namespace NodeFamily

/-- The shape of the nodes of a family. -/
@[reducible] def shape : NodeFamily → Shape
  | expr => .expr
  | stmt => .stmt

/-- The variants of the nodes of a family. -/
def variants : (n : NodeFamily) → List (Variant n.shape.Carrier)
  | expr => exprVariants
  | stmt => stmtVariants

/-- What a node of the family is called where something else stands. -/
def title : NodeFamily → String
  | expr => "internally tagged enum Expr"
  | stmt => "internally tagged enum Stmt"

/-- A tree read as a node of the family. -/
def read (n : NodeFamily) (src : Source) : Tree → Except Failure n.shape.Carrier
  | .array p items => src.enter p >>= fun src => Variant.ofArray n.variants src items
  | .object p entries => src.enter p >>= fun src => Variant.ofObject n.variants src entries
  | t => .error (mismatch src n.title t)

/-- **Nodes of both families** are read alike. -/
theorem decode_eq (n : NodeFamily) (src : Source) (t : Tree) : decode src t n.shape = n.read src t := by
  cases t with
  | null | bool | number | string | broken => cases n <;> simp only [decode] <;> rfl
  | object p entries =>
    cases n
    all_goals
      simp only [decode, read, Variant.ofObject]
      refine congrArg (Bind.bind _) (funext fun src => congrArg (Bind.bind _) (funext fun i => ?_))
      simp only [variants]
      split <;> simp_all
  | array p items =>
    cases items with
    | item q t rest =>
      cases n
      all_goals
        simp only [decode, read, Variant.ofArray]
        refine congrArg (Bind.bind _) (funext fun src => congrArg (Bind.bind _)
          (funext fun r => ?_))
        simp only [variants]
        split <;> simp_all
    | close | finished | stray | dangling | cut =>
      cases n <;> simp only [decode, read, Variant.ofArray] <;> rfl

theorem tags_nodup (n : NodeFamily) : (n.variants.map Variant.tag).Nodup := by
  cases n <;> decide

theorem keys_nodup (n : NodeFamily) :
    ∀ w ∈ n.variants, (tagKey :: w.layout.fields.map Field.key).Nodup := by
  cases n <;> decide

/-- A shape that is that of nodes is that of a family. -/
theorem exists_shape {s : Shape} (h : s = .expr ∨ s = .stmt) : ∃ n : NodeFamily, s = n.shape := by
  rcases h with rfl | rfl
  · exact ⟨.expr, rfl⟩
  · exact ⟨.stmt, rfl⟩

end NodeFamily

end TreeDoc.Decode
