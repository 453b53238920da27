/-
  What is expected inside a tree.

  A shape says what should stand at a place, and with it what should stand at the places
  inside: the items of a list, the fields of a structure or node, the tag of a node. This
  is how the decoder goes on from a tree to its parts.

  * `Tree.depth`: how many arrays and objects stand inside one another, in any tree;
  * `Items.trees`, `Entries.pairs`: items and entries up to the first fault;
  * `Expectation`: a shape, or the tag of a node;
  * `Part`: one step from a tree into a part of it, and what is expected there;
  * `Leads`: a way of such steps;
  * `Part.depth_lt`: parts are less deep than the whole;
  * `Leads.at?`: a way through the tree of a value is a way through the value.
-/
import TreeDoc.Proofs.Likeness

namespace TreeDoc.Json

/-! ## Depth -/

mutual

/-- How many arrays and objects stand inside one another. -/
def Tree.depth : Tree → Nat
  | .array _ items => items.depth + 1
  | .object _ entries => entries.depth + 1
  | .null _ _ | .bool _ _ _ | .number _ _ _ | .string _ _ _ | .broken _ _ _ => 0

/-- The depth of the deepest item. -/
def Items.depth : Items → Nat
  | .item _ value rest => max value.depth rest.depth
  | .close _ | .finished _ | .stray _ | .dangling _ | .cut _ => 0

/-- The depth of the deepest entry. -/
def Entries.depth : Entries → Nat
  | .entry _ _ _ value rest => max value.depth rest.depth
  | .close _ | .finished _ | .stray _ | .dangling _ _ | .cut _ _ | .keyless _ _
  | .brokenKey _ _ _ | .colonless _ _ _ _ => 0

end

mutual

/-- A tree without faults is as deep as its value. -/
theorem depth_of_denotes : ∀ {t : Tree} {v : Value}, Denotes t v → t.depth = v.depth
  | _, _, .null | _, _, .bool | _, _, .number | _, _, .string => by
    rw [Tree.depth, Value.depth] <;> nofun
  | _, _, .array h => by rw [Tree.depth, Value.depth, itemsDepth_of_denotes h]
  | _, _, .object h => by rw [Tree.depth, Value.depth, entriesDepth_of_denotes h]

theorem itemsDepth_of_denotes : ∀ {items : Items} {vs : List Value}, DenotesItems items vs →
    items.depth = itemsDepth vs
  | _, _, .close => by rw [Items.depth, itemsDepth]
  | _, _, .item ht h => by
    rw [Items.depth, itemsDepth, depth_of_denotes ht, itemsDepth_of_denotes h]

theorem entriesDepth_of_denotes : ∀ {entries : Entries} {es : List (String × Value)},
    DenotesEntries entries es → entries.depth = entriesDepth es
  | _, _, .close => by rw [Entries.depth, entriesDepth]
  | _, _, .entry ht h => by
    rw [Entries.depth, entriesDepth, depth_of_denotes ht, entriesDepth_of_denotes h]

end

/-! ## Items and entries -/

/-- The items up to the first fault. -/
def Items.trees : Items → List Tree
  | .item _ value rest => value :: rest.trees
  | _ => []

/-- The entries up to the first fault. -/
def Entries.pairs : Entries → List (String × Tree)
  | .entry _ (.ok k) _ value rest => (k, value) :: rest.pairs
  | _ => []

theorem depth_le_of_mem_trees {t : Tree} : ∀ {items : Items}, t ∈ items.trees →
    t.depth ≤ items.depth
  | .item _ value rest, h => by
    rw [Items.depth]
    rcases List.mem_cons.1 h with rfl | h
    · exact Nat.le_max_left _ _
    · exact Nat.le_trans (depth_le_of_mem_trees h) (Nat.le_max_right _ _)

theorem depth_le_of_mem_pairs {k : String} {t : Tree} : ∀ {entries : Entries},
    (k, t) ∈ entries.pairs → t.depth ≤ entries.depth
  | .entry _ (.ok _) _ value rest, h => by
    rw [Entries.depth]
    rcases List.mem_cons.1 h with h | h
    · cases h
      exact Nat.le_max_left _ _
    · exact Nat.le_trans (depth_le_of_mem_pairs h) (Nat.le_max_right _ _)

@[simp] theorem trees_ofValues (vs : List Value) :
    (Items.ofValues vs).trees = vs.map Tree.ofValue := by
  induction vs with
  | nil => rw [Items.ofValues]; rfl
  | cons v vs ih => rw [Items.ofValues, Items.trees, ih, List.map_cons]

@[simp] theorem pairs_ofEntries (es : List (String × Value)) :
    (Entries.ofEntries es).pairs = es.map fun e => (e.1, Tree.ofValue e.2) := by
  induction es with
  | nil => rw [Entries.ofEntries]; rfl
  | cons e es ih => rw [Entries.ofEntries, Entries.pairs, ih, List.map_cons]

theorem get?_pairs_ofEntries (k : String) (es : List (String × Value)) :
    Assoc.get? k (Entries.ofEntries es).pairs = (Assoc.get? k es).map Tree.ofValue := by
  rw [pairs_ofEntries, Assoc.get?_map]

end TreeDoc.Json

namespace TreeDoc.Decode

open Json Program

/-! ## Parts of what is expected -/

/-- What may be expected at a place: a shape, or one of the tags of a node. -/
inductive Expectation where
  | shape (shape : Shape)
  | tag (tags : List String)
deriving Repr, DecidableEq

/-- The tags of nodes of this shape. -/
def Shape.tags : Shape → Option (List String)
  | .expr => some (exprVariants.map Variant.tag)
  | .stmt => some (stmtVariants.map Variant.tag)
  | _ => none

theorem NodeFamily.tags (n : NodeFamily) :
    n.shape.tags = some (n.variants.map Variant.tag) := by
  cases n <;> rfl

/-- What is expected of the value of a field; nothing, if a null stands for a missing
    one. -/
def Field.expects (t : Tree) : Field → Option Shape
  | .required _ s | .defaulted _ s => some s
  | .optional _ s => if isNull t then none else some s

/-- **One step into a tree** of a shape: the part that is there, and what is expected of
    it. -/
inductive Part : Shape → Tree → Step → Expectation → Tree → Prop
  | item {s : Shape} {p i : Nat} {items : Items} {t : Tree} :
    items.trees[i]? = some t → Part (.list s) (.array p items) (.index i) (.shape s) t
  | attr {p : Nat} {entries : Entries} {k : String} {t : Tree} :
    Assoc.get? k entries.pairs = some t →
      Part .attributes (.object p entries) (.key k) (.shape .text) t
  | element {r : Record} {p i : Nat} {items : Items} {f : Field} {s : Shape} {t : Tree} :
    r.layout.fields[i]? = some f → items.trees[i]? = some t → f.expects t = some s →
      Part (.record r) (.array p items) (.index i) (.shape s) t
  | entry {r : Record} {p : Nat} {entries : Entries} {k : String} {f : Field} {s : Shape}
      {t : Tree} :
    r.layout.fields.find? (·.key = k) = some f → Assoc.get? k entries.pairs = some t →
      f.expects t = some s → Part (.record r) (.object p entries) (.key k) (.shape s) t
  | firstTag {s : Shape} {tags : List String} {p q : Nat} {t : Tree} {rest : Items} :
    s.tags = some tags → Part s (.array p (.item q t rest)) (.index 0) (.tag tags) t
  | tagEntry {s : Shape} {tags : List String} {p : Nat} {entries : Entries} {t : Tree} :
    s.tags = some tags → Assoc.get? tagKey entries.pairs = some t →
      Part s (.object p entries) (.key tagKey) (.tag tags) t
  | nodeElement {s s' : Shape} {p q i : Nat} {tag t : Tree} {u : Value} {rest : Items}
      {fs : List Field} {f : Field} :
    Denotes tag u → s.nodeFields u = some fs → fs[i]? = some f → rest.trees[i]? = some t →
      f.expects t = some s' → Part s (.array p (.item q tag rest)) (.index (i + 1)) (.shape s') t
  | nodeEntry {s s' : Shape} {p : Nat} {entries : Entries} {k : String} {tag t : Tree} {u : Value}
      {fs : List Field} {f : Field} :
    Assoc.get? tagKey entries.pairs = some tag → Denotes tag u → s.nodeFields u = some fs →
      fs.find? (·.key = k) = some f → Assoc.get? k entries.pairs = some t →
      f.expects t = some s' → Part s (.object p entries) (.key k) (.shape s') t

/-- **A way into a tree**, and what is expected where it ends. -/
inductive Leads : Expectation → Tree → Path → Expectation → Tree → Prop
  | here {e : Expectation} {t : Tree} : Leads e t [] e t
  | into {s : Shape} {t t' t'' : Tree} {step : Step} {path : Path} {e' e'' : Expectation} :
    Part s t step e' t' → Leads e' t' path e'' t'' → Leads (.shape s) t (step :: path) e'' t''

/-- A part is less deep than the whole. -/
theorem Part.depth_lt {s : Shape} {t t' : Tree} {step : Step} {e : Expectation}
    (h : Part s t step e t') : t'.depth < t.depth := by
  cases h with
  | item h | element _ h _ =>
    rw [Tree.depth]
    exact Nat.lt_succ_of_le (depth_le_of_mem_trees (List.mem_of_getElem? h))
  | attr h | entry _ h _ | tagEntry _ h | nodeEntry _ _ _ _ h _ =>
    rw [Tree.depth]
    exact Nat.lt_succ_of_le (depth_le_of_mem_pairs (Assoc.mem_of_get? h))
  | firstTag _ =>
    rw [Tree.depth, Items.depth]
    exact Nat.lt_succ_of_le (Nat.le_max_left _ _)
  | nodeElement _ _ _ h _ =>
    rw [Tree.depth, Items.depth]
    exact Nat.lt_succ_of_le (Nat.le_trans (depth_le_of_mem_trees (List.mem_of_getElem? h))
      (Nat.le_max_right _ _))

end TreeDoc.Decode

/-! ## Ways through values -/

namespace TreeDoc.Json

open Decode (Step Path)

/-- The part of a value that a step leads to. -/
def Value.child? : Value → Step → Option Value
  | .array vs, .index i => vs[i]?
  | .object es, .key k => Assoc.get? k es
  | _, _ => none

/-- What a path leads to in a value. -/
def Value.at? (v : Value) : Path → Option Value
  | [] => some v
  | step :: path => (v.child? step).bind fun u => u.at? path

end TreeDoc.Json

namespace TreeDoc.Decode

open Json Program

theorem Part.child? {s : Shape} {v : Value} {step : Step} {e : Expectation} {t : Tree}
    (h : Part s (Tree.ofValue v) step e t) : ∃ u, v.child? step = some u ∧ t = Tree.ofValue u := by
  cases v with
  | array vs =>
    rw [Tree.ofValue] at h
    have hitem : ∀ {i : Nat}, (Items.ofValues vs).trees[i]? = some t →
        ∃ u, (Value.array vs).child? (.index i) = some u ∧ t = Tree.ofValue u := fun hi => by
      rw [trees_ofValues, List.getElem?_map] at hi
      obtain ⟨u, hu, rfl⟩ := Option.map_eq_some_iff.1 hi
      exact ⟨u, hu, rfl⟩
    generalize hitems : Items.ofValues vs = items at h hitem
    cases h with
    | item h | element _ h _ => exact hitem h
    | firstTag _ => exact hitem rfl
    | nodeElement _ _ _ h _ => exact hitem h
  | object es =>
    rw [Tree.ofValue] at h
    have hentry : ∀ {k : String}, Assoc.get? k (Entries.ofEntries es).pairs = some t →
        ∃ u, (Value.object es).child? (.key k) = some u ∧ t = Tree.ofValue u := fun hk => by
      rw [get?_pairs_ofEntries] at hk
      obtain ⟨u, hu, rfl⟩ := Option.map_eq_some_iff.1 hk
      exact ⟨u, hu, rfl⟩
    cases h with
    | attr h | entry _ h _ | tagEntry _ h | nodeEntry _ _ _ _ h _ => exact hentry h
  | null | bool | number | string =>
    rw [Tree.ofValue] at h
    cases h

/-- **A way through the tree of a value** is a way through the value. -/
theorem Leads.at? {e e' : Expectation} {v : Value} {path : Path} {t : Tree}
    (h : Leads e (Tree.ofValue v) path e' t) : ∃ u, v.at? path = some u ∧ t = Tree.ofValue u := by
  induction path generalizing v e with
  | nil =>
    cases h
    exact ⟨v, rfl, rfl⟩
  | cons step path ih =>
    cases h with
    | into hpart hrest =>
      obtain ⟨u, hu, rfl⟩ := hpart.child?
      obtain ⟨w, hw, rfl⟩ := ih hrest
      exact ⟨w, by rw [Value.at?, hu, Option.bind_some, hw], rfl⟩

end TreeDoc.Decode
