/-
  The text of a document and its value.

  * `Node.value_integral`: documents hold no doubles;
  * `Node.depth_eq`, `Node.depth_le`: only the groups of a node have a depth;
  * `Document.text_agrees`: both texts of a document are read as its value.
-/
import TreeDoc.Proofs.Grammar
import TreeDoc.Proofs.Keys

namespace TreeDoc.Document

open Json (Value)

/-! ## Values of documents -/

/-- Attributes have no parts of their own, so what skips a scalar skips all of them. -/
theorem skip_attrs {β : Type} {measure : List (String × Value) → β}
    (h : ∀ (k : String) (s : Scalar) es, measure ((k, s.value) :: es) = measure es)
    (attrs : List (String × Scalar)) (es : List (String × Value)) :
    measure (attrs.map (fun (k, s) => (k, s.value)) ++ es) = measure es := by
  induction attrs with
  | nil => rfl
  | cons a attrs ih => rw [List.map_cons, List.cons_append, h, ih]

theorem integral_attrs (attrs : List (String × Scalar)) (es : List (String × Value)) :
    Json.integralEntries (attrs.map (fun (k, s) => (k, s.value)) ++ es) =
      Json.integralEntries es :=
  skip_attrs (fun _ s _ => by cases s <;> rfl) attrs es

mutual

theorem Node.value_integral : ∀ n : Node, n.value.integral = true
  | ⟨kind, attrs, groups⟩ => by
    rw [Node.value, Value.integral, List.cons_append, Json.integralEntries, integral_attrs,
      groupValues_integral groups]
    rfl

theorem groupValues_integral : ∀ gs : List (String × List Node),
    Json.integralEntries (groupValues gs) = true
  | [] => by rw [groupValues]; rfl
  | (k, ns) :: gs => by
    rw [groupValues, Json.integralEntries, Value.integral, nodeValues_integral ns,
      groupValues_integral gs]
    rfl

theorem nodeValues_integral : ∀ ns : List Node, Json.integralItems (nodeValues ns) = true
  | [] => by rw [nodeValues]; rfl
  | n :: ns => by
    rw [nodeValues, Json.integralItems, n.value_integral, nodeValues_integral ns]
    rfl

end

theorem value_integral (d : Document) : d.value.integral = true := by
  rw [value, Value.integral, Json.integralEntries, Value.integral, nodeValues_integral]
  rfl

theorem nodeValues_eq_map : ∀ ns : List Node, nodeValues ns = ns.map Node.value
  | [] => by rw [nodeValues]; rfl
  | n :: ns => by rw [nodeValues, nodeValues_eq_map ns]; rfl

/-! ## Depth -/

theorem entriesDepth_attrs (attrs : List (String × Scalar)) (es : List (String × Value)) :
    Json.entriesDepth (attrs.map (fun (k, s) => (k, s.value)) ++ es) = Json.entriesDepth es :=
  skip_attrs (fun _ s _ => by cases s <;> exact Nat.zero_max _) attrs es

/-- Only the groups of a node have a depth. -/
theorem Node.depth_eq (n : Node) :
    n.value.depth = Json.entriesDepth (groupValues n.groups) + 1 := by
  rw [n.value_eq, Value.depth, Node.entries, List.cons_append, Json.entriesDepth,
    entriesDepth_attrs]
  simp [Value.depth]

theorem Node.depth_of_children {n : Node} {ns : List Node} (h : n.groups = [("children", ns)]) :
    n.value.depth = Json.itemsDepth (nodeValues ns) + 2 := by
  rw [n.depth_eq, h]
  simp [groupValues, Json.entriesDepth, Value.depth]

theorem nodesDepth_le {d : Nat} : ∀ {ns : List Node}, (∀ m ∈ ns, m.value.depth ≤ d) →
    Json.itemsDepth (nodeValues ns) ≤ d
  | [], _ => Nat.zero_le d
  | n :: ns, h => by
    obtain ⟨hn, hns⟩ := List.forall_mem_cons.1 h
    rw [nodeValues, Json.itemsDepth]
    exact Nat.max_le.2 ⟨hn, nodesDepth_le hns⟩

theorem groupsDepth_le {d : Nat} : ∀ {gs : List (String × List Node)},
    (∀ g ∈ gs, ∀ m ∈ g.2, m.value.depth ≤ d) → Json.entriesDepth (groupValues gs) ≤ d + 1
  | [], _ => Nat.zero_le _
  | (k, ns) :: gs, h => by
    obtain ⟨hns, hgs⟩ := List.forall_mem_cons.1 h
    rw [groupValues, Json.entriesDepth, Value.depth]
    exact Nat.max_le.2 ⟨Nat.succ_le_succ (nodesDepth_le hns), groupsDepth_le hgs⟩

/-- A node adds two levels to those in its groups. -/
theorem Node.depth_le {n : Node} {d : Nat} (h : ∀ g ∈ n.groups, ∀ m ∈ g.2, m.value.depth ≤ d) :
    n.value.depth ≤ d + 2 := by
  rw [n.depth_eq]
  exact Nat.succ_le_succ (groupsDepth_le h)

/-! ## Merged keys -/

theorem merged_eq (d : Document) :
    d.merged = .object [("root", .array (d.root.map fun n => n.value.merged))] := by
  rw [merged, value, Value.merged, Json.mergedEntries, Json.mergedEntries, Value.merged,
    Json.mergedItems_eq_map, nodeValues_eq_map, List.map_map]
  rfl

theorem Node.merged_eq (n : Node) :
    n.value.merged = .object (Assoc.merge (n.entries.map fun e => (e.1, e.2.merged))) := by
  rw [n.value_eq, Value.merged, Json.mergedEntries_eq_map]

/-- **Text and value of a document.** If not more than 127 arrays and objects stand
    inside one another, both texts of a document are read as its value. There
    every node has its keys in the place of their first entry, and under each the
    value of its last one. -/
theorem text_agrees {d : Document} (h : d.value.depth ≤ 127) :
    Decode.readText d.compact = .ok d.merged ∧ Decode.readText d.pretty = .ok d.merged ∧
    d.merged = .object [("root", .array (d.root.map fun n => n.value.merged))] ∧
    ∀ n : Node, ∃ es, n.value.merged = .object es ∧
      es.map Prod.fst = (n.entries.map Prod.fst).eraseDups ∧
      ∀ k, Assoc.get? k es = (Assoc.get? k n.entries.reverse).map Value.merged := by
  refine ⟨?_, ?_, d.merged_eq, fun n => ⟨_, n.merged_eq, ?_, fun k => ?_⟩⟩
  · exact Decode.readText_of_spells (Json.compact_spells d.value_integral) h
  · exact Decode.readText_of_spells (Json.prettyAt_spells 0 d.value_integral) h
  · rw [Assoc.keys_merge, List.map_map]
    rfl
  · rw [Assoc.get?_merge, ← List.map_reverse, Assoc.get?_map]

/-- A document whose only node uses the key of its tag for an attribute, and one
    key for an attribute and a group. -/
def clashing : Document where
  root := [(Node.ofKind .comment).setText "statement-type" "\"\\\x00\n"
    |>.set "children" (.bool true)
    |>.attach "children" []]

theorem clashing_text :
    Decode.readText clashing.compact = .ok clashing.merged ∧
    Decode.readText clashing.pretty = .ok clashing.merged ∧
    clashing.merged = .object [("root", .array [.object [
      ("statement-type", .string "\"\\\x00\n"), ("children", .array [])]])] := by
  have hdepth : clashing.value.depth ≤ 127 := by decide
  obtain ⟨hcompact, hpretty, -⟩ := text_agrees hdepth
  exact ⟨hcompact, hpretty, rfl⟩

end TreeDoc.Document
