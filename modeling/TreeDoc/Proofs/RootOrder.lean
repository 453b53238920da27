/-
  The root of a document: nothing is lost, repeated or out of order.

  The declarations that are ordered by their position are listed as constants,
  services and functions. Of all permutations of that list exactly one is
  sorted and keeps the order of those at the same position.

  * `StableOrder f σ`: `σ` is such a permutation;
  * `stableOrder_iff`: there is exactly one, that of sorting by position and
    then by place;
  * `ordered_eq`: it is the order in which a document has the declarations;
  * `root_assembly`: the whole root, as the nodes of the parts of the file.
-/
import TreeDoc.Proofs.Emitter
import Mathlib.Data.Fin.Tuple.Sort

namespace TreeDoc.Program

/-! ## Sorting by position and place -/

/-- The positions of the ordered declarations, as they are listed. -/
def File.positions (f : File) (i : Fin f.topLevel.length) : ℕ := (f.topLevel.get i).position.toNat

/-- The permutation puts the declarations in the order of their positions, and
    those at the same position in the order in which they are listed. -/
structure StableOrder (f : File) (σ : Equiv.Perm (Fin f.topLevel.length)) : Prop where
  sorted : ∀ i j, i ≤ j →
    (f.topLevel.get (σ i)).position ≤ (f.topLevel.get (σ j)).position
  stable : ∀ i j, i < j →
    (f.topLevel.get (σ i)).position = (f.topLevel.get (σ j)).position → σ i < σ j

theorem stableOrder_iff (f : File) (σ : Equiv.Perm (Fin f.topLevel.length)) :
    StableOrder f σ ↔ σ = Tuple.sort f.positions := by
  rw [Tuple.eq_sort_iff]
  constructor
  · intro h
    refine ⟨fun i j hij => UInt32.le_iff_toNat_le.1 (h.sorted i j hij), fun i j hij he => ?_⟩
    exact h.stable i j hij (UInt32.toNat_inj.1 he)
  · rintro ⟨hm, hs⟩
    refine ⟨fun i j hij => UInt32.le_iff_toNat_le.2 (hm hij), fun i j hij he => ?_⟩
    exact hs i j hij (UInt32.toNat_inj.2 he)

/-- A declaration and its place in the list. -/
def File.placed (f : File) (i : Fin f.topLevel.length) : TopLevel × ℕ := (f.topLevel.get i, i)

theorem ofFn_placed (f : File) : List.ofFn f.placed = f.topLevel.zipIdx := by
  refine List.ext_getElem (by simp) fun i h₁ h₂ => ?_
  simp [File.placed]

/-- Earlier by position, or at the same position and listed earlier. -/
def placedLE (a b : TopLevel × ℕ) : Bool :=
  List.zipIdxLE (fun a b : TopLevel => a.position ≤ b.position) a b

theorem placedLE_iff {a b : TopLevel × ℕ} : placedLE a b = true ↔
    a.1.position < b.1.position ∨ a.1.position = b.1.position ∧ a.2 ≤ b.2 := by
  simp only [placedLE, List.zipIdxLE, UInt32.le_iff_toNat_le, UInt32.lt_iff_toNat_lt,
    ← UInt32.toNat_inj, decide_eq_true_eq]
  split_ifs <;> simp <;> omega

/-- The list is the same whether places break the ties or not. -/
theorem ordered_eq_placed (f : File) :
    f.ordered = (f.topLevel.zipIdx.mergeSort placedLE).map Prod.fst := List.mergeSort_zipIdx.symm

theorem pairwise_placed {f : File} {σ : Equiv.Perm (Fin f.topLevel.length)} (h : StableOrder f σ) :
    (List.ofFn (f.placed ∘ σ)).Pairwise (fun a b => placedLE a b = true) := by
  rw [List.pairwise_ofFn]
  intro i j hij
  rw [placedLE_iff]
  rcases (UInt32.le_iff_lt_or_eq).1 (h.sorted i j hij.le) with hlt | heq
  · exact Or.inl hlt
  · exact Or.inr ⟨heq, (h.stable i j hij heq).le⟩

theorem placedLE_antisymm {f : File} {a b : TopLevel × ℕ} (ha : a ∈ f.topLevel.zipIdx)
    (hb : b ∈ f.topLevel.zipIdx) (hab : placedLE a b = true) (hba : placedLE b a = true) :
    a = b := by
  rw [placedLE_iff] at hab hba
  rw [List.mem_zipIdx_iff_getElem?] at ha hb
  have hplace : a.2 = b.2 := by
    simp only [UInt32.lt_iff_toNat_lt, ← UInt32.toNat_inj] at hab hba
    omega
  rw [hplace, hb] at ha
  exact Prod.ext (Option.some.inj ha).symm hplace

/-- **The order of a document is the stable one.** -/
theorem ordered_eq {f : File} {σ : Equiv.Perm (Fin f.topLevel.length)} (h : StableOrder f σ) :
    f.ordered = List.ofFn fun i => f.topLevel.get (σ i) := by
  have hperm : (f.topLevel.zipIdx.mergeSort placedLE).Perm (List.ofFn (f.placed ∘ σ)) := by
    refine (List.mergeSort_perm _ _).trans ?_
    rw [← ofFn_placed]
    exact (σ.ofFn_comp_perm f.placed).symm
  have hsorted : (f.topLevel.zipIdx.mergeSort placedLE).Pairwise
      (fun a b => placedLE a b = true) := by
    refine List.pairwise_mergeSort ?_ ?_ _
    · intro a b c hab hbc
      simp only [placedLE_iff, UInt32.lt_iff_toNat_lt, ← UInt32.toNat_inj] at *
      omega
    · intro a b
      simp only [Bool.or_eq_true, placedLE_iff, UInt32.lt_iff_toNat_lt, ← UInt32.toNat_inj]
      omega
  have heq : f.topLevel.zipIdx.mergeSort placedLE = List.ofFn (f.placed ∘ σ) := by
    refine hperm.eq_of_pairwise (fun a b ha hb => ?_) hsorted (pairwise_placed h)
    refine placedLE_antisymm (f := f) (List.mem_mergeSort.1 ha) ?_
    exact List.mem_mergeSort.1 (hperm.mem_iff.2 hb)
  rw [ordered_eq_placed, heq, List.map_ofFn]
  rfl

end TreeDoc.Program

namespace TreeDoc.Model

open Document Program Build Emitter

/-! ## The root -/

/-- The parts of a file that stand in the root behind its package: the imports
    and the connectors as they are listed, then the ordered declarations. -/
def rootElements (f : File) (σ : Equiv.Perm (Fin f.topLevel.length)) : List Element :=
  f.imports.map .importDecl ++ f.connectors.map .connector ++
    List.ofFn fun i => (f.topLevel.get (σ i)).element

theorem length_rootElements (f : File) (σ : Equiv.Perm (Fin f.topLevel.length)) :
    (rootElements f σ).length = f.imports.length + f.connectors.length + f.constants.length +
      f.services.length + f.functions.length := by
  simp only [rootElements, File.topLevel, List.length_append, List.length_map, List.length_ofFn]
  omega

/-- Visiting a part builds this node. -/
def Visited (st : Style) (e : Element) (n : Node) : Prop := Produces (visit st e) (some n)

theorem visited_of_nodes {st : Style} {e : Element} {n : Node} (hb : e.isBlock = false)
    (hn : elementNodes st e = [n]) : Visited st e n := by
  obtain ⟨o, ho, hnodes⟩ := visit_spec st e
  rw [hb, if_neg (by decide), hn] at hnodes
  obtain rfl : o = some n := by cases o <;> simp_all
  exact ho

theorem forall₂_visited {α : Type} {st : Style} {element : α → Element} {node : α → Node}
    (h : ∀ a, Visited st (element a) (node a)) :
    ∀ as : List α, List.Forall₂ (Visited st) (as.map element) (as.map node)
  | [] => .nil
  | a :: as => .cons (h a) (forall₂_visited h as)

theorem topLevel_visited (st : Style) (d : TopLevel) :
    Visited st d.element (topLevelTree st d) := by
  refine visited_of_nodes ?_ (elementNodes_topLevel st d)
  cases d <;> rfl

/-- **The root is assembled without loss.** There is exactly one stable order of
    the constants, services and functions. The root is the node of the package
    followed by what visiting builds from each import and each connector in
    turn, and from the constants, services and functions in that order; so it
    has one node for each of them. -/
theorem root_assembly (st : Style) (f : File) :
    ∃ σ : Equiv.Perm (Fin f.topLevel.length),
      StableOrder f σ ∧ (∀ τ, StableOrder f τ → τ = σ) ∧
      (∃ ns, (document st f).root = packageNode f :: ns ∧
        List.Forall₂ (Visited st) (rootElements f σ) ns) ∧
      (document st f).root.length = 1 + f.imports.length + f.connectors.length +
        f.constants.length + f.services.length + f.functions.length := by
  have hσ : StableOrder f (Tuple.sort f.positions) := (stableOrder_iff f _).2 rfl
  have hvisited : List.Forall₂ (Visited st) (rootElements f (Tuple.sort f.positions))
      (f.imports.map importNode ++ f.connectors.map (connectorTree st) ++
        f.ordered.map (topLevelTree st)) := by
    refine List.rel_append (List.rel_append ?_ ?_) ?_
    · exact forall₂_visited (fun d => visited_of_nodes rfl rfl) f.imports
    · exact forall₂_visited (fun d => visited_of_nodes rfl rfl) f.connectors
    · have helements : f.ordered.map TopLevel.element =
          List.ofFn fun i => (f.topLevel.get (Tuple.sort f.positions i)).element := by
        rw [ordered_eq hσ, List.map_ofFn]
        rfl
      rw [← helements]
      exact forall₂_visited (topLevel_visited st) f.ordered
  refine ⟨_, hσ, fun τ hτ => (stableOrder_iff f τ).1 hτ, ⟨_, rfl, hvisited⟩, ?_⟩
  have hlen := hvisited.length_eq
  rw [length_rootElements] at hlen
  simp only [document, List.cons_append, List.length_cons]
  omega

end TreeDoc.Model
