/-
  Positions of declarations.

  A position decides where a constant, service or function stands among the others, and
  nothing else. Positions of other declarations decide nothing.

  * `File.unplaced`: a file without its positions;
  * `File.SameOrder`: the constants, services and functions of two files stand in the same
    order, and so do those at one position;
  * `ordered_zip`: then both files are sorted alike;
  * `positions_noninterference`: files that are the same but for positions, and have the
    same order, have the same document.
-/
import TreeDoc.Proofs.Revisions

namespace TreeDoc.Program

/-! ## Files without positions -/

/-- All positions are the same. -/
def Revision.unplaced : Revision where
  position _ := 0

/-- The file without its positions. -/
def File.unplaced (f : File) : File := f.revised .unplaced

/-- The constants, services and functions of two files, each with the one at its place in
    the other file. -/
def File.paired (f g : File) : List (TopLevel × TopLevel) := f.topLevel.zip g.topLevel

/-- Any two constants, services or functions of one file compare by their positions as the
    two at their places in the other file do. -/
def File.SameOrder (f g : File) : Prop :=
  ∀ a ∈ f.paired g, ∀ b ∈ f.paired g,
    compare a.1.position b.1.position = compare a.2.position b.2.position

instance (f g : File) : Decidable (f.SameOrder g) :=
  inferInstanceAs (Decidable (∀ a ∈ f.paired g, ∀ b ∈ f.paired g, _ = _))

section
variable {f g : File} (h : f.unplaced = g.unplaced)
include h

theorem topLevel_unplaced :
    f.topLevel.map (TopLevel.revised .unplaced) = g.topLevel.map (TopLevel.revised .unplaced) := by
  rw [← topLevel_revised, ← topLevel_revised]
  exact congrArg File.topLevel h

theorem length_topLevel : f.topLevel.length = g.topLevel.length := by
  simpa only [List.length_map] using congrArg List.length (topLevel_unplaced h)

theorem map_fst_paired : (f.paired g).map Prod.fst = f.topLevel :=
  List.map_fst_zip (length_topLevel h).le

theorem map_snd_paired : (f.paired g).map Prod.snd = g.topLevel :=
  List.map_snd_zip (length_topLevel h).ge

/-- Two declarations at the same place are the same but for positions. -/
theorem paired_unplaced : ∀ p ∈ f.paired g, p.1.revised .unplaced = p.2.revised .unplaced := by
  refine List.map_inj_left.1 ?_
  have hfst := congrArg (List.map (TopLevel.revised .unplaced)) (map_fst_paired h)
  have hsnd := congrArg (List.map (TopLevel.revised .unplaced)) (map_snd_paired h)
  rw [List.map_map] at hfst hsnd
  exact hfst.trans ((topLevel_unplaced h).trans hsnd.symm)

/-- **One order for both files.** If two files have the same order, then sorting the pairs
    of their declarations sorts both. -/
theorem ordered_zip (horder : f.SameOrder g) : ∃ pairs : List (TopLevel × TopLevel),
    pairs.Perm (f.paired g) ∧ f.ordered = pairs.map Prod.fst ∧ g.ordered = pairs.map Prod.snd := by
  refine ⟨(f.paired g).mergeSort fun a b => a.1.position ≤ b.1.position,
    List.mergeSort_perm _ _, ?_, ?_⟩
  · rw [List.map_mergeSort (s := fun a b : TopLevel => a.position ≤ b.position) fun _ _ _ _ => rfl,
      map_fst_paired h, File.ordered]
  · -- A sort only asks whether one position is at most another.
    have hle : ∀ a ∈ f.paired g, ∀ b ∈ f.paired g,
        decide (a.1.position ≤ b.1.position) = decide (a.2.position ≤ b.2.position) := by
      intro a ha b hb
      rw [decide_eq_decide, ← Std.isLE_compare, ← Std.isLE_compare, horder a ha b hb]
    rw [List.map_mergeSort (s := fun a b : TopLevel => a.position ≤ b.position) hle,
      map_snd_paired h, File.ordered]

end

end TreeDoc.Program

namespace TreeDoc.Model

open Document Program

/-! ## Documents -/

theorem hidden_unplaced (st : Style) : Revision.Hidden .unplaced st st :=
  ⟨fun _ => rfl, fun _ => rfl⟩

theorem topLevelTree_unplaced (st : Style) {d e : TopLevel}
    (h : d.revised .unplaced = e.revised .unplaced) : topLevelTree st d = topLevelTree st e := by
  rw [← topLevelTree_revised (hidden_unplaced st) fun _ _ => rfl, h,
    topLevelTree_revised (hidden_unplaced st) fun _ _ => rfl]

theorem connectorTrees_unplaced (st : Style) {f g : File} (h : f.unplaced = g.unplaced) :
    f.connectors.map (connectorTree st) = g.connectors.map (connectorTree st) := by
  have htrees (f : File) : f.unplaced.connectors.map (connectorTree st) =
      f.connectors.map (connectorTree st) :=
    map_revised fun d _ => connectorTree_revised (hidden_unplaced st) d
  rw [← htrees f, h, htrees g]

theorem importNodes_unplaced {f g : File} (h : f.unplaced = g.unplaced) :
    f.imports.map importNode = g.imports.map importNode := by
  have hnodes (f : File) : f.unplaced.imports.map importNode = f.imports.map importNode :=
    map_revised fun _ _ => rfl
  rw [← hnodes f, h, hnodes g]

/-- **Positions only give an order.** Two files that are the same but for positions have
    the same document in every style, if any two constants, services or functions compare
    by their positions in one file as in the other. -/
theorem positions_noninterference (st : Style) {f g : File} (h : f.unplaced = g.unplaced)
    (horder : f.SameOrder g) : document st f = document st g := by
  obtain ⟨pairs, hperm, hf, hg⟩ := ordered_zip h horder
  have hpackage : packageNode f = packageNode g := by
    show packageNode f.unplaced = packageNode g.unplaced
    rw [h]
  have htrees : pairs.map (topLevelTree st ∘ Prod.fst) = pairs.map (topLevelTree st ∘ Prod.snd) :=
    List.map_congr_left fun p hp =>
      topLevelTree_unplaced st (paired_unplaced h p (hperm.mem_iff.1 hp))
  rw [document, document, importNodes_unplaced h, connectorTrees_unplaced st h, hpackage, hf, hg,
    List.map_map, List.map_map, htrees]

/-- A file with two constants, a service and a function at these positions, and with other
    declarations at the last one. -/
def placedFile (p q r s other : Position) : File where
  packageName := "echo"
  imports := [{ name := "io", path := "lang.io", position := other }]
  constants := [
    { name := "A", type := "int", value := { type := "int", value := .int 1 }, position := p },
    { name := "B", type := "int", value := { type := "int", value := .int 2 }, position := q }]
  services := [{
    name := "Echo"
    position := r
    annotations := []
    locals := []
    connectors := []
    resources := [{
      name := "echo"
      position := other
      annotations := []
      locals := []
      parameters := []
      connectors := []
      workers := [{
        name := "w", position := other, connectors := [], locals := [], statements := [] }]
      body := none }] }]
  functions := [{
    name := "main"
    position := s
    isPublic := true
    annotations := []
    locals := []
    parameters := []
    connectors := []
    results := []
    body := ⟨[]⟩ }]
  connectors := [{
    name := "Client"
    position := other
    annotations := []
    locals := []
    parameters := []
    connectors := []
    actions := [{
      name := "get"
      position := other
      annotations := []
      locals := []
      parameters := []
      connectors := []
      results := []
      body := ⟨[]⟩ }] }]
  structs := [{ name := "Point", fields := [], position := other }]
  typeConverters := [{ name := "c", source := "int", target := "float", position := other }]
  mainInvoker := none

/-- Only the order of the four positions counts, of which two are the same. -/
theorem placedFile_documents :
    (placedFile 5 1 3 3 0).SameOrder (placedFile 4000 7 20 20 99) ∧
    document (.textual .source) (placedFile 5 1 3 3 0) =
      document (.textual .source) (placedFile 4000 7 20 20 99) := by
  have horder : (placedFile 5 1 3 3 0).SameOrder (placedFile 4000 7 20 20 99) := by decide
  exact ⟨horder, positions_noninterference _ rfl horder⟩

end TreeDoc.Model
