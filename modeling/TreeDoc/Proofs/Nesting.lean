/-
  How deep programs and documents are.

  Every construct of a program is written as an array or object, and no text is read in
  which more than 127 of them stand inside one another. So programs are not deeper, and
  documents at most four times as deep as what they are read from.

  * `Construct.Nests`: a bound for the constructs that stand inside one another;
  * `chain_le_of_nests`: it bounds every chain of constructs, each in the one before;
  * `decode_nests`: what is read from a tree is not deeper than the tree, or than its
    source lets in;
  * `document_depth_le`: the document of a file has at most four levels for each level of
    the file;
  * `loadedTree`, `loadFile_nesting`: files that are loaded, and their documents.
-/
import TreeDoc.Proofs.GoldenFiles
import TreeDoc.Proofs.Openings

namespace TreeDoc.Program

/-! ## Chains of constructs -/

/-- At most `n` constructs stand inside one another, this one included. -/
def Construct.Nests : Nat → Construct → Prop
  | 0, _ => False
  | n + 1, c => ∀ d ∈ c.contents, d.Nests n

theorem Construct.Nests.succ {n : Nat} {c : Construct} (h : c.Nests n) : c.Nests (n + 1) := by
  induction n generalizing c with
  | zero => exact h.elim
  | succ n ih => exact fun d hd => ih (h d hd)

/-- One construct stands directly in the other. -/
def Construct.Holds (c d : Construct) : Prop := d ∈ c.contents

/-- The construct is the file, or stands in it at any depth. -/
def File.Has (f : File) (c : Construct) : Prop :=
  Relation.ReflTransGen Construct.Holds (.record .file f) c

theorem Construct.Nests.of_holds {n : Nat} {c d : Construct} (h : c.Nests n) (hd : c.Holds d) :
    d.Nests n := by
  cases n with
  | zero => exact h.elim
  | succ n => exact (h d hd).succ

theorem File.Has.nests {n : Nat} {f : File} {c : Construct} (hc : f.Has c)
    (h : (Construct.record .file f).Nests n) : c.Nests n := by
  induction hc with
  | refl => exact h
  | tail _ hd ih => exact ih.of_holds hd

/-- A chain is not longer than its first construct is deep. -/
theorem chain_le_of_nests {n : Nat} {c : Construct} {chain : List Construct} (h : c.Nests n)
    (hchain : List.IsChain Construct.Holds (c :: chain)) : (c :: chain).length ≤ n := by
  induction chain generalizing c n with
  | nil =>
    cases n with
    | zero => exact h.elim
    | succ n => exact Nat.succ_le_succ (Nat.zero_le n)
  | cons d chain ih =>
    obtain ⟨hd, hchain⟩ := List.isChain_cons_cons.1 hchain
    cases n with
    | zero => exact h.elim
    | succ n => exact Nat.succ_le_succ (ih (h d hd) hchain)

end TreeDoc.Program

namespace TreeDoc.Decode

open Json Program

/-! ## What is read -/

theorem constructs_absent {s : Shape} {a : s.Carrier} (h : s.absent = some a) :
    s.constructs a = [] := by
  cases s with
  | text | flag | position | offset | attributes | choice => rfl
  | list s =>
    cases h
    rfl
  | literal | record | expr | stmt => cases h

theorem isComposite_of_constructs {s : Shape} {a : s.Carrier} {c : Construct}
    (h : c ∈ s.constructs a) : s.isComposite = true := by
  cases s with
  | text | flag | position | offset | attributes | choice | literal => cases h
  | list | record | expr | stmt => rfl

/-- **Reading does not deepen.** What is read from a tree is not deeper than the tree, or
    than its source lets in. -/
theorem decode_nests {src : Source} {t : Tree} {n : Nat} (hn : Bounded src t n) {s : Shape}
    {a : s.Carrier} (h : decode src t s = .ok a) : ∀ c ∈ s.constructs a, c.Nests n := by
  induction n generalizing src t s with
  | zero =>
    intro c hc
    obtain ⟨src', cs, hopened⟩ := decode_opened (isComposite_of_constructs hc) h
    obtain ⟨us, -, hbounded⟩ := hopened.drawn
    obtain ⟨m, hm, -⟩ := hbounded 0 hn
    cases hm
  | succ n ih =>
    intro c hc
    obtain ⟨src', cs, hopened⟩ := decode_opened (isComposite_of_constructs hc) h
    obtain ⟨us, hdrawn, hbounded⟩ := hopened.drawn
    obtain ⟨_, ⟨⟩, hus⟩ := hbounded (n + 1) hn
    -- the constructs among the contents are read from parts, which are bounded by one less
    have hinner : ∀ d ∈ constructsOf cs, d.Nests n := by
      intro d hd
      obtain ⟨⟨s', b⟩, hb, hd⟩ := List.mem_flatMap.1 hd
      obtain habsent | ⟨u, hu, hread⟩ := hdrawn _ hb
      · rw [constructs_absent habsent] at hd
        cases hd
      · exact ih (hus u hu) hread d hd
    obtain hlist | ⟨c', hself, hcontents⟩ := hopened.made.constructs
    · rw [hlist] at hc
      exact (hinner c hc).succ
    · rw [hself] at hc
      obtain rfl := List.mem_singleton.1 hc
      rw [← hcontents] at hinner
      exact hinner

end TreeDoc.Decode

namespace TreeDoc.Program

/-! ## Elements -/

/-- An element as a construct. -/
def Element.construct : Element → Construct
  | .importDecl d => .record .importDecl d
  | .service d => .record .service d
  | .connector d => .record .connector d
  | .function d => .record .function d
  | .action d => .record .action d
  | .resource d => .record .resource d
  | .worker d => .record .worker d
  | .annotationDef d => .record .annotationDef d
  | .parameter d => .record .parameter d
  | .connectorDecl d => .record .connectorDecl d
  | .variableDecl d => .record .variableDecl d
  | .constant d => .record .constant d
  | .struct d => .record .struct d
  | .typeConverter d => .record .typeConverter d
  | .mainInvoker d => .record .mainInvoker d
  | .stmt s => .stmt s
  | .expr e => .expr e

/-- The statements of a block are less deep than what it stands in. -/
theorem nests_statements {n : Nat} {b : Block} (h : (Construct.record .block b).Nests n) :
    ∀ s ∈ b.statements, (Construct.stmt s).Nests n := fun _ hs =>
  h.of_holds (List.mem_map_of_mem hs)

/-- The parts of an element are less deep than the element. -/
theorem nests_parts {n : Nat} {e : Element} (h : e.construct.Nests (n + 1)) :
    ∀ p ∈ e.parts, p.construct.Nests n := by
  cases e with
  | importDecl d | annotationDef d | variableDecl d | constant d | typeConverter d
  | mainInvoker d => exact fun _ hp => absurd hp List.not_mem_nil
  | service d | connector d | worker d | parameter d | connectorDecl d | struct d =>
    simp only [Element.construct, Construct.Nests, Construct.contents, Element.parts,
      List.forall_mem_append, List.forall_mem_map] at h ⊢
    exact h
  | function d | action d =>
    simp only [Element.construct, Construct.Nests, Construct.contents, Element.parts,
      List.forall_mem_append, List.forall_mem_map, List.forall_mem_singleton] at h ⊢
    obtain ⟨⟨hdeclared, -⟩, hbody⟩ := h
    exact ⟨hdeclared, nests_statements hbody⟩
  | resource d =>
    simp only [Element.construct, Construct.Nests, Construct.contents, Element.parts,
      List.forall_mem_append, List.forall_mem_map] at h ⊢
    obtain ⟨hdeclared, hbody⟩ := h
    refine ⟨hdeclared, fun s hs => ?_⟩
    obtain ⟨b, hb, hs⟩ := List.mem_flatMap.1 hs
    exact nests_statements (hbody b hb) s hs
  | stmt s =>
    cases s with
    | comment text => exact fun _ hp => absurd hp List.not_mem_nil
    | ifElse condition thenBody elseBody =>
      simp only [Element.construct, Construct.Nests, Construct.contents, Stmt.contents,
        Element.parts, Stmt.parts, List.forall_mem_cons, List.forall_mem_map] at h ⊢
      exact ⟨h.2.1, h.1, h.2.2⟩
    | block | assign | whileLoop | functionCall | actionCall | reply | returning =>
      simp only [Element.construct, Construct.Nests, Construct.contents, Stmt.contents,
        Element.parts, Stmt.parts, List.forall_mem_append, List.forall_mem_map,
        List.forall_mem_cons, List.not_mem_nil, false_implies, implies_true] at h ⊢
      exact h
  | expr e =>
    simp only [Element.construct, Construct.Nests, Construct.contents, Element.parts,
      List.forall_mem_map] at h ⊢
    exact h

end TreeDoc.Program

namespace TreeDoc.Model

open Document Program

/-! ## Documents -/

/-- The nodes are at most `d` levels deep. -/
def Shallow (d : Nat) (ns : List Node) : Prop := ∀ m ∈ ns, m.value.depth ≤ d

section
variable {d : Nat} {m : Node} {ns ms : List Node}

theorem Shallow.mono {d' : Nat} (h : Shallow d ns) (hd : d ≤ d') : Shallow d' ns :=
  fun m hm => Nat.le_trans (h m hm) hd

@[simp] theorem shallow_nil : Shallow d [] := List.forall_mem_nil _

@[simp] theorem shallow_cons : Shallow d (m :: ns) ↔ m.value.depth ≤ d ∧ Shallow d ns :=
  List.forall_mem_cons

@[simp] theorem shallow_append : Shallow d (ns ++ ms) ↔ Shallow d ns ∧ Shallow d ms :=
  List.forall_mem_append

/-- A node is two levels deeper than what is in its groups. -/
theorem depth_le_of_groups (h : ∀ g ∈ m.groups, Shallow d g.2) : m.value.depth ≤ d + 2 :=
  Node.depth_le h

theorem Shallow.depth_of_children (h : Shallow d ns) (hm : m.groups = [("children", ns)]) :
    m.value.depth ≤ d + 2 :=
  depth_le_of_groups (by simpa [hm] using h)

theorem Shallow.depth_of_annotated (hns : Shallow d ns) (hms : Shallow d ms)
    (hm : m.groups = [("annotations", ns), ("children", ms)]) : m.value.depth ≤ d + 2 :=
  depth_le_of_groups (by simpa [hm] using ⟨hns, hms⟩)

theorem depth_of_leaf (hm : m.groups = []) : m.value.depth ≤ d + 1 := by
  rw [m.depth_eq, hm]
  exact Nat.succ_le_succ (Nat.zero_le d)

end

theorem returnTypeNode_depth (results : List ReturnParameter) :
    (returnTypeNode results).value.depth ≤ 3 := by
  have hresults : Shallow 1 (results.map returnArgumentNode) :=
    List.forall_mem_map.2 fun r _ => depth_of_leaf (returnArgumentNode_groups r)
  exact hresults.depth_of_children rfl

theorem annotationNode_depth (a : AnnotationDef) : (annotationNode a).value.depth ≤ 3 := by
  have hattributes : Shallow 1 (a.attributes.map fun x => attributeNode x.1 x.2) :=
    List.forall_mem_map.2 fun _ _ => depth_of_leaf rfl
  exact hattributes.depth_of_children rfl

section
variable {st : Style} {d : Nat}

/-- The node of an expression is two levels deeper than those of its parts. -/
theorem exprLayer_depth {e : Expr} (h : Shallow d (nodesOf st (e.parts.map .expr))) :
    Shallow (d + 2) (exprLayer st e) := by
  cases e with
  | functionCall | actionCall | binary | unary | array | access =>
    exact List.forall_mem_singleton.2 (h.depth_of_children rfl)
  | creation => exact List.forall_mem_singleton.2 (shallow_nil.depth_of_children rfl)
  | literal | «variable» | template => exact List.forall_mem_singleton.2 (depth_of_leaf rfl)
  | cast | map | keyValue | structInit | fieldAccess | resourceCall | location =>
    exact shallow_nil

/-- The nodes of a statement are up to four levels deeper than those of its parts:
    assignments, conditionals and calls have a node of their own around the parts. -/
theorem stmtLayer_depth {s : Stmt} (h : Shallow d (nodesOf st s.parts)) :
    Shallow (d + 4) (stmtLayer st s) := by
  cases s with
  | block statements => exact h.mono (Nat.le_add_right d 4)
  | comment text => exact List.forall_mem_singleton.2 (depth_of_leaf rfl)
  | assign lhs rhs =>
    simp only [Stmt.parts, nodesOf_append, shallow_append] at h
    have hoperands : Shallow (d + 2) [parent .leftOperand (nodesOf st (lhs.map .expr)),
        parent .rightOperand (nodesOf st [.expr rhs])] := by
      simp only [shallow_cons, shallow_nil, and_true]
      exact ⟨h.1.depth_of_children rfl, h.2.depth_of_children rfl⟩
    exact List.forall_mem_singleton.2 (hoperands.depth_of_children rfl)
  | ifElse condition thenBody elseBody =>
    simp only [Stmt.parts, nodesOf_cons, shallow_append] at h
    obtain ⟨hthen, hcondition, helse⟩ := h
    simp only [stmtLayer, nodesOf_cons, nodesOf_nil, List.append_nil]
    have hbranch : Shallow (d + 2) (branchNodes (elementNodes st (.stmt thenBody))
        (elementNodes st (.expr condition))) := by
      simp only [branchNodes, shallow_cons, shallow_nil, and_true]
      exact ⟨hthen.depth_of_children rfl, hcondition.depth_of_children rfl⟩
    refine List.forall_mem_singleton.2 (depth_le_of_groups ?_)
    cases elseBody with
    | none => simpa using hbranch
    | some s =>
      have helse := helse.mono (Nat.le_add_right d 2)
      simp only [Option.toList_some, List.map_singleton, nodesOf_cons, nodesOf_nil,
        List.append_nil] at helse
      simpa using ⟨hbranch, helse⟩
  | functionCall name package args =>
    have hcall : Shallow (d + 2) [functionCallNode name package (nodesOf st (args.map .expr))] :=
      List.forall_mem_singleton.2 (h.depth_of_children rfl)
    exact List.forall_mem_singleton.2 (hcall.depth_of_children rfl)
  | reply value =>
    exact List.forall_mem_singleton.2
      ((h.mono (Nat.le_add_right d 2)).depth_of_children (replyNode_groups _ _))
  | whileLoop | returning =>
    exact List.forall_mem_singleton.2 ((h.mono (Nat.le_add_right d 2)).depth_of_children rfl)
  | actionCall => exact shallow_nil

/-- The nodes of an element are up to four levels deeper than those of its parts. -/
theorem layer_depth {e : Element} (h : Shallow d (nodesOf st e.parts))
    (hbody : ∀ b, e.construct.Holds (.record .block b) → 1 ≤ d) :
    Shallow (d + 4) (layer st e) := by
  have hparts := h.mono (Nat.le_add_right d 2)
  cases e with
  | importDecl | variableDecl | constant => exact List.forall_mem_singleton.2 (depth_of_leaf rfl)
  | annotationDef a =>
    exact List.forall_mem_singleton.2 (Nat.le_trans (annotationNode_depth a) (by omega))
  | struct | typeConverter | mainInvoker => exact shallow_nil
  | parameter | connectorDecl => exact List.forall_mem_singleton.2 (hparts.depth_of_children rfl)
  | stmt s => exact stmtLayer_depth h
  | expr e => exact (exprLayer_depth h).mono (Nat.le_add_right (d + 2) 2)
  | service | connector | resource =>
    simp only [Element.parts, nodesOf_append, shallow_append] at hparts
    refine List.forall_mem_singleton.2 (Shallow.depth_of_annotated (d := d + 2) ?_ ?_ rfl)
    · tauto
    · simp only [nodesOf_append, shallow_append]
      tauto
  | function a | action a =>
    have hresults : (returnTypeNode a.results).value.depth ≤ d + 2 := by
      have := hbody a.body (List.mem_append_right _ (List.mem_singleton_self _))
      exact Nat.le_trans (returnTypeNode_depth a.results) (by omega)
    simp only [Element.parts, nodesOf_append, shallow_append] at hparts
    refine List.forall_mem_singleton.2 (Shallow.depth_of_annotated (d := d + 2) ?_ ?_ rfl)
    · tauto
    · simp only [nodesOf_append, shallow_append, shallow_cons]
      tauto
  | worker a =>
    simp only [Element.parts, nodesOf_append, shallow_append] at hparts
    have hstatements : Shallow (d + 2) (workerBody st a.statements) := by
      unfold workerBody
      split
      · exact List.forall_mem_map.2 fun _ _ => depth_of_leaf rfl
      · rw [stmtListNodes_eq_nodesOf]
        exact hparts.2
    refine List.forall_mem_singleton.2 (Shallow.depth_of_children (d := d + 2) ?_ rfl)
    simp only [nodesOf_append, shallow_append]
    exact ⟨hparts.1, hstatements⟩

end

/-- **Levels of a document.** Each level of an element adds at most four to its nodes. -/
theorem elementNodes_depth (st : Style) {n : Nat} {e : Element} (h : e.construct.Nests n) :
    Shallow (4 * n) (elementNodes st e) := by
  induction n generalizing e with
  | zero => exact h.elim
  | succ n ih =>
    rw [elementNodes_eq_layer]
    refine layer_depth (fun m hm => ?_) fun b hb => ?_
    · obtain ⟨p, hp, hm⟩ := List.mem_flatMap.1 hm
      exact ih (nests_parts h p hp) m hm
    · -- a body is a level of its own
      cases n with
      | zero => exact (h _ hb).elim
      | succ n => exact Nat.succ_le_of_lt (Nat.mul_pos (by decide) (Nat.succ_pos n))

/-- The elements of a file stand directly in it. -/
theorem nests_fileParts {n : Nat} {f : File} (h : (Construct.record .file f).Nests (n + 1)) :
    ∀ p ∈ f.parts, p.construct.Nests n := by
  simp only [Construct.Nests, Construct.contents, List.forall_mem_append, List.forall_mem_map] at h
  obtain ⟨⟨⟨⟨⟨⟨⟨himports, hconstants⟩, hservices⟩, hfunctions⟩, hconnectors⟩, hstructs⟩,
    hconverters⟩, hinvoker⟩ := h
  have htopLevel : ∀ d ∈ f.topLevel, d.element.construct.Nests n := by
    simp only [File.topLevel, List.forall_mem_append, List.forall_mem_map]
    exact ⟨⟨hconstants, hservices⟩, hfunctions⟩
  have hordered : ∀ d ∈ f.ordered, d.element.construct.Nests n := fun d hd =>
    htopLevel d (List.mem_mergeSort.1 hd)
  simp only [File.parts, List.forall_mem_append, List.forall_mem_map]
  exact ⟨⟨⟨⟨⟨himports, hconnectors⟩, hordered⟩, hstructs⟩, hconverters⟩, hinvoker⟩

/-- **The document of a file** has at most four levels for each level of the file. -/
theorem document_depth_le (st : Style) {n : Nat} {f : File}
    (h : (Construct.record .file f).Nests n) : (document st f).value.depth ≤ 4 * n := by
  cases n with
  | zero => exact h.elim
  | succ n =>
    have hroot : Shallow (4 * n + 1) (document st f).root := by
      rw [document_root_eq, shallow_cons]
      refine ⟨depth_of_leaf rfl, fun m hm => ?_⟩
      obtain ⟨p, hp, hm⟩ := List.mem_flatMap.1 hm
      exact Nat.le_succ_of_le (elementNodes_depth st (nests_fileParts h p hp) m hm)
    have hdepth := nodesDepth_le hroot
    simp only [Document.value, Json.Value.depth, Json.entriesDepth]
    omega

end TreeDoc.Model

namespace TreeDoc.Json

/-! ## Values that are selected -/

theorem entriesDepth_insert (k : String) (v : Value) (es : List (String × Value)) :
    entriesDepth (Assoc.insert k v es) ≤ max (entriesDepth es) v.depth := by
  induction es with
  | nil => simp [Assoc.insert, entriesDepth]
  | cons e es ih =>
    rw [Assoc.insert]
    split <;> simp only [entriesDepth] <;> omega

theorem entriesDepth_insertAll : ∀ (start es : List (String × Value)),
    entriesDepth (Assoc.insertAll start es) ≤ max (entriesDepth start) (entriesDepth es)
  | start, [] => Nat.le_max_left _ _
  | start, (k, v) :: es => by
    have hinsert := entriesDepth_insert k v start
    have ih := entriesDepth_insertAll (Assoc.insert k v start) es
    simp only [Assoc.insertAll, entriesDepth]
    omega

mutual

/-- Merging repeated keys does not make a value deeper. -/
theorem merged_depth_le : ∀ v : Value, v.merged.depth ≤ v.depth
  | .array vs => by
    simp only [Value.merged, Value.depth]
    exact Nat.succ_le_succ (mergedItems_depth_le vs)
  | .object es => by
    have hmerge := entriesDepth_insertAll [] (mergedEntries es)
    have hentries := mergedEntries_depth_le es
    simp only [Value.merged, Value.depth, Assoc.merge, entriesDepth] at hmerge ⊢
    omega
  | .null | .bool _ | .number _ | .string _ => Nat.le_refl _

theorem mergedItems_depth_le : ∀ vs : List Value, itemsDepth (mergedItems vs) ≤ itemsDepth vs
  | [] => Nat.le_refl _
  | v :: vs => by
    have hv := merged_depth_le v
    have hvs := mergedItems_depth_le vs
    simp only [mergedItems, itemsDepth]
    omega

theorem mergedEntries_depth_le : ∀ es : List (String × Value),
    entriesDepth (mergedEntries es) ≤ entriesDepth es
  | [] => Nat.le_refl _
  | (k, v) :: es => by
    have hv := merged_depth_le v
    have hes := mergedEntries_depth_le es
    simp only [mergedEntries, entriesDepth]
    omega

end

/-- What tokens lead to is not deeper than the value that they start from. -/
theorem follow_depth_le : ∀ {ts : List String} {v u : Value}, v.follow ts = some u →
    u.depth ≤ v.depth
  | [], v, u, h => by
    cases h
    exact Nat.le_refl _
  | t :: ts, .object es, u, h => by
    obtain ⟨w, hw, h⟩ := Option.bind_eq_some_iff.1 h
    have hdepth := depth_le_entriesDepth (Assoc.mem_of_get? hw)
    exact Nat.le_succ_of_le (Nat.le_trans (follow_depth_le h) hdepth)
  | t :: ts, .array vs, u, h => by
    obtain ⟨w, hw, h⟩ := Option.bind_eq_some_iff.1 h
    obtain ⟨i, -, hw⟩ := Option.bind_eq_some_iff.1 hw
    have hdepth := depth_le_itemsDepth (List.mem_of_getElem? hw)
    exact Nat.le_succ_of_le (Nat.le_trans (follow_depth_le h) hdepth)
  | _ :: _, .null, _, h | _ :: _, .bool _, _, h | _ :: _, .number _, _, h
  | _ :: _, .string _, _, h => by cases h

/-- A text is as deep as the value that it spells. -/
theorem depth_ofText {text : String} {v : Value} (h : SpellsText text.toList v) :
    (Tree.ofText text).1.depth = v.depth := by
  obtain ⟨t, e, htext, -, ht⟩ := ofText_spells h
  rw [htext, depth_of_denotes ht]

end TreeDoc.Json

namespace TreeDoc

open Decode Json Model Program
open Files (FileSystem)

/-! ## Files that are loaded -/

/-- The tree that a file is read from: that of the text at a path, or of the value that a
    pointer selects there. -/
def loadedTree (fs : FileSystem) (path : String) (pointer : Option String) : Option Tree :=
  (fs.read path).toOption.bind fun text =>
    match pointer with
    | none => some (Tree.ofText text).1
    | some pointer =>
      (readFirst text).toOption.bind fun v => (v.get? pointer).map Tree.ofValue

/-- A file that is loaded is read from this tree, and no more than 127 arrays and objects
    are let in. -/
theorem decode_of_loadFile {fs : FileSystem} {path : String} {pointer : Option String} {f : File}
    (h : loadFile fs path pointer = .ok f) :
    ∃ src t, loadedTree fs path pointer = some t ∧ decode src t (.record .file) = .ok f ∧
      Bounded src t 127 := by
  obtain ⟨text, htext, h⟩ := bind_eq_ok.1 h
  have htext := mapError_eq_ok.1 htext
  cases pointer with
  | none =>
    refine ⟨.text 127, (Tree.ofText text).1, ?_, mapError_eq_ok.1 h, .inr rfl⟩
    rw [loadedTree, htext]
    rfl
  | some pointer =>
    obtain ⟨v, hv, h⟩ := bind_eq_ok.1 h
    have hv := mapError_eq_ok.1 hv
    cases hselected : v.get? pointer with
    | none =>
      rw [hselected] at h
      cases h
    | some selected =>
      rw [hselected] at h
      refine ⟨.value, Tree.ofValue selected, ?_, mapError_eq_ok.1 h, .inl ?_⟩
      · simp only [loadedTree, htext, hv, hselected, Except.toOption, Option.bind_some,
          Option.map_some]
      · obtain ⟨w, hw, rfl⟩ := map_eq_ok.1 hv
        obtain ⟨ts, -, hfollow⟩ := Option.bind_eq_some_iff.1 hselected
        rw [depth_of_denotes (denotes_ofValue selected)]
        exact Nat.le_trans (follow_depth_le hfollow)
          (Nat.le_trans (merged_depth_le w) (denotes_of_read hw).2)

/-- **Nesting is bounded.** In a file that is loaded, with or without a pointer, no chain of
    constructs that each stand directly in the one before is longer than 127. Each text of
    its document, in any style, is at most four times as deep as what it is read from. -/
theorem loadFile_nesting {fs : FileSystem} {path : String} {pointer : Option String} {f : File}
    (h : loadFile fs path pointer = .ok f) :
    (∀ c chain, f.Has c → List.IsChain Construct.Holds (c :: chain) →
      (c :: chain).length ≤ 127) ∧
    ∃ t, loadedTree fs path pointer = some t ∧ ∀ st : Style,
      (Tree.ofText (document st f).compact).1.depth ≤ 4 * t.depth ∧
      (Tree.ofText (document st f).pretty).1.depth ≤ 4 * t.depth := by
  obtain ⟨src, t, ht, hdecode, hbounded⟩ := decode_of_loadFile h
  have hself : Construct.record .file f ∈ Shape.constructs (.record .file) f := by simp
  refine ⟨fun c chain hc hchain => ?_, t, ht, fun st => ?_⟩
  · exact chain_le_of_nests (hc.nests (decode_nests hbounded hdecode _ hself)) hchain
  · have hdepth := document_depth_le st (decode_nests (.inl (Nat.le_refl _)) hdecode _ hself)
    have hintegral := (document st f).value_integral
    have hcompact : SpellsText (document st f).compact.toList (document st f).value :=
      (compact_spells hintegral).text
    have hpretty : SpellsText (document st f).pretty.toList (document st f).value :=
      (prettyAt_spells 0 hintegral).text
    rw [depth_ofText hcompact, depth_ofText hpretty]
    exact ⟨hdepth, hdepth⟩

open Command in
/-- The source of 120 negations is as deep as a text may be, and its document nearly twice
    as deep. -/
theorem negations_nesting :
    loadFile (negatingFolder 120) negatingPath none = .ok (negating 120) ∧
    (∀ c chain, (negating 120).Has c → List.IsChain Construct.Holds (c :: chain) →
      (c :: chain).length ≤ 127) ∧
    ∃ t, loadedTree (negatingFolder 120) negatingPath none = some t ∧ t.depth = 127 ∧
      (Tree.ofText (document {} (negating 120)).compact).1.depth = 247 ∧ 247 ≤ 4 * 127 := by
  have hload : loadFile (negatingFolder 120) negatingPath none = .ok (negating 120) :=
    negating_loads (by decide)
  obtain ⟨hchains, t, ht, hdocument⟩ := loadFile_nesting hload
  have hsource : t.depth = 127 := by
    have hread : (negatingFolder 120).read negatingPath = .ok (negatingValue 120).compact := rfl
    have htext : SpellsText (negatingValue 120).compact.toList (negatingValue 120) :=
      (compact_spells (negatingValue_integral 120)).text
    rw [loadedTree, hread] at ht
    obtain rfl := Option.some.inj ht
    rw [depth_ofText htext, negatingValue_depth]
  have htext : SpellsText (document {} (negating 120)).compact.toList
      (document {} (negating 120)).value := (compact_spells (Document.value_integral _)).text
  have hdepth : (Tree.ofText (document {} (negating 120)).compact).1.depth = 247 := by
    rw [depth_ofText htext, negating_depth]
  have hbound := (hdocument {}).1
  rw [hdepth, hsource] at hbound
  exact ⟨hload, hchains, t, ht, hsource, hdepth, hbound⟩

end TreeDoc
