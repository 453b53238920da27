/-
  The grammar of documents.

  Every kind of node has a form: the keys of its attributes, the keys of its
  groups, and for each group the sequences of kinds that may stand in it. A
  sequence of kinds is a word, and what is allowed in a group a language.

  * `Kind.form`: the form of each kind, and `rootForm` that of the root;
  * `Node.Conforms`: a node has the form of its kind;
  * `Node.Within`, `Contains`: the nodes of a tree and of a document;
  * `Node.Regular`: trees whose nodes all conform;
  * `Fits`: sequences of such trees that a group may hold;
  * `Node.Conforms.entries`: what a conforming node looks like as JSON. Its tag
    comes first, no key is repeated and no other key is that of a tag.
-/
import TreeDoc.Document.Node
import Mathlib.Computability.Language
import Mathlib.Order.CompletePartialOrder

namespace TreeDoc.Document

open Computability

/-! ## Sequences of kinds -/

/-- The kinds of the nodes that expressions have. -/
def Kind.isExpr : Kind → Bool
  | functionCall | actionCall | literal | binary _ | unary | variableRef | arrayInit | template
  | creation | access => true
  | _ => false

/-- The kinds of the nodes that statements have, unless only their text is
    kept. -/
def Kind.isStmt : Kind → Bool
  | assignment | comment | ifElse | whileLoop | functionCallStmt | reply | returning => true
  | _ => false

/-- One node of a kind that has a property. -/
def oneWith (p : Kind → Bool) : Language Kind := {w | ∃ k, p k = true ∧ w = [k]}

/-- One node of this kind. -/
def one (kind : Kind) : Language Kind := oneWith fun k => k = kind

/-- One expression. -/
def oneExpr : Language Kind := oneWith Kind.isExpr

/-- One statement. -/
def oneStmt : Language Kind := oneWith Kind.isStmt

/-- The kinds of nodes, in order. -/
def kinds (ns : List Node) : List Kind := ns.map Node.kind

theorem mem_oneWith_kstar {p : Kind → Bool} :
    ∀ {w : List Kind}, (∀ k ∈ w, p k = true) → w ∈ (oneWith p)∗
  | [], _ => Language.nil_mem_kstar _
  | k :: w, h => by
    rw [← Language.one_add_self_mul_kstar_eq_kstar]
    refine Or.inr (Language.append_mem_mul (a := [k]) ⟨k, h k (by simp), rfl⟩ ?_)
    exact mem_oneWith_kstar fun k' hk' => h k' (by simp [hk'])

theorem of_mem_oneWith_kstar {p : Kind → Bool} {w : List Kind} (h : w ∈ (oneWith p)∗) :
    ∀ k ∈ w, p k = true := by
  obtain ⟨ws, rfl, hws⟩ := Language.mem_kstar.1 h
  intro k hk
  obtain ⟨w, hw, hk⟩ := List.mem_flatten.1 hk
  obtain ⟨k', hk', rfl⟩ := hws w hw
  rwa [List.mem_singleton.1 hk]

/-! ## Forms -/

/-- What is fixed for a kind of node: the keys of its attributes in order, and
    its groups in order, each with the sequences of kinds that may stand in it.
    At most one attribute and one group may be missing, the last ones. -/
structure Form where
  attrs : List String := []
  optionalAttr : Option String := none
  groups : List (String × Language Kind) := []
  optionalGroup : Option (String × Language Kind) := none

/-- The form of a node with attributes and no groups. -/
def Form.leaf (attrs : List String) : Form := { attrs }

/-- The form of a node with attributes and children. -/
def Form.parent (attrs : List String) (children : Language Kind) : Form :=
  { attrs, groups := [("children", children)] }

/-- The form of a node with attributes, annotations and children. -/
def Form.annotated (attrs : List String) (children : Language Kind) : Form :=
  { attrs, groups := [("annotations", (one .annotationDef)∗), ("children", children)] }

/-- The form of each kind. -/
def Kind.form : Kind → Form
  | packageDef => .leaf ["package-name"]
  | importDef => .leaf ["import-package-name", "import-package-path"]
  | serviceDef => .annotated ["service-name"]
    ((one variableDecl)∗ * (one connectorDecl)∗ * (one resourceDef)∗)
  | connectorDef => .annotated ["connector-name"]
    ((one variableDecl)∗ * (one parameterDef)∗ * (one connectorDecl)∗ * (one actionDef)∗)
  | resourceDef => .annotated ["resource-name"]
    ((one variableDecl)∗ * (one parameterDef)∗ * (one connectorDecl)∗ * (one workerDef)∗ * oneStmt∗)
  | functionDef => .annotated ["function-name", "is-public-function"]
    ((one variableDecl)∗ * (one parameterDef)∗ * (one connectorDecl)∗ * (one returnType * oneStmt∗))
  | actionDef => .annotated ["action-name"]
    ((one variableDecl)∗ * (one parameterDef)∗ * (one connectorDecl)∗ * (one returnType * oneStmt∗))
  | workerDef => .parent ["worker-name"]
    ((one connectorDecl)∗ * (one variableDecl)∗ * ((one statementText)∗ + oneStmt∗))
  | annotationDef => .parent ["annotation-name", "annotation-value"] (one annotationAttribute)∗
  | annotationAttribute => .leaf ["key", "value"]
  | parameterDef => .parent ["parameter-name", "parameter-type"] (one annotationDef)∗
  | connectorDecl => .parent ["connector-name", "connector-package-name", "connector-variable"]
    oneExpr∗
  | variableDecl => .leaf ["variable-name", "variable-type"]
  | constantDef => .leaf ["constant-type", "constant-name", "constant-value"]
  | returnType => .parent [] (one returnArgument)∗
  | returnArgument => { attrs := ["parameter-type"], optionalAttr := some "parameter-name" }
  | assignment => .parent [] (one leftOperand * one rightOperand)
  | comment => .leaf ["comment-string"]
  | ifElse => {
      groups := [("if-branch", one thenBody * one ifCondition)]
      optionalGroup := some ("else-branch", oneStmt∗) }
  | whileLoop => .parent [] ((1 + oneExpr) * oneStmt∗)
  | functionCallStmt => .parent [] (one functionCall)
  | reply => { optionalAttr := some "expression", groups := [("children", 1 + oneExpr)] }
  | returning => .parent [] oneExpr∗
  | statementText => .leaf ["statement"]
  | leftOperand => .parent [] oneExpr∗
  | rightOperand => .parent [] (1 + oneExpr)
  | thenBody => .parent [] oneStmt∗
  | ifCondition => .parent [] (1 + oneExpr)
  | functionCall => .parent ["function-name"] oneExpr∗
  | actionCall => .parent ["action-name", "action-package-name", "action-connector-name"] oneExpr∗
  | literal => .leaf ["basic-literal-type", "basic-literal-value"]
  | binary _ => .parent [] ((1 + oneExpr) * (1 + oneExpr))
  | unary => .parent [] (1 + oneExpr)
  | variableRef => .leaf ["variable-reference-name"]
  | arrayInit => .parent [] oneExpr∗
  | template => .leaf ["back-quote-enclosed-string"]
  | creation => .parent ["instance-type"] 1
  | access => .parent ["array-map-access-name"] (1 + oneExpr)

/-- The kinds of the nodes of a document's root. -/
def rootForm : Language Kind :=
  one .packageDef * (one .importDef)∗ * (one .connectorDef)∗ *
    (one .constantDef + one .serviceDef + one .functionDef)∗

/-- The keys that a kind's nodes may use for attributes and groups, in order. -/
def Form.keys (form : Form) : List String :=
  form.attrs ++ form.optionalAttr.toList ++
    (form.groups ++ form.optionalGroup.toList).map Prod.fst

/-- The keys of tags. -/
def tagKeys : List String := [Family.key .definition, Family.key .statement, Family.key .expression]

theorem Kind.keys_nodup (k : Kind) : (k.family.key :: k.form.keys).Nodup := by
  cases k with
  | binary op => show ["expression-type", "children"].Nodup; decide
  | _ => decide

theorem Kind.keys_not_tag (k : Kind) : ∀ key ∈ k.form.keys, key ∉ tagKeys := by
  cases k with
  | binary op => show ∀ key ∈ ["children"], key ∉ tagKeys; decide
  | _ => decide

theorem Family.key_mem_tagKeys (family : Family) : family.key ∈ tagKeys := by
  cases family <;> decide

/-! ## Conforming nodes -/

/-- A group has the key and one of the sequences of kinds that a form asks
    for. -/
def GroupConforms (group : String × List Node) (form : String × Language Kind) : Prop :=
  group.1 = form.1 ∧ kinds group.2 ∈ form.2

/-- The node has the form of its kind. -/
structure Node.Conforms (n : Node) : Prop where
  attrs : n.attrs.map Prod.fst = n.kind.form.attrs ∨
    n.attrs.map Prod.fst = n.kind.form.attrs ++ n.kind.form.optionalAttr.toList
  groups : List.Forall₂ GroupConforms n.groups n.kind.form.groups ∨
    List.Forall₂ GroupConforms n.groups (n.kind.form.groups ++ n.kind.form.optionalGroup.toList)

/-- `Within m n`: the node `m` is `n`, or stands in one of its groups at any
    depth. -/
inductive Node.Within (m : Node) : Node → Prop
  | refl : Within m m
  | inside {n l : Node} {g : String × List Node} : g ∈ n.groups → l ∈ g.2 → Within m l → Within m n

/-- The node and all nodes in it conform. -/
def Node.Regular (n : Node) : Prop := ∀ m : Node, m.Within n → m.Conforms

/-- The node stands in the document, at any depth. -/
def Contains (d : Document) (n : Node) : Prop := ∃ m ∈ d.root, n.Within m

theorem Node.Regular.intro {n : Node} (hn : n.Conforms)
    (hg : ∀ g ∈ n.groups, ∀ m ∈ g.2, m.Regular) : n.Regular := by
  intro m hm
  cases hm with
  | refl => exact hn
  | inside hgn hl hm => exact hg _ hgn _ hl m hm

theorem Node.Regular.conforms {n : Node} (h : n.Regular) : n.Conforms := h n .refl

theorem Node.Regular.inner {n m : Node} {g : String × List Node} (h : n.Regular)
    (hg : g ∈ n.groups) (hm : m ∈ g.2) : m.Regular := fun _ hl => h _ (.inside hg hm hl)

/-- A sequence of nodes that a group may hold: its kinds form a word of `L`, and
    all nodes in it conform. -/
structure Fits (L : Language Kind) (ns : List Node) : Prop where
  kinds_mem : kinds ns ∈ L
  regular : ∀ n ∈ ns, n.Regular

theorem Fits.nil : Fits 1 [] := ⟨rfl, by simp⟩

theorem Fits.oneWith {p : Kind → Bool} {n : Node} (hk : p n.kind = true) (hn : n.Regular) :
    Fits (oneWith p) [n] := ⟨⟨n.kind, hk, rfl⟩, by simpa using hn⟩

theorem Fits.one {k : Kind} {n : Node} (hk : n.kind = k) (hn : n.Regular) : Fits (one k) [n] :=
  .oneWith (by simpa using hk) hn

theorem Fits.mono {L M : Language Kind} {ns : List Node} (hLM : L ≤ M) (h : Fits L ns) : Fits M ns :=
  ⟨hLM h.kinds_mem, h.regular⟩

theorem Fits.append {L M : Language Kind} {ns ms : List Node} (hn : Fits L ns) (hm : Fits M ms) :
    Fits (L * M) (ns ++ ms) := by
  refine ⟨?_, fun n h => ?_⟩
  · rw [kinds, List.map_append]
    exact Language.append_mem_mul hn.kinds_mem hm.kinds_mem
  · rcases List.mem_append.1 h with h | h
    · exact hn.regular n h
    · exact hm.regular n h

theorem Fits.cons {M : Language Kind} {k : Kind} {n : Node} {ms : List Node} (hk : n.kind = k)
    (hn : n.Regular) (hm : Fits M ms) : Fits (Document.one k * M) (n :: ms) :=
  (Fits.one hk hn).append hm

/-- Trees whose roots have kinds with a property, any number of them. -/
theorem Fits.star {p : Kind → Bool} {ns : List Node} (hk : ∀ n ∈ ns, p n.kind = true)
    (hn : ∀ n ∈ ns, n.Regular) : Fits (Document.oneWith p)∗ ns :=
  ⟨mem_oneWith_kstar (by simpa [kinds] using hk), hn⟩

theorem Fits.map {α : Type} {k : Kind} {f : α → Node} {as : List α} (hk : ∀ a, (f a).kind = k)
    (hf : ∀ a, (f a).Regular) : Fits (Document.one k)∗ (as.map f) :=
  .star (by simp [hk]) (by simpa using fun a _ => hf a)

theorem Node.Regular.leaf {kind : Kind} {attrs : List (String × Scalar)}
    (ha : attrs.map Prod.fst = kind.form.attrs) (hg : kind.form.groups = []) :
    (Node.mk kind attrs []).Regular :=
  .intro ⟨Or.inl ha, Or.inl (by rw [hg]; exact .nil)⟩ (by simp)

theorem Node.Regular.parent {kind : Kind} {attrs : List (String × Scalar)} {ns : List Node}
    {L : Language Kind} (ha : attrs.map Prod.fst = kind.form.attrs)
    (hg : kind.form.groups = [("children", L)]) (hns : Fits L ns) :
    (Node.mk kind attrs [("children", ns)]).Regular :=
  .intro ⟨Or.inl ha, Or.inl (by rw [hg]; exact .cons ⟨rfl, hns.kinds_mem⟩ .nil)⟩
    (by simpa using hns.regular)

theorem Node.Regular.annotated {kind : Kind} {attrs : List (String × Scalar)}
    {notes ns : List Node} {K L : Language Kind} (ha : attrs.map Prod.fst = kind.form.attrs)
    (hg : kind.form.groups = [("annotations", K), ("children", L)]) (hnotes : Fits K notes)
    (hns : Fits L ns) : (Node.mk kind attrs [("annotations", notes), ("children", ns)]).Regular := by
  refine .intro ⟨Or.inl ha, Or.inl ?_⟩ ?_
  · rw [hg]
    exact .cons ⟨rfl, hnotes.kinds_mem⟩ (.cons ⟨rfl, hns.kinds_mem⟩ .nil)
  · intro g hmem m hm
    simp only [List.mem_cons, List.not_mem_nil, or_false] at hmem
    rcases hmem with rfl | rfl
    · exact hnotes.regular m hm
    · exact hns.regular m hm

/-! ## Conforming nodes as JSON -/

/-- The entries of a node's object. -/
def Node.entries (n : Node) : List (String × Json.Value) :=
  (n.kind.family.key, .string n.kind.tag) :: n.attrs.map (fun (k, s) => (k, s.value)) ++
    groupValues n.groups

theorem Node.value_eq (n : Node) : n.value = .object n.entries := by
  rcases n with ⟨kind, attrs, groups⟩
  rw [Node.value, Node.entries]

theorem groupValues_keys : ∀ gs : List (String × List Node),
    (groupValues gs).map Prod.fst = gs.map Prod.fst
  | [] => by rw [groupValues]; rfl
  | (k, ns) :: gs => by rw [groupValues, List.map_cons, List.map_cons, groupValues_keys gs]

theorem Node.entries_keys (n : Node) :
    n.entries.map Prod.fst =
      n.kind.family.key :: (n.attrs.map Prod.fst ++ n.groups.map Prod.fst) := by
  simp only [entries, List.cons_append, List.map_cons, List.map_append, groupValues_keys,
    List.map_map]
  rfl

theorem keys_of_forall₂ {gs : List (String × List Node)} {fs : List (String × Language Kind)}
    (h : List.Forall₂ GroupConforms gs fs) : gs.map Prod.fst = fs.map Prod.fst := by
  induction h with
  | nil => rfl
  | cons hg _ ih => rw [List.map_cons, List.map_cons, ih, hg.1]

/-- The keys of a conforming node are among those of its kind, in their
    order. -/
theorem Node.Conforms.keys_sublist {n : Node} (h : n.Conforms) :
    (n.attrs.map Prod.fst ++ n.groups.map Prod.fst).Sublist n.kind.form.keys := by
  have hattrs : (n.attrs.map Prod.fst).Sublist
      (n.kind.form.attrs ++ n.kind.form.optionalAttr.toList) := by
    rcases h.attrs with ha | ha
    · rw [ha]; exact List.sublist_append_left _ _
    · rw [ha]
  have hgroups : (n.groups.map Prod.fst).Sublist
      ((n.kind.form.groups ++ n.kind.form.optionalGroup.toList).map Prod.fst) := by
    rcases h.groups with hg | hg
    · rw [keys_of_forall₂ hg]; exact (List.sublist_append_left _ _).map _
    · rw [keys_of_forall₂ hg]
  exact hattrs.append hgroups

/-- **A conforming node as JSON.** Its tag comes first, no key is repeated, and
    the key of its tag is the only one of that sort. -/
theorem Node.Conforms.entries {n : Node} (h : n.Conforms) :
    n.entries.head? = some (n.kind.family.key, .string n.kind.tag) ∧
      (n.entries.map Prod.fst).Nodup ∧
      (n.entries.map Prod.fst).filter (· ∈ tagKeys) = [n.kind.family.key] := by
  have hsub := h.keys_sublist
  refine ⟨rfl, ?_, ?_⟩
  · rw [n.entries_keys]
    exact n.kind.keys_nodup.sublist (hsub.cons_cons _)
  · have hnone : (n.attrs.map Prod.fst ++ n.groups.map Prod.fst).filter (· ∈ tagKeys) = [] := by
      rw [List.filter_eq_nil_iff]
      intro key hkey
      simpa using n.kind.keys_not_tag key (hsub.subset hkey)
    rw [n.entries_keys, List.filter_cons, hnone,
      if_pos (by simpa using n.kind.family.key_mem_tagKeys)]

end TreeDoc.Document
