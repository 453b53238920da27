/-
  Three ways to compare documents.

  Documents may be compared as trees, as JSON values or as texts. Trees and values
  are compared without regard to order, and a value may lose what stands under a
  repeated key; a text shows everything. Between documents of files it makes no
  difference which of them is used.

  * `Kind.tag_injective`: kinds are told apart by their tags;
  * `Node.Regular.distinct`: the value of a regular node repeats no key;
  * `Node.same_of_values`: regular nodes with the same value are the same;
  * `Json.compact_injective`: a text on one line has one value;
  * `comparisons_agree`: the three comparisons of documents.
-/
import TreeDoc.Proofs.DocumentText
import TreeDoc.Proofs.Sameness
import Mathlib.Data.List.Perm.Subperm
import Mathlib.Tactic.TFAE

namespace TreeDoc.Assoc

/-- A list whose keys are distinct and all found in another is not longer than
    that one. -/
theorem length_le_of_found {α β : Type} {as : List (String × α)} {bs : List (String × β)}
    (hnodup : (as.map Prod.fst).Nodup) (h : ∀ a ∈ as, ∃ b, get? a.1 bs = some b) :
    as.length ≤ bs.length := by
  have hsub : as.map Prod.fst ⊆ bs.map Prod.fst := by
    intro k hk
    obtain ⟨a, ha, rfl⟩ := List.mem_map.1 hk
    obtain ⟨b, hb⟩ := h a ha
    exact List.mem_map.2 ⟨_, mem_of_get? hb, rfl⟩
  simpa using (List.subperm_of_subset hnodup hsub).length_le

end TreeDoc.Assoc

namespace TreeDoc.Json

theorem sameEntries_iff {as bs : List (String × Value)} :
    sameEntries as bs = true ↔
      ∀ a ∈ as, ∃ b, Assoc.get? a.1 bs = some b ∧ a.2.same b = true := by
  induction as with
  | nil => simp [sameEntries]
  | cons a as ih =>
    obtain ⟨k, v⟩ := a
    rw [sameEntries, Bool.and_eq_true, ih, List.forall_mem_cons]
    cases Assoc.get? k bs <;> simp

theorem compact_injective {v w : Value} (hv : v.integral = true) (hw : w.integral = true)
    (h : v.compact = w.compact) : v = w :=
  Decode.spellsText_unique (compact_spells hv).text (h ▸ (compact_spells hw).text)

end TreeDoc.Json

namespace TreeDoc.Document

open Json (Value)

/-! ## Tags and attributes -/

theorem Kind.ofTag?_tag (k : Kind) : ofTag? k.tag = some k := by
  cases k with
  | binary op => cases op <;> decide
  | _ => decide

theorem Kind.tag_injective {k l : Kind} (h : k.tag = l.tag) : k = l := by
  have htags := congrArg ofTag? h
  rwa [ofTag?_tag, ofTag?_tag, Option.some.injEq] at htags

theorem Scalar.eq_of_same {s t : Scalar} (h : s.value.same t.value = true) : s = t := by
  cases s <;> cases t <;> simp_all [Scalar.value, Value.same]

theorem Scalar.not_same_array (s : Scalar) (vs : List Value) :
    s.value.same (.array vs) = false := by cases s <;> simp [Scalar.value, Value.same]

theorem Scalar.array_not_same (s : Scalar) (vs : List Value) :
    (Value.array vs).same s.value = false := by cases s <;> simp [Scalar.value, Value.same]

/-! ## The entries of a node -/

theorem groupValues_eq_map (gs : List (String × List Node)) :
    groupValues gs = gs.map fun g => (g.1, .array (nodeValues g.2)) := by
  induction gs with
  | nil => rw [groupValues, List.map_nil]
  | cons g gs ih => rw [groupValues, ih, List.map_cons]

/-- Under a key that is not that of a tag stands an attribute or a group. -/
theorem Node.get?_entries (n : Node) {k : String} (hk : k ∉ tagKeys) :
    Assoc.get? k n.entries = ((Assoc.get? k n.attrs).map Scalar.value <|>
      (Assoc.get? k n.groups).map fun ns => .array (nodeValues ns)) := by
  have hne : n.kind.family.key ≠ k := fun h => hk (h ▸ n.kind.family.key_mem_tagKeys)
  rw [Node.entries, List.cons_append, Assoc.get?_cons_other hne, Assoc.get?_append,
    groupValues_eq_map, Assoc.get?_map, Assoc.get?_map fun ns => Value.array (nodeValues ns)]

theorem Node.Conforms.attr_not_tag {n : Node} (h : n.Conforms) {a : String × Scalar}
    (ha : a ∈ n.attrs) : a.1 ∉ tagKeys :=
  n.kind.keys_not_tag _ (h.keys_sublist.subset (List.mem_append_left _ (List.mem_map_of_mem ha)))

theorem Node.Conforms.group_not_tag {n : Node} (h : n.Conforms) {g : String × List Node}
    (hg : g ∈ n.groups) : g.1 ∉ tagKeys :=
  n.kind.keys_not_tag _ (h.keys_sublist.subset (List.mem_append_right _ (List.mem_map_of_mem hg)))

section
variable {m n : Node}

theorem Node.Conforms.kind_of_same (hn : n.Conforms)
    (h : Json.sameEntries m.entries n.entries = true) : m.kind = n.kind := by
  obtain ⟨v, hv, hsame⟩ := Json.sameEntries_iff.1 h _ List.mem_cons_self
  -- the only key of a tag that `n` has is that of its own tag
  have hfamily : m.kind.family.key = n.kind.family.key := by
    have hmem : m.kind.family.key ∈ (n.entries.map Prod.fst).filter (· ∈ tagKeys) := by
      refine List.mem_filter.2 ⟨List.mem_map_of_mem (Assoc.mem_of_get? hv), ?_⟩
      simpa using m.kind.family.key_mem_tagKeys
    rw [hn.entries.2.2] at hmem
    exact List.mem_singleton.1 hmem
  rw [hfamily, Node.entries, List.cons_append, Assoc.get?_cons_self, Option.some.injEq] at hv
  subst hv
  exact Kind.tag_injective (by simpa [Value.same] using hsame)

theorem Node.Conforms.attr_of_same (hm : m.Conforms)
    (h : Json.sameEntries m.entries n.entries = true) {a : String × Scalar} (ha : a ∈ m.attrs) :
    Assoc.get? a.1 n.attrs = some a.2 := by
  have hentry : (a.1, a.2.value) ∈ m.entries := by
    refine List.mem_append_left _ (List.mem_cons_of_mem _ ?_)
    exact List.mem_map.2 ⟨a, ha, rfl⟩
  obtain ⟨v, hv, hsame⟩ := Json.sameEntries_iff.1 h _ hentry
  rw [n.get?_entries (hm.attr_not_tag ha)] at hv
  cases hattr : Assoc.get? a.1 n.attrs with
  | some s =>
    obtain rfl : s.value = v := by simpa [hattr] using hv
    rw [Scalar.eq_of_same hsame]
  | none =>
    obtain ⟨ns, -, rfl⟩ : ∃ ns, Assoc.get? a.1 n.groups = some ns ∧ .array (nodeValues ns) = v := by
      simpa [hattr] using hv
    cases (Scalar.not_same_array _ _).symm.trans hsame

theorem Node.Conforms.group_of_same (hm : m.Conforms)
    (h : Json.sameEntries m.entries n.entries = true) {g : String × List Node}
    (hg : g ∈ m.groups) :
    ∃ ns, Assoc.get? g.1 n.groups = some ns ∧
      Json.sameItems (nodeValues g.2) (nodeValues ns) = true := by
  have hentry : (g.1, .array (nodeValues g.2)) ∈ m.entries := by
    refine List.mem_append_right _ ?_
    rw [groupValues_eq_map]
    exact List.mem_map.2 ⟨g, hg, rfl⟩
  obtain ⟨v, hv, hsame⟩ := Json.sameEntries_iff.1 h _ hentry
  rw [n.get?_entries (hm.group_not_tag hg)] at hv
  cases hattr : Assoc.get? g.1 n.attrs with
  | some s =>
    obtain rfl : s.value = v := by simpa [hattr] using hv
    cases (Scalar.array_not_same _ _).symm.trans hsame
  | none =>
    obtain ⟨ns, hns, rfl⟩ :
        ∃ ns, Assoc.get? g.1 n.groups = some ns ∧ .array (nodeValues ns) = v := by
      simpa [hattr] using hv
    exact ⟨ns, hns, by simpa [Value.same] using hsame⟩

/-- As no attribute of the one is a group of the other, there are as many of
    each. -/
theorem Node.Conforms.lengths_of_same (hm : m.Conforms)
    (h : Json.sameEntries m.entries n.entries = true) (hlength : m.entries.length = n.entries.length) :
    m.attrs.length = n.attrs.length ∧ m.groups.length = n.groups.length := by
  have hattrs : m.attrs.length ≤ n.attrs.length :=
    Assoc.length_le_of_found hm.attrs_nodup fun a ha => ⟨_, hm.attr_of_same h ha⟩
  have hgroups : m.groups.length ≤ n.groups.length :=
    Assoc.length_le_of_found hm.groups_nodup fun g hg =>
      (hm.group_of_same h hg).imp fun _ hns => hns.1
  simp only [Node.entries, groupValues_eq_map, List.cons_append, List.length_cons,
    List.length_append, List.length_map] at hlength
  omega

end

/-! ## Nodes and their values -/

mutual

/-- **Regular nodes with the same value are the same.** -/
theorem Node.same_of_values : ∀ {m n : Node}, m.Regular → n.Regular →
    m.value.same n.value = true → m.same n = true
  | ⟨kind, attrs, groups⟩, n, hm, hn, h => by
    rw [Node.value_eq, n.value_eq, Value.same, Bool.and_eq_true, decide_eq_true_eq] at h
    obtain ⟨hlength, hentries⟩ := h
    obtain ⟨hattrs, hgroups⟩ := hm.conforms.lengths_of_same hentries hlength
    have hfound : ∀ a ∈ attrs, Assoc.get? a.1 n.attrs = some a.2 :=
      fun a ha => hm.conforms.attr_of_same hentries ha
    have hkind : kind = n.kind := hn.conforms.kind_of_same hentries
    have hsame : sameGroups groups n.groups = true :=
      sameGroups_of_values (fun g hg l hl => hm.inner hg hl) (fun g hg l hl => hn.inner hg hl)
        fun g hg => hm.conforms.group_of_same hentries hg
    simp only [Node.same, sameAttrs, Bool.and_eq_true, decide_eq_true_eq, List.all_eq_true]
    exact ⟨⟨⟨hkind, hattrs, hfound⟩, hgroups⟩, hsame⟩

theorem sameGroups_of_values : ∀ {gs hs : List (String × List Node)},
    (∀ g ∈ gs, ∀ n ∈ g.2, n.Regular) → (∀ g ∈ hs, ∀ n ∈ g.2, n.Regular) →
    (∀ g ∈ gs, ∃ ns, Assoc.get? g.1 hs = some ns ∧
      Json.sameItems (nodeValues g.2) (nodeValues ns) = true) → sameGroups gs hs = true
  | [], _, _, _, _ => by rw [sameGroups]
  | (k, ms) :: gs, hs, hgs, hhs, h => by
    obtain ⟨hms, hgs⟩ := List.forall_mem_cons.1 hgs
    obtain ⟨⟨ns, hns, hsame⟩, h⟩ := List.forall_mem_cons.1 h
    have hreg : ∀ n ∈ ns, n.Regular := hhs (k, ns) (Assoc.mem_of_get? hns)
    simp only [sameGroups, hns, sameNodes_of_values hms hreg hsame,
      sameGroups_of_values hgs hhs h, Bool.and_self]

theorem sameNodes_of_values : ∀ {ms ns : List Node}, (∀ m ∈ ms, m.Regular) →
    (∀ n ∈ ns, n.Regular) → Json.sameItems (nodeValues ms) (nodeValues ns) = true →
    sameNodes ms ns = true
  | [], [], _, _, _ => by rw [sameNodes]
  | [], _ :: _, _, _, h => by simp [nodeValues, Json.sameItems] at h
  | _ :: _, [], _, _, h => by simp [nodeValues, Json.sameItems] at h
  | m :: ms, n :: ns, hms, hns, h => by
    obtain ⟨hm, hms⟩ := List.forall_mem_cons.1 hms
    obtain ⟨hn, hns⟩ := List.forall_mem_cons.1 hns
    rw [nodeValues, nodeValues, Json.sameItems, Bool.and_eq_true] at h
    rw [sameNodes, Node.same_of_values hm hn h.1, sameNodes_of_values hms hns h.2, Bool.and_self]

end

theorem distinct_attrs (attrs : List (String × Scalar)) (es : List (String × Value)) :
    Json.distinctEntries (attrs.map (fun (k, s) => (k, s.value)) ++ es) =
      Json.distinctEntries es :=
  skip_attrs (fun _ s _ => by cases s <;> rfl) attrs es

mutual

theorem Node.Regular.distinct : ∀ {n : Node}, n.Regular → n.value.distinct = true
  | ⟨kind, attrs, groups⟩, h => by
    have hgroups : Json.distinctEntries (groupValues groups) = true :=
      groupValues_distinct fun g hg l hl => h.inner hg hl
    rw [Node.value_eq, Value.distinct, Bool.and_eq_true, decide_eq_true_eq]
    refine ⟨h.conforms.entries.2.1, ?_⟩
    rw [Node.entries, List.cons_append, Json.distinctEntries, distinct_attrs, hgroups]
    rfl

theorem groupValues_distinct : ∀ {gs : List (String × List Node)},
    (∀ g ∈ gs, ∀ n ∈ g.2, n.Regular) → Json.distinctEntries (groupValues gs) = true
  | [], _ => by rw [groupValues]; rfl
  | (k, ns) :: gs, h => by
    obtain ⟨hns, hgs⟩ := List.forall_mem_cons.1 h
    rw [groupValues, Json.distinctEntries, Value.distinct, nodeValues_distinct hns,
      groupValues_distinct hgs, Bool.and_self]

theorem nodeValues_distinct : ∀ {ns : List Node}, (∀ n ∈ ns, n.Regular) →
    Json.distinctItems (nodeValues ns) = true
  | [], _ => by rw [nodeValues]; rfl
  | n :: ns, h => by
    obtain ⟨hn, hns⟩ := List.forall_mem_cons.1 h
    rw [nodeValues, Json.distinctItems, hn.distinct, nodeValues_distinct hns, Bool.and_self]

end

end TreeDoc.Document

/-! ## Documents of files -/

namespace TreeDoc.Model

open Document Program

theorem document_distinct (st : Style) (f : File) : (document st f).value.distinct = true := by
  have hroot := nodeValues_distinct (root_fits st f).regular
  simp [Document.value, Json.Value.distinct, Json.distinctEntries, hroot]

theorem merged_document (st : Style) (f : File) : (document st f).merged = (document st f).value :=
  Json.Value.merged_eq_self (document_distinct st f)

/-- **The three comparisons agree.** For documents of any two files in any two
    styles, it is the same to compare them as trees or as JSON values, each without
    regard to order, or to compare their texts character by character. -/
theorem comparisons_agree (st st' : Style) (f g : File) :
    [(document st f).same (document st' g) = true,
      (document st f).merged.same (document st' g).merged = true,
      (document st f).compact = (document st' g).compact].TFAE := by
  tfae_have 1 → 3 := by
    intro h
    rw [(same_document_iff st st' f g).1 h]
  tfae_have 3 → 2 := by
    intro h
    have hvalue : (document st f).value = (document st' g).value :=
      Json.compact_injective (value_integral _) (value_integral _) h
    rw [merged_document, merged_document, hvalue]
    exact Json.Value.same_self (document_distinct st' g) (value_integral _)
  tfae_have 2 → 1 := by
    intro h
    rw [merged_document, merged_document] at h
    have hitems : Json.sameItems (nodeValues (document st f).root)
        (nodeValues (document st' g).root) = true := by
      simpa [Document.value, Json.Value.same, Json.sameEntries, Assoc.get?] using h
    exact sameNodes_of_values (root_fits st f).regular (root_fits st' g).regular hitems
  tfae_finish

end TreeDoc.Model
