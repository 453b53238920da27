/-
  Equality of documents up to the order of attributes and groups.

  Nodes are compared without regard to the order of their attributes and groups.
  Between nodes of the grammar this makes no difference: the keys of a kind have
  one order, and none of them is repeated.

  * `Document.same`: the comparison, for documents;
  * `Node.same_iff`: between regular nodes it is equality;
  * `same_document_iff`: so it is between documents of files.
-/
import TreeDoc.Proofs.Conformance
import TreeDoc.Proofs.Keys

namespace TreeDoc.Document

/-- Equality of documents up to the order of attributes and groups. -/
def same (d e : Document) : Bool := sameNodes d.root e.root

/-! ## Attributes -/

theorem sameAttrs_iff {as bs : List (String × Scalar)} (hkeys : as.map Prod.fst = bs.map Prod.fst)
    (hnodup : (as.map Prod.fst).Nodup) : sameAttrs as bs = true ↔ as = bs := by
  have hlength : as.length = bs.length := by simpa using congrArg List.length hkeys
  rw [sameAttrs, ← Assoc.all_get?_iff hkeys hnodup]
  simp [hlength]

/-! ## Groups and nodes -/

theorem sameGroups_cons_right {k : String} {ns : List Node} {hs : List (String × List Node)} :
    ∀ {gs : List (String × List Node)}, k ∉ gs.map Prod.fst →
      sameGroups gs ((k, ns) :: hs) = sameGroups gs hs
  | [], _ => by rw [sameGroups, sameGroups]
  | (l, ms) :: gs, hk => by
    obtain ⟨hkl, hk⟩ : k ≠ l ∧ k ∉ gs.map Prod.fst := by simpa using hk
    rw [sameGroups, sameGroups, Assoc.get?_cons_other hkl, sameGroups_cons_right hk]

/-- Of two key lists of one form, those of the same length are the same. -/
theorem keys_eq_of_length {keys ks ls : List String} {optional : Option String}
    (hk : ks = keys ∨ ks = keys ++ optional.toList) (hl : ls = keys ∨ ls = keys ++ optional.toList)
    (hlength : ks.length = ls.length) : ks = ls := by
  rcases hk with rfl | rfl <;> rcases hl with rfl | rfl
  · rfl
  · have h : optional.toList = [] := by simpa using hlength
    rw [h, List.append_nil]
  · have h : optional.toList = [] := by simpa using hlength
    rw [h, List.append_nil]
  · rfl

theorem Node.Conforms.attrs_nodup {n : Node} (h : n.Conforms) : (n.attrs.map Prod.fst).Nodup :=
  ((List.nodup_cons.1 n.kind.keys_nodup).2.sublist h.keys_sublist).of_append_left

theorem Node.Conforms.groups_nodup {n : Node} (h : n.Conforms) : (n.groups.map Prod.fst).Nodup :=
  ((List.nodup_cons.1 n.kind.keys_nodup).2.sublist h.keys_sublist).of_append_right

theorem Node.Conforms.groupKeys {n : Node} (h : n.Conforms) :
    n.groups.map Prod.fst = n.kind.form.groups.map Prod.fst ∨
    n.groups.map Prod.fst =
      n.kind.form.groups.map Prod.fst ++ (n.kind.form.optionalGroup.map Prod.fst).toList := by
  rcases h.groups with hg | hg
  · exact Or.inl (keys_of_forall₂ hg)
  · refine Or.inr ?_
    rw [keys_of_forall₂ hg, List.map_append]
    cases n.kind.form.optionalGroup <;> rfl

mutual

/-- **Sameness is equality** between regular nodes. -/
theorem Node.same_iff : ∀ {m n : Node}, m.Regular → n.Regular → (m.same n = true ↔ m = n)
  | ⟨kind, attrs, groups⟩, ⟨kind', attrs', groups'⟩, hm, hn => by
    have hinner : ∀ g ∈ groups, ∀ l ∈ g.2, l.Regular := fun g hg l hl => hm.inner hg hl
    have hinner' : ∀ g ∈ groups', ∀ l ∈ g.2, l.Regular := fun g hg l hl => hn.inner hg hl
    simp only [Node.same, Bool.and_eq_true, decide_eq_true_eq, Node.mk.injEq]
    constructor
    · rintro ⟨⟨⟨rfl, hattrs⟩, hlength⟩, hgroups⟩
      have hattrKeys : attrs.map Prod.fst = attrs'.map Prod.fst := by
        refine keys_eq_of_length hm.conforms.attrs hn.conforms.attrs ?_
        simp only [sameAttrs, Bool.and_eq_true, decide_eq_true_eq] at hattrs
        simpa using hattrs.1
      have hgroupKeys : groups.map Prod.fst = groups'.map Prod.fst :=
        keys_eq_of_length hm.conforms.groupKeys hn.conforms.groupKeys (by simpa using hlength)
      exact ⟨rfl, (sameAttrs_iff hattrKeys hm.conforms.attrs_nodup).1 hattrs,
        (sameGroups_iff hgroupKeys hm.conforms.groups_nodup hinner hinner').1 hgroups⟩
    · rintro ⟨rfl, rfl, rfl⟩
      exact ⟨⟨⟨rfl, (sameAttrs_iff rfl hm.conforms.attrs_nodup).2 rfl⟩, rfl⟩,
        (sameGroups_iff rfl hm.conforms.groups_nodup hinner hinner').2 rfl⟩

theorem sameGroups_iff : ∀ {gs hs : List (String × List Node)},
    gs.map Prod.fst = hs.map Prod.fst → (gs.map Prod.fst).Nodup →
    (∀ g ∈ gs, ∀ n ∈ g.2, n.Regular) → (∀ g ∈ hs, ∀ n ∈ g.2, n.Regular) →
    (sameGroups gs hs = true ↔ gs = hs)
  | [], [], _, _, _, _ => by simp [sameGroups]
  | (k, ms) :: gs, (l, ns) :: hs, hkeys, hnodup, hgs, hhs => by
    obtain ⟨hkl, htail⟩ := List.cons.inj hkeys
    obtain rfl : k = l := hkl
    obtain ⟨hk, hnodup⟩ := List.nodup_cons.1 hnodup
    obtain ⟨hms, hgs⟩ := List.forall_mem_cons.1 hgs
    obtain ⟨hns, hhs⟩ := List.forall_mem_cons.1 hhs
    simp only [sameGroups, Assoc.get?_cons_self, sameGroups_cons_right hk, Bool.and_eq_true,
      sameNodes_iff hms hns, sameGroups_iff htail hnodup hgs hhs, List.cons.injEq, Prod.mk.injEq,
      true_and]

theorem sameNodes_iff : ∀ {ms ns : List Node}, (∀ m ∈ ms, m.Regular) → (∀ n ∈ ns, n.Regular) →
    (sameNodes ms ns = true ↔ ms = ns)
  | [], [], _, _ => by simp [sameNodes]
  | [], _ :: _, _, _ => by simp [sameNodes]
  | _ :: _, [], _, _ => by simp [sameNodes]
  | m :: ms, n :: ns, hms, hns => by
    obtain ⟨hm, hms⟩ := List.forall_mem_cons.1 hms
    obtain ⟨hn, hns⟩ := List.forall_mem_cons.1 hns
    rw [sameNodes, Bool.and_eq_true, Node.same_iff hm hn, sameNodes_iff hms hns, List.cons.injEq]

end

end TreeDoc.Document

namespace TreeDoc.Model

open Document Program

theorem same_document_iff (st st' : Style) (f g : File) :
    (document st f).same (document st' g) = true ↔ document st f = document st' g := by
  rw [Document.same, sameNodes_iff (root_fits st f).regular (root_fits st' g).regular,
    Document.mk.injEq]

end TreeDoc.Model
