/-
  Nodes made by steps.

  A node is made from a bare one by setting attributes and attaching groups, in any order
  and any number of times. What it is in the end can be read off the steps.

  * `Assoc.last?`, `Assoc.Settles`: the last value that is given for a key, and the list of
    all keys in the order of their first entries, each with its last value;
  * `Assoc.settles_iff`: there is one such list;
  * `Assoc.rel_get?_iff`: lists that repeat no key are compared key by key;
  * `Node.Step`, `Node.made`: the steps, and the node that they make;
  * `Node.made_eq`: attributes and groups are made apart from each other;
  * `Node.same_made_iff`: which steps make the same node;
  * `Node.made_normal_form`: the three statements together.
-/
import TreeDoc.Proofs.Comparison

namespace TreeDoc.Assoc

variable {α β : Type}

/-! ## First places and last values -/

/-- The value of the last entry under a key. -/
def last? (key : String) (es : List (String × α)) : Option α := get? key es.reverse

/-- The second list has every key of the first one once, in the order of their first
    entries, with the values of their last ones. -/
structure Settles (es fs : List (String × α)) : Prop where
  keys : fs.map Prod.fst = (es.map Prod.fst).eraseDups
  values : ∀ e ∈ fs, last? e.1 es = some e.2

theorem nodup_insert {key : String} (value : α) {es : List (String × α)}
    (h : (es.map Prod.fst).Nodup) : ((insert key value es).map Prod.fst).Nodup := by
  rw [keys_insert]
  by_cases hkey : key ∈ es.map Prod.fst
  · rwa [if_pos hkey, List.append_nil]
  · rw [if_neg hkey]
    exact List.concat_eq_append ▸ h.concat hkey

theorem nodup_insertAll {es start : List (String × α)} (h : (start.map Prod.fst).Nodup) :
    ((insertAll start es).map Prod.fst).Nodup := by
  induction es generalizing start with
  | nil => exact h
  | cons e es ih => exact ih (nodup_insert e.2 h)

theorem nodup_merge (es : List (String × α)) : ((merge es).map Prod.fst).Nodup :=
  nodup_insertAll List.nodup_nil

/-- **A list settles in one way.** -/
theorem settles_iff {es fs : List (String × α)} : Settles es fs ↔ fs = merge es := by
  constructor
  · rintro ⟨hkeys, hvalues⟩
    have hmerge : fs.map Prod.fst = (merge es).map Prod.fst := by rw [hkeys, keys_merge]
    refine (all_get?_iff hmerge (hmerge ▸ nodup_merge es)).1 fun e he => ?_
    rw [get?_merge]
    exact hvalues e he
  · rintro rfl
    refine ⟨keys_merge es, fun e he => ?_⟩
    rw [last?, ← get?_merge]
    exact get?_of_mem (nodup_merge es) he

example : Settles [("a", 1), ("b", 2), ("a", 3)] [("a", 3), ("b", 2)] := settles_iff.2 rfl

/-! ## Comparison key by key -/

theorem get?_eq_none {k : String} {es : List (String × α)} (h : k ∉ es.map Prod.fst) :
    get? k es = none := by
  cases hget : get? k es with
  | none => rfl
  | some a => exact absurd (List.mem_map_of_mem (mem_of_get? hget)) h

theorem rel_eq_iff {a b : Option α} : Option.Rel Eq a b ↔ a = b := by
  constructor
  · rintro (⟨rfl⟩ | _) <;> rfl
  · rintro rfl
    cases a with
    | none => exact .none
    | some a => exact .some rfl

/-- Lists that repeat no key have related values under every key if they are of the same
    length, and what stands in the one is found in the other. -/
theorem rel_get?_iff {R : α → β → Prop} {as : List (String × α)} {bs : List (String × β)}
    (has : (as.map Prod.fst).Nodup) (hbs : (bs.map Prod.fst).Nodup) :
    (∀ k, Option.Rel R (get? k as) (get? k bs)) ↔
      as.length = bs.length ∧ ∀ a ∈ as, ∃ b, get? a.1 bs = some b ∧ R a.2 b := by
  constructor
  · intro h
    have hfound : ∀ a ∈ as, ∃ b, get? a.1 bs = some b ∧ R a.2 b := by
      intro a ha
      have hrel := h a.1
      rw [get?_of_mem has ha] at hrel
      cases hget : get? a.1 bs with
      | none => rw [hget] at hrel; cases hrel
      | some b => rw [hget] at hrel; cases hrel with | some hab => exact ⟨b, rfl, hab⟩
    have hback : ∀ b ∈ bs, ∃ a, get? b.1 as = some a := by
      intro b hb
      have hrel := h b.1
      rw [get?_of_mem hbs hb] at hrel
      cases hget : get? b.1 as with
      | none => rw [hget] at hrel; cases hrel
      | some a => exact ⟨a, rfl⟩
    refine ⟨Nat.le_antisymm ?_ (length_le_of_found hbs hback), hfound⟩
    exact length_le_of_found has fun a ha => (hfound a ha).imp fun _ hb => hb.1
  · rintro ⟨hlength, hfound⟩ k
    have hsub : as.map Prod.fst ⊆ bs.map Prod.fst := by
      intro l hl
      obtain ⟨a, ha, rfl⟩ := List.mem_map.1 hl
      obtain ⟨b, hb, -⟩ := hfound a ha
      exact List.mem_map_of_mem (mem_of_get? hb)
    -- as there are as many keys in both, they are the same
    have hperm : (as.map Prod.fst).Perm (bs.map Prod.fst) :=
      (List.subperm_of_subset has hsub).perm_of_length_le (by simp [hlength])
    by_cases hk : k ∈ as.map Prod.fst
    · obtain ⟨a, ha, rfl⟩ := List.mem_map.1 hk
      obtain ⟨b, hb, hab⟩ := hfound a ha
      rw [get?_of_mem has ha, hb]
      exact .some hab
    · rw [get?_eq_none hk, get?_eq_none fun hmem => hk (hperm.mem_iff.2 hmem)]
      exact .none

end TreeDoc.Assoc

namespace TreeDoc.Document

open Assoc (last? Settles)

/-! ## Nodes key by key -/

theorem sameAttrs_iff_found {as bs : List (String × Scalar)} :
    sameAttrs as bs = true ↔
      as.length = bs.length ∧ ∀ a ∈ as, ∃ s, Assoc.get? a.1 bs = some s ∧ a.2 = s := by
  simp [sameAttrs]

theorem sameNodes_iff_forall₂ : ∀ {ms ns : List Node},
    sameNodes ms ns = true ↔ List.Forall₂ (fun m n => m.same n = true) ms ns
  | [], [] => by simp [sameNodes]
  | [], _ :: _ => by simp [sameNodes]
  | _ :: _, [] => by simp [sameNodes]
  | m :: ms, n :: ns => by
    rw [sameNodes, Bool.and_eq_true, sameNodes_iff_forall₂, List.forall₂_cons]

theorem sameGroups_iff_found {gs hs : List (String × List Node)} :
    sameGroups gs hs = true ↔ ∀ g ∈ gs, ∃ ns, Assoc.get? g.1 hs = some ns ∧
      List.Forall₂ (fun m n => m.same n = true) g.2 ns := by
  induction gs with
  | nil => simp [sameGroups]
  | cons g gs ih =>
    obtain ⟨k, ms⟩ := g
    rw [sameGroups, Bool.and_eq_true, ih, List.forall_mem_cons]
    cases Assoc.get? k hs <;> simp [sameNodes_iff_forall₂]

namespace Node

/-- Neither the attributes nor the groups of the node repeat a key. -/
structure Keyed (n : Node) : Prop where
  attrs : (n.attrs.map Prod.fst).Nodup
  groups : (n.groups.map Prod.fst).Nodup

/-- Keyed nodes are the same if they are so under every key. -/
theorem Keyed.same_iff {m n : Node} (hm : m.Keyed) (hn : n.Keyed) :
    m.same n = true ↔ m.kind = n.kind ∧ (∀ k, m.attr? k = n.attr? k) ∧
      ∀ k, Option.Rel (List.Forall₂ fun m n => m.same n = true) (m.group? k) (n.group? k) := by
  obtain ⟨kind, attrs, groups⟩ := m
  have hattrs : sameAttrs attrs n.attrs = true ↔ ∀ k, Assoc.get? k attrs = n.attr? k := by
    rw [sameAttrs_iff_found, ← Assoc.rel_get?_iff hm.attrs hn.attrs]
    exact forall_congr' fun k => Assoc.rel_eq_iff
  have hgroups : groups.length = n.groups.length ∧ sameGroups groups n.groups = true ↔
      ∀ k, Option.Rel (List.Forall₂ fun m n => m.same n = true) (Assoc.get? k groups)
        (n.group? k) := by
    rw [sameGroups_iff_found]
    exact (Assoc.rel_get?_iff hm.groups hn.groups).symm
  simp only [Node.same, Bool.and_eq_true, decide_eq_true_eq]
  rw [hattrs, and_assoc, and_assoc, hgroups]
  rfl

/-! ## Steps -/

/-- The ways to extend a node. -/
inductive Step where
  | set (key : String) (value : Scalar)
  | attach (key : String) (group : List Node)

/-- The node after a step. -/
def Step.apply (n : Node) : Step → Node
  | .set key value => n.set key value
  | .attach key group => n.attach key group

/-- The attribute that a step sets. -/
def Step.setting? : Step → Option (String × Scalar)
  | .set key value => some (key, value)
  | .attach _ _ => none

/-- The group that a step attaches. -/
def Step.attachment? : Step → Option (String × List Node)
  | .set _ _ => none
  | .attach key group => some (key, group)

/-- The node of a kind that is made by steps. -/
def made (kind : Kind) (steps : List Step) : Node := steps.foldl Step.apply (ofKind kind)

/-- What is set by steps, in order. -/
def settings (steps : List Step) : List (String × Scalar) := steps.filterMap Step.setting?

/-- What is attached by steps, in order. -/
def attachments (steps : List Step) : List (String × List Node) :=
  steps.filterMap Step.attachment?

theorem foldl_apply (steps : List Step) (n : Node) :
    steps.foldl Step.apply n =
      ⟨n.kind, Assoc.insertAll n.attrs (settings steps),
        Assoc.insertAll n.groups (attachments steps)⟩ := by
  induction steps generalizing n with
  | nil =>
    obtain ⟨kind, attrs, groups⟩ := n
    simp only [List.foldl_nil, settings, attachments, List.filterMap_nil, Assoc.insertAll]
  | cons s steps ih =>
    rw [List.foldl_cons, ih]
    cases s with
    | set key value => rfl
    | attach key group => rfl

/-- **Attributes and groups are made apart from each other.** -/
theorem made_eq (kind : Kind) (steps : List Step) :
    made kind steps =
      ⟨kind, Assoc.merge (settings steps), Assoc.merge (attachments steps)⟩ :=
  foldl_apply steps (ofKind kind)

section
variable (kind kind' : Kind) (steps steps' : List Step)

theorem made_keyed : (made kind steps).Keyed := by
  rw [made_eq]
  exact ⟨Assoc.nodup_merge _, Assoc.nodup_merge _⟩

theorem attr?_made (k : String) : (made kind steps).attr? k = last? k (settings steps) := by
  rw [made_eq]
  exact Assoc.get?_merge k _

theorem group?_made (k : String) : (made kind steps).group? k = last? k (attachments steps) := by
  rw [made_eq]
  exact Assoc.get?_merge k _

/-- The tag comes first, then the attributes, and the groups are last. -/
theorem value_made : ∃ attrs groups,
    Settles (settings steps) attrs ∧ Settles (attachments steps) groups ∧
    (made kind steps).value =
      .object ((kind.family.key, .string kind.tag) :: attrs.map (fun a => (a.1, a.2.value)) ++
        groups.map fun g => (g.1, .array (nodeValues g.2))) := by
  refine ⟨_, _, Assoc.settles_iff.2 rfl, Assoc.settles_iff.2 rfl, ?_⟩
  rw [made_eq, Node.value, groupValues_eq_map]

/-- Whether an attribute is set before or after a group is attached makes no difference. -/
theorem made_swap (before rest : List Step) (k l : String) (s : Scalar) (ns : List Node) :
    made kind (before ++ .set k s :: .attach l ns :: rest) =
      made kind (before ++ .attach l ns :: .set k s :: rest) := by
  simp only [made, List.foldl_append, List.foldl_cons]
  rfl

theorem same_made_iff :
    (made kind steps).same (made kind' steps') = true ↔ kind = kind' ∧
      (∀ k, last? k (settings steps) = last? k (settings steps')) ∧
      ∀ k, Option.Rel (List.Forall₂ fun m n => m.same n = true)
        (last? k (attachments steps)) (last? k (attachments steps')) := by
  rw [(made_keyed kind steps).same_iff (made_keyed kind' steps')]
  simp only [attr?_made, group?_made]
  rw [made_eq, made_eq]

/-- **Nodes have a normal form.** Their value has the tag, then the attributes and then the
    groups, every key of these in the place where it was first met and with what it was last
    given. So setting an attribute and attaching a group commute, and steps make the same
    node if they agree on the kind, on the last value of every attribute, and on the last
    nodes of every group, one by one. -/
theorem made_normal_form :
    (∃ attrs groups, Settles (settings steps) attrs ∧ Settles (attachments steps) groups ∧
      (made kind steps).value =
        .object ((kind.family.key, .string kind.tag) :: attrs.map (fun a => (a.1, a.2.value)) ++
          groups.map fun g => (g.1, .array (nodeValues g.2)))) ∧
    (∀ (before rest : List Step) (k l : String) (s : Scalar) (ns : List Node),
      made kind (before ++ .set k s :: .attach l ns :: rest) =
        made kind (before ++ .attach l ns :: .set k s :: rest)) ∧
    ((made kind steps).same (made kind' steps') = true ↔ kind = kind' ∧
      (∀ k, last? k (settings steps) = last? k (settings steps')) ∧
      ∀ k, Option.Rel (List.Forall₂ fun m n => m.same n = true)
        (last? k (attachments steps)) (last? k (attachments steps'))) :=
  ⟨value_made kind steps, made_swap kind, same_made_iff kind kind' steps steps'⟩

-- the second text stands in the place of the first one
example : (made .comment [.set "text" (.text "a"), .attach "children" [], .set "open" (.bool true),
    .set "text" .null]).value = .object [("statement-type", .string "comment-statement"),
      ("text", .null), ("open", .bool true), ("children", .array [])] := rfl

end

end Node

end TreeDoc.Document
