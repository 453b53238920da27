/-
  Where reading a value fails.

  A failure has the path of the value that was being read. Inside a node that has been
  read paths are not kept, so a failure there belongs to the outermost node.

  * `Failure.Bare`: a failure without a path and without a place in a text;
  * `Expectation.decode`: a tree read as what is expected of it;
  * `decodeItems_error`, `decodeArray_error`, `decodeObject_error`, …: a loop of the decoder
    fails by itself or because a part fails;
  * `decode_explained`: so does the decoder as a whole;
  * `buffered_bare`: in a node that has been read no failure has a path;
  * `decode_error_located`: the path of a failure leads to a part that fails by itself;
  * `File.ofValue_error_located`: so it is for a file and its message.
-/
import TreeDoc.Proofs.Expectations

namespace TreeDoc.Decode

open Json Program

/-! ## Results that are failures -/

section
variable {ε ε' α β : Type}

theorem bind_eq_error {x : Except ε α} {f : α → Except ε β} {e : ε} :
    x >>= f = .error e ↔ x = .error e ∨ ∃ a, x = .ok a ∧ f a = .error e := by
  cases x with
  | error e' => exact ⟨fun h => by cases h; exact .inl rfl, fun h => by
      rcases h with h | ⟨_, h, _⟩ <;> cases h; rfl⟩
  | ok a => exact ⟨fun h => .inr ⟨a, rfl, h⟩, fun h => by
      rcases h with h | ⟨_, h, h'⟩ <;> cases h; exact h'⟩

theorem map_eq_error {x : Except ε α} {f : α → β} {e : ε} : x.map f = .error e ↔ x = .error e := by
  cases x <;> simp [Except.map]

theorem mapError_eq_error {x : Except ε α} {f : ε → ε'} {e : ε'} :
    x.mapError f = .error e ↔ ∃ e', x = .error e' ∧ f e' = e := by
  cases x <;> simp [Except.mapError]

end

/-! ## Failures without a path -/

/-- The failure has neither a path nor a place in a text. -/
def Failure.Bare (f : Failure) : Prop := f.path = [] ∧ f.offset = none

/-- A tree read as what is expected of it. -/
def Expectation.decode (src : Source) (t : Tree) : Expectation → Except Failure Unit
  | .shape s => (Decode.decode src t s).map fun _ => ()
  | .tag tags => (decodeTag src tags t).map fun _ => ()

section
variable {src : Source} (hsrc : src.Plain)
include hsrc

theorem Source.Plain.bare (cause : Cause) (offset : Nat) : (src.failure cause offset).Bare := by
  cases src with
  | text n => exact absurd rfl (hsrc n)
  | value | buffered => exact ⟨rfl, rfl⟩

theorem mismatch_bare (expected : String) (v : Value) :
    (mismatch src expected (Tree.ofValue v)).Bare := by
  cases v <;> rw [Tree.ofValue] <;> exact hsrc.bare _ _

/-! ## Scalars and tags -/

variable {e : Failure}

theorem decodeString_bare {v : Value} (h : decodeString src (Tree.ofValue v) = .error e) :
    e.Bare := by
  unfold decodeString at h
  split at h
  · cases h
  · cases h
    exact mismatch_bare hsrc _ v

theorem decodeBool_bare {v : Value} (h : decodeBool src (Tree.ofValue v) = .error e) : e.Bare := by
  unfold decodeBool at h
  split at h
  · cases h
  · cases h
    exact mismatch_bare hsrc _ v

theorem decodeNat_bare {bits : Nat} {expected : String} {v : Value}
    (h : decodeNat src bits expected (Tree.ofValue v) = .error e) : e.Bare := by
  unfold decodeNat at h
  split at h
  · split at h
    · cases h
    · cases h
      exact hsrc.bare _ _
  · cases h
    exact mismatch_bare hsrc _ v

theorem decodeLiteral_bare {v : Value} (h : decodeLiteral src (Tree.ofValue v) = .error e) :
    e.Bare := by
  cases src with
  | text n => exact absurd rfl (hsrc n)
  | value | buffered =>
    unfold decodeLiteral at h
    cases hl : literal? (Tree.ofValue v) with
    | some l =>
      rw [hl] at h
      cases h
    | none =>
      rw [hl] at h
      cases h
      exact ⟨rfl, rfl⟩

theorem decodeMember_bare {α : Type} {variants : List (String × α)} {name : String} {p : Nat}
    (h : decodeMember src variants name p = .error e) : e.Bare := by
  unfold decodeMember at h
  split at h
  · cases h
  · cases h
    exact hsrc.bare _ _

theorem decodeUnit_bare {v : Value} (h : decodeUnit src (Tree.ofValue v) = .error e) : e.Bare := by
  unfold decodeUnit at h
  split at h
  · cases h
  · split at h
    · cases h
    · cases h
      exact hsrc.bare _ _
  · cases h
    exact mismatch_bare hsrc _ v

omit hsrc in
theorem ofValue_of_mem_pairs {v : Value} {p : Nat} {entries : Entries} {k : String} {t : Tree}
    (h : Tree.ofValue v = .object p entries) (ht : (k, t) ∈ entries.pairs) :
    ∃ u, t = Tree.ofValue u := by
  cases v with
  | object es =>
    rw [Tree.ofValue] at h
    injection h with _ h
    rw [← h, pairs_ofEntries] at ht
    obtain ⟨x, -, hx⟩ := List.mem_map.1 ht
    exact ⟨x.2, (Prod.mk.inj hx).2.symm⟩
  | null | bool | number | string | array =>
    rw [Tree.ofValue] at h
    cases h

theorem decodeChoice_bare {c : Choice} {v : Value}
    (h : decodeChoice src c (Tree.ofValue v) = .error e) : e.Bare := by
  have hvalue : decodeChoiceValue src c.variants (Tree.ofValue v) = .error e := by
    cases src with
    | text n => exact absurd rfl (hsrc n)
    | value | buffered => exact h
  unfold decodeChoiceValue at hvalue
  split at hvalue
  · exact decodeMember_bare hsrc hvalue
  · rename_i htree
    obtain ⟨a, -, hunit⟩ | hmember := (bind_eq_error.1 hvalue).symm
    · obtain hunit | ⟨_, -, hreturn⟩ := bind_eq_error.1 hunit
      · obtain ⟨u, rfl⟩ := ofValue_of_mem_pairs htree List.mem_cons_self
        exact decodeUnit_bare hsrc hunit
      · cases hreturn
    · exact decodeMember_bare hsrc hmember
  · cases hvalue
    exact hsrc.bare _ _
  · cases hvalue
    exact mismatch_bare hsrc _ v

theorem decodeTag_bare {tags : List String} {v : Value}
    (h : decodeTag src tags (Tree.ofValue v) = .error e) : e.Bare := by
  unfold decodeTag at h
  split at h
  · split at h
    · cases h
    · cases h
      exact hsrc.bare _ _
  · split at h
    · split at h
      · cases h
      · cases h
        exact hsrc.bare _ _
    · cases h
      exact hsrc.bare _ _
  · cases h
    exact mismatch_bare hsrc _ v

/-! ## Loops -/

omit hsrc in
/-- A list fails because one of its items does. -/
theorem decodeItems_error {s : Shape} {vs : List Value} {i : Nat}
    (h : decodeItems src s i (Items.ofValues vs) = .error e) :
    ∃ j v e' r, vs[j]? = some v ∧ decode src (Tree.ofValue v) s = .error e' ∧
      src.within (.index (i + j)) r e' = e := by
  induction vs generalizing i with
  | nil =>
    simp only [Items.ofValues, decodeItems] at h
    cases h
  | cons v vs ih =>
    simp only [Items.ofValues, decodeItems] at h
    obtain h | ⟨a, -, h⟩ := bind_eq_error.1 h
    · obtain ⟨e', he', heq⟩ := mapError_eq_error.1 h
      exact ⟨0, v, e', _, rfl, he', heq⟩
    · obtain h | ⟨as, -, h⟩ := bind_eq_error.1 h
      · obtain ⟨j, u, e', r, hu, he', heq⟩ := ih h
        exact ⟨j + 1, u, e', r, hu, he', by rwa [← Nat.add_assoc, Nat.add_right_comm]⟩
      · cases h

omit hsrc in
/-- A field fails because what is expected of it is not there. -/
theorem decodeWith_error {f : Field} {t : Tree} {read : (s : Shape) → Except Failure s.Carrier}
    (h : f.decodeWith (isNull t) read = .error e) :
    ∃ s, f.expects t = some s ∧ read s = .error e := by
  cases f with
  | required k s => exact ⟨s, rfl, h⟩
  | defaulted k s => exact ⟨s, rfl, h⟩
  | optional k s =>
    rw [Field.decodeWith] at h
    split at h
    · cases h
    · rename_i hnull
      exact ⟨s, by rw [Field.expects, if_neg hnull], map_eq_error.1 h⟩

theorem surplus_bare {count : Nat} {vs : List Value}
    (h : surplus src count (Items.ofValues vs) = some e) : e.Bare := by
  cases src with
  | text n => exact absurd rfl (hsrc n)
  | value | buffered =>
    unfold surplus at h
    simp only at h
    split at h
    · cases h
    · cases h
      exact ⟨rfl, rfl⟩

theorem decodeArray_nil_error {expected : String} {fs : List Field} {count : Nat}
    (h : decodeArray src expected fs count (Items.ofValues []) = .error e) : e.Bare := by
  cases fs with
  | nil =>
    simp only [Items.ofValues, decodeArray] at h
    cases src with
    | text n => exact absurd rfl (hsrc n)
    | value | buffered => cases h
  | cons f fs =>
    simp only [Items.ofValues, decodeArray, shortfall] at h
    split at h
    · cases h
    · cases h
      exact hsrc.bare _ _

/-- A structure that is written as an array fails by its length, or because one of its
    fields does. -/
theorem decodeArray_error {expected : String} {fs : List Field} {vs : List Value} {count : Nat}
    (h : decodeArray src expected fs count (Items.ofValues vs) = .error e) :
    e.Bare ∨ ∃ j v f s e' r, vs[j]? = some v ∧ fs[j]? = some f ∧
      f.expects (Tree.ofValue v) = some s ∧ decode src (Tree.ofValue v) s = .error e' ∧
      src.within (.index (count + j)) r e' = e := by
  induction vs generalizing fs count with
  | nil => exact .inl (decodeArray_nil_error hsrc h)
  | cons v vs ih =>
    cases fs with
    | nil =>
      have hsurplus : surplus src count (Items.ofValues (v :: vs)) = some e := by
        simp only [Items.ofValues, decodeArray] at h ⊢
        split at h
        · cases h
        · rename_i hs
          cases h
          exact hs
      exact .inl (surplus_bare hsrc hsurplus)
    | cons f fs =>
      simp only [Items.ofValues, decodeArray] at h
      obtain h | ⟨a, -, h⟩ := bind_eq_error.1 h
      · obtain ⟨e', he', heq⟩ := mapError_eq_error.1 h
        obtain ⟨s, hs, he'⟩ := decodeWith_error he'
        exact .inr ⟨0, v, f, s, e', _, rfl, rfl, hs, he', heq⟩
      · obtain h | ⟨as, -, h⟩ := bind_eq_error.1 h
        · refine (ih h).imp id ?_
          rintro ⟨j, u, f', s, e', r, hu, hf', hs, he', heq⟩
          exact ⟨j + 1, u, f', s, e', r, hu, hf', hs, he',
            by rwa [← Nat.add_assoc, Nat.add_right_comm]⟩
        · cases h

omit hsrc in
/-- An entry is refused because its field has a value already or fails. -/
theorem put_error {key : String} {dup : Failure} {read : (f : Field) → Except Failure f.Carrier} :
    ∀ {fs : List Field} {slots : Slots fs}, Slots.put key dup read fs slots = .error e →
      e = dup ∨ ∃ f, fs.find? (·.key = key) = some f ∧ read f = .error e
  | [], _, h => by cases h
  | f :: fs, (slot, slots), h => by
    unfold Slots.put at h
    by_cases hkey : f.key = key
    · rw [if_pos hkey] at h
      cases slot with
      | some a =>
        cases h
        exact .inl rfl
      | none => exact .inr ⟨f, by simp [hkey], map_eq_error.1 h⟩
    · rw [if_neg hkey] at h
      rw [List.find?_cons_of_neg (by simpa using hkey)]
      exact put_error (map_eq_error.1 h)

/-- A structure that is written as an object fails because a field is missing or comes
    again, or because one of its fields does. -/
theorem decodeObject_error {fs : List Field} {es : List (String × Value)} {slots : Slots fs}
    (h : decodeObject src fs slots (Entries.ofEntries es) = .error e) :
    e.Bare ∨ ∃ k v f s e' r, (k, v) ∈ es ∧ fs.find? (·.key = k) = some f ∧
      f.expects (Tree.ofValue v) = some s ∧ decode src (Tree.ofValue v) s = .error e' ∧
      src.within (.key k) r e' = e := by
  induction es generalizing slots with
  | nil =>
    simp only [Entries.ofEntries, decodeObject] at h
    split at h
    · cases h
    · cases h
      exact .inl (hsrc.bare _ _)
  | cons x es ih =>
    obtain ⟨k, v⟩ := x
    have hrest : ∀ {slots : Slots fs},
        decodeObject src fs slots (Entries.ofEntries es) = .error e →
        e.Bare ∨ ∃ k' v' f s e' r, (k', v') ∈ (k, v) :: es ∧ fs.find? (·.key = k') = some f ∧
          f.expects (Tree.ofValue v') = some s ∧ decode src (Tree.ofValue v') s = .error e' ∧
          src.within (.key k') r e' = e := fun h => by
      refine (ih h).imp id ?_
      rintro ⟨k', v', f, s, e', r, hmem, hfound⟩
      exact ⟨k', v', f, s, e', r, List.mem_cons_of_mem _ hmem, hfound⟩
    simp only [Entries.ofEntries, decodeObject] at h
    obtain h | ⟨put, -, h⟩ := bind_eq_error.1 h
    · obtain rfl | ⟨f, hf, h⟩ := put_error h
      · exact .inl (hsrc.bare _ _)
      · obtain ⟨e', he', heq⟩ := mapError_eq_error.1 h
        obtain ⟨s, hs, he'⟩ := decodeWith_error he'
        exact .inr ⟨k, v, f, s, e', _, List.mem_cons_self, hf, hs, he', heq⟩
    · cases put with
      | some slots => exact hrest h
      | none =>
        cases src with
        | text n => exact absurd rfl (hsrc n)
        | value | buffered => exact hrest h

omit hsrc in
/-- Attributes fail because the value of one of them is no string. -/
theorem decodeAttributes_error {es : List (String × Value)} {found : List (String × String)}
    (h : decodeAttributes src found (Entries.ofEntries es) = .error e) :
    ∃ k v e' r, (k, v) ∈ es ∧ decodeString src (Tree.ofValue v) = .error e' ∧
      src.within (.key k) r e' = e := by
  induction es generalizing found with
  | nil =>
    simp only [Entries.ofEntries, decodeAttributes] at h
    cases h
  | cons x es ih =>
    simp only [Entries.ofEntries, decodeAttributes] at h
    obtain h | ⟨a, -, h⟩ := bind_eq_error.1 h
    · obtain ⟨e', he', heq⟩ := mapError_eq_error.1 h
      exact ⟨x.1, x.2, e', _, List.mem_cons_self, he', heq⟩
    · obtain ⟨k, v, e', r, hmem, hv⟩ := ih h
      exact ⟨k, v, e', r, List.mem_cons_of_mem _ hmem, hv⟩

/-- The tag of an object is not found because it is missing or comes again, or because it
    is no tag. -/
theorem findTag_error {tags : List String} {es : List (String × Value)} {seen : Option Nat}
    (h : findTag src tags seen (Entries.ofEntries es) = .error e) :
    e.Bare ∨ ∃ v e' r, (tagKey, v) ∈ es ∧ decodeTag src tags (Tree.ofValue v) = .error e' ∧
      src.within (.key tagKey) r e' = e := by
  induction es generalizing seen with
  | nil =>
    simp only [Entries.ofEntries, findTag] at h
    split at h
    · cases h
    · cases h
      exact .inl (hsrc.bare _ _)
  | cons x es ih =>
    obtain ⟨k, v⟩ := x
    have hrest : ∀ {seen : Option Nat}, findTag src tags seen (Entries.ofEntries es) = .error e →
        e.Bare ∨ ∃ v' e' r, (tagKey, v') ∈ (k, v) :: es ∧
          decodeTag src tags (Tree.ofValue v') = .error e' ∧
          src.within (.key tagKey) r e' = e := fun h => by
      refine (ih h).imp id ?_
      rintro ⟨v', e', r, hmem, hfound⟩
      exact ⟨v', e', r, List.mem_cons_of_mem _ hmem, hfound⟩
    by_cases hk : k = tagKey
    · subst hk
      simp only [Entries.ofEntries, findTag, if_pos] at h
      cases seen with
      | some i =>
        cases h
        exact .inl (hsrc.bare _ _)
      | none =>
        obtain h | ⟨i, -, h⟩ := bind_eq_error.1 h
        · obtain ⟨e', he', heq⟩ := mapError_eq_error.1 h
          exact .inr ⟨v, e', _, List.mem_cons_self, he', heq⟩
        · exact hrest h
    · rw [findTag_other hsrc hk] at h
      exact hrest h

/-- The tag of an array is missing, or what comes first is no tag. -/
theorem firstTag_error {tags : List String} {vs : List Value}
    (h : firstTag src tags (Items.ofValues vs) = .error e) :
    e.Bare ∨ ∃ v us e' r, vs = v :: us ∧ decodeTag src tags (Tree.ofValue v) = .error e' ∧
      src.within (.index 0) r e' = e := by
  cases vs with
  | nil =>
    simp only [Items.ofValues, firstTag] at h
    cases h
    exact .inl (hsrc.bare _ _)
  | cons v us =>
    simp only [Items.ofValues, firstTag] at h
    obtain h | ⟨i, -, h⟩ := bind_eq_error.1 h
    · obtain ⟨e', he', heq⟩ := mapError_eq_error.1 h
      exact .inr ⟨v, us, e', _, rfl, he', heq⟩
    · cases src with
      | text n => exact absurd rfl (hsrc n)
      | value | buffered => cases h

end

/-! ## Failures of a tree and of its parts -/

/-- The failure belongs to the tree itself, or it is that of a part. A part of a node fails
    in what has been read already. -/
def Explained (src : Source) (s : Shape) (t : Tree) (e : Failure) : Prop :=
  e.Bare ∨ ∃ step expected part src' e', Part s t step expected part ∧
    expected.decode src' part = .error e' ∧
      (src' = src ∧ (∃ r, src.within step r e' = e) ∨ src' = .buffered ∧ e' = e)

theorem get?_pairs_of_mem {es : List (String × Value)} (hes : (es.map Prod.fst).Nodup) {k : String}
    {v : Value} (h : (k, v) ∈ es) :
    Assoc.get? k (Entries.ofEntries es).pairs = some (Tree.ofValue v) := by
  rw [get?_pairs_ofEntries, Assoc.get?_of_mem hes h, Option.map_some]

theorem getElem?_trees {vs : List Value} {j : Nat} {v : Value} (h : vs[j]? = some v) :
    (Items.ofValues vs).trees[j]? = some (Tree.ofValue v) := by
  rw [trees_ofValues, List.getElem?_map, h, Option.map_some]

section
variable {α : Type} {variants : List (Variant α)} {s : Shape} {src : Source} {e : Failure}
  (htags : s.tags = some (variants.map Variant.tag))
  (hfields : ∀ u, s.nodeFields u = (Variant.named? variants u).map (·.layout.fields))
  (hsrc : src.Plain)
include htags hfields hsrc

theorem ofObject_explained {es : List (String × Value)} (hes : (es.map Prod.fst).Nodup)
    (h : Variant.ofObject variants src (Entries.ofEntries es) = .error e) :
    Explained src s (.object 0 (Entries.ofEntries es)) e := by
  obtain h | ⟨i, hi, h⟩ := bind_eq_error.1 h
  · refine (findTag_error hsrc h).imp id ?_
    rintro ⟨v, e', r, hv, he', heq⟩
    exact ⟨.key tagKey, .tag _, Tree.ofValue v, src, e', .tagEntry htags (get?_pairs_of_mem hes hv),
      map_eq_error.2 he', .inl ⟨rfl, r, heq⟩⟩
  · rw [← toOption_eq_some, findTag_toOption hsrc hes] at hi
    obtain ⟨tag, htag, hi⟩ := Option.bind_eq_some_iff.1 hi
    cases hw : variants[i]? with
    | none =>
      rw [hw] at h
      cases h
      exact .inl ⟨rfl, rfl⟩
    | some w =>
      rw [hw] at h
      refine (decodeObject_error Source.plain_buffered (map_eq_error.1 h)).imp id ?_
      rintro ⟨k, v, f, s', e', r, hv, hf, hs', he', rfl⟩
      have hnode : s.nodeFields tag = some w.layout.fields := by
        rw [hfields, named?_of_decodeTag hi, hw, Option.map_some]
      exact ⟨.key k, .shape s', Tree.ofValue v, .buffered, e',
        .nodeEntry (by rw [get?_pairs_ofEntries, htag, Option.map_some]) (denotes_ofValue tag)
          hnode hf (get?_pairs_of_mem hes hv) hs', map_eq_error.2 he', .inr ⟨rfl, rfl⟩⟩

theorem ofArray_explained {vs : List Value}
    (h : Variant.ofArray variants src (Items.ofValues vs) = .error e) :
    Explained src s (.array 0 (Items.ofValues vs)) e := by
  cases vs with
  | nil =>
    simp only [Items.ofValues, Variant.ofArray, firstTag] at h
    cases h
    exact .inl (hsrc.bare _ _)
  | cons tag vs =>
    simp only [Items.ofValues, Variant.ofArray] at h ⊢
    obtain h | ⟨⟨i, rest⟩, hi, h⟩ := bind_eq_error.1 h
    · have hfirst : firstTag src (variants.map Variant.tag) (Items.ofValues (tag :: vs)) =
          .error e := by rwa [Items.ofValues]
      refine (firstTag_error hsrc hfirst).imp id ?_
      rintro ⟨_, _, e', r, ⟨⟩, he', heq⟩
      exact ⟨.index 0, .tag _, Tree.ofValue tag, src, e', .firstTag htags, map_eq_error.2 he',
        .inl ⟨rfl, r, heq⟩⟩
    · have hadmits : src.Admits (itemsDepth vs) := fun n hn => absurd hn (hsrc n)
      rw [← toOption_eq_some, firstTag_toOption _ (denotes_ofValues vs) hadmits] at hi
      obtain ⟨_, htag, ⟨⟩⟩ := Option.map_eq_some_iff.1 hi
      cases hw : variants[i]? with
      | none =>
        simp only [hw] at h
        cases h
        exact .inl ⟨rfl, rfl⟩
      | some w =>
        simp only [hw] at h
        refine (decodeArray_error Source.plain_buffered (map_eq_error.1 h)).imp id ?_
        rintro ⟨j, v, f, s', e', r, hv, hf, hs', he', rfl⟩
        have hnode : s.nodeFields tag = some w.layout.fields := by
          rw [hfields, named?_of_decodeTag htag, hw, Option.map_some]
        exact ⟨.index (j + 1), .shape s', Tree.ofValue v, .buffered, e',
          .nodeElement (denotes_ofValue tag) hnode hf (getElem?_trees hv) hs', map_eq_error.2 he',
          .inr ⟨rfl, rfl⟩⟩

end

/-- A failure in a node of either family. -/
theorem node_explained (n : NodeFamily) {src : Source} (hsrc : src.Plain) {v : Value}
    (hd : v.distinct = true) {e : Failure} (h : decode src (Tree.ofValue v) n.shape = .error e) :
    Explained src n.shape (Tree.ofValue v) e := by
  cases v with
  | array vs =>
    rw [Tree.ofValue, n.decode_array hsrc] at h
    rw [Tree.ofValue]
    exact ofArray_explained n.tags n.nodeFields hsrc h
  | object es =>
    rw [Tree.ofValue, n.decode_object hsrc] at h
    rw [Tree.ofValue]
    exact ofObject_explained n.tags n.nodeFields hsrc (keys_of_distinct hd).1 h
  | null | bool | number | string =>
    rw [n.decode_eq] at h
    cases h
    exact .inl (hsrc.bare _ _)

/-- **One step towards the cause.** What fails is the tree itself or a part of it. -/
theorem decode_explained {src : Source} (hsrc : src.Plain) {v : Value} (hd : v.distinct = true)
    {s : Shape} {e : Failure} (h : decode src (Tree.ofValue v) s = .error e) :
    Explained src s (Tree.ofValue v) e := by
  cases s with
  | text =>
    simp only [decode] at h
    exact .inl (decodeString_bare hsrc h)
  | flag =>
    simp only [decode] at h
    exact .inl (decodeBool_bare hsrc h)
  | position | offset =>
    simp only [decode] at h
    exact .inl (decodeNat_bare hsrc (map_eq_error.1 h))
  | literal =>
    simp only [decode] at h
    exact .inl (decodeLiteral_bare hsrc h)
  | choice c =>
    simp only [decode] at h
    exact .inl (decodeChoice_bare hsrc h)
  | attributes =>
    cases v with
    | object es =>
      obtain ⟨hes, -⟩ := keys_of_distinct hd
      simp only [Tree.ofValue, decode, hsrc.enter] at h ⊢
      obtain ⟨k, v, e', r, hv, he', heq⟩ := decodeAttributes_error h
      refine .inr ⟨.key k, .shape .text, Tree.ofValue v, src, e', .attr (get?_pairs_of_mem hes hv),
        map_eq_error.2 ?_, .inl ⟨rfl, r, heq⟩⟩
      simp only [decode]
      exact he'
    | null | bool | number | string | array =>
      simp only [Tree.ofValue, decode] at h
      cases h
      exact .inl (hsrc.bare _ _)
  | list s =>
    cases v with
    | array vs =>
      simp only [Tree.ofValue, decode, hsrc.enter] at h ⊢
      obtain ⟨j, v, e', r, hv, he', heq⟩ := decodeItems_error h
      rw [Nat.zero_add] at heq
      exact .inr ⟨.index j, .shape s, Tree.ofValue v, src, e', .item (getElem?_trees hv),
        map_eq_error.2 he', .inl ⟨rfl, r, heq⟩⟩
    | null | bool | number | string | object =>
      simp only [Tree.ofValue, decode] at h
      cases h
      exact .inl (hsrc.bare _ _)
  | record r =>
    cases v with
    | array vs =>
      simp only [Tree.ofValue, decode, hsrc.enter] at h ⊢
      refine (decodeArray_error hsrc (map_eq_error.1 h)).imp id ?_
      rintro ⟨j, v, f, s, e', p, hv, hf, hs, he', heq⟩
      rw [Nat.zero_add] at heq
      exact ⟨.index j, .shape s, Tree.ofValue v, src, e', .element hf (getElem?_trees hv) hs,
        map_eq_error.2 he', .inl ⟨rfl, p, heq⟩⟩
    | object es =>
      obtain ⟨hes, -⟩ := keys_of_distinct hd
      simp only [Tree.ofValue, decode, hsrc.enter] at h ⊢
      refine (decodeObject_error hsrc (map_eq_error.1 h)).imp id ?_
      rintro ⟨k, v, f, s, e', p, hv, hf, hs, he', heq⟩
      exact ⟨.key k, .shape s, Tree.ofValue v, src, e', .entry hf (get?_pairs_of_mem hes hv) hs,
        map_eq_error.2 he', .inl ⟨rfl, p, heq⟩⟩
    | null | bool | number | string =>
      simp only [Tree.ofValue, decode] at h
      cases h
      exact .inl (hsrc.bare _ _)
  | expr => exact node_explained .expr hsrc hd h
  | stmt => exact node_explained .stmt hsrc hd h

/-! ## The path of a failure -/

/-- Parts of a value repeat no key either. -/
theorem distinct_of_child? {v u : Value} {step : Step} (hd : v.distinct = true)
    (h : v.child? step = some u) : u.distinct = true := by
  cases v with
  | array vs =>
    cases step with
    | index i =>
      rw [Value.distinct] at hd
      exact distinct_of_mem hd (List.mem_of_getElem? h)
    | key | unknown => cases h
  | object es =>
    cases step with
    | key k => exact (keys_of_distinct hd).2 h
    | index | unknown => cases h
  | null | bool | number | string => cases h

/-- **In a node that has been read** no failure has a path. -/
theorem buffered_bare {v : Value} (hd : v.distinct = true) {expected : Expectation} {e : Failure}
    (h : expected.decode .buffered (Tree.ofValue v) = .error e) : e.Bare := by
  -- by induction on the depth, because parts are less deep than the whole
  induction hn : (Tree.ofValue v).depth using Nat.strongRecOn generalizing v expected e with
  | ind n ih =>
    cases expected with
    | tag tags => exact decodeTag_bare Source.plain_buffered (map_eq_error.1 h)
    | shape s =>
      obtain hbare | ⟨step, expected, part, src', e', hpart, he', hcase⟩ :=
        decode_explained Source.plain_buffered hd (map_eq_error.1 h)
      · exact hbare
      · obtain ⟨rfl, rfl⟩ : src' = .buffered ∧ e' = e := by
          obtain ⟨hsrc, r, heq⟩ | hsame := hcase
          · exact ⟨hsrc, heq⟩
          · exact hsame
        obtain ⟨u, hu, rfl⟩ := hpart.child?
        exact ih _ (hn ▸ hpart.depth_lt) (distinct_of_child? hd hu) he' rfl

/-- The path of the failure leads to a part that fails by itself, for the same cause. -/
def Located (expected : Expectation) (t : Tree) (e : Failure) : Prop :=
  e.offset = none ∧ ∃ expected' part, Leads expected t e.path expected' part ∧
    expected'.decode .value part = .error { cause := e.cause }

theorem Failure.Bare.located {expected : Expectation} {t : Tree} {e : Failure} (h : e.Bare)
    (he : expected.decode .value t = .error e) : Located expected t e := by
  obtain ⟨cause, path, offset⟩ := e
  obtain ⟨rfl, rfl⟩ := h
  exact ⟨rfl, expected, t, .here, he⟩

/-- The way to a part of a part goes through the part. -/
theorem Located.under {s : Shape} {t part : Tree} {step : Step} {expected : Expectation}
    {e : Failure} (h : Located expected part e) (hpart : Part s t step expected part) :
    Located (.shape s) t (e.under step) := by
  obtain ⟨hoffset, expected', part', hleads, hdecode⟩ := h
  exact ⟨hoffset, expected', part', .into hpart hleads, hdecode⟩

/-- **Failures are located.** -/
theorem decode_error_located {v : Value} (hd : v.distinct = true) {expected : Expectation}
    {e : Failure} (h : expected.decode .value (Tree.ofValue v) = .error e) :
    Located expected (Tree.ofValue v) e := by
  induction hn : (Tree.ofValue v).depth using Nat.strongRecOn generalizing v expected e with
  | ind n ih =>
    cases expected with
    | tag tags =>
      have hbare : e.Bare := decodeTag_bare Source.plain_value (map_eq_error.1 h)
      exact hbare.located h
    | shape s =>
      obtain hbare | ⟨step, expected, part, src', e', hpart, he', hcase⟩ :=
        decode_explained Source.plain_value hd (map_eq_error.1 h)
      · exact hbare.located h
      · obtain ⟨u, hu, rfl⟩ := hpart.child?
        have hdu := distinct_of_child? hd hu
        obtain ⟨rfl, r, rfl⟩ | ⟨rfl, rfl⟩ := hcase
        · exact (ih _ (hn ▸ hpart.depth_lt) hdu he' rfl).under hpart
        · exact (buffered_bare hdu he').located h

end TreeDoc.Decode

namespace TreeDoc.Program

open Decode Json

/-- **Messages name the place.** If a value is no file, the path in the message leads
    through entries and items that are there to a part of the value which is, for the cause
    in the message, not what is expected at this place. -/
theorem File.ofValue_error_located {origin : String} {v : Value} {e : LoadError}
    (hd : v.distinct = true) (h : File.ofValue origin v = .error e) :
    ∃ (path : Path) (cause : Cause) (expected : Expectation) (part : Value),
      e = .undecodable origin "" { cause, path } ∧
      e.message = origin ++ ": at JSON path " ++ path.text ++ " → " ++ cause.message ∧
      v.at? path = some part ∧
      Leads (.shape (.record .file)) (Tree.ofValue v) path expected (Tree.ofValue part) ∧
      expected.decode .value (Tree.ofValue part) = .error { cause } := by
  obtain ⟨⟨cause, path, offset⟩, hfailure, rfl⟩ := mapError_eq_error.1 h
  have hfile : (Expectation.shape (.record .file)).decode .value (Tree.ofValue v) =
      .error ⟨cause, path, offset⟩ := map_eq_error.2 hfailure
  obtain ⟨hoffset, expected, part, hleads, hdecode⟩ := decode_error_located hd hfile
  obtain rfl : offset = none := hoffset
  obtain ⟨part, hat, rfl⟩ := hleads.at?
  exact ⟨path, cause, expected, part, rfl, rfl, hat, hleads, hdecode⟩

/-- A file with a reply whose expression has no known tag. -/
def unknownTagValue : Value :=
  .object [("package_name", .string "p"), ("functions", .array [.object [
    ("name", .string "main"), ("body", .object [("statements", .array [.object [
      ("kind", .string "reply"), ("expr", .object [("kind", .string "sum")])]])])]])]

/-- The failure of the tag, which belongs to the whole statement. -/
def unknownTagFailure : Failure where
  cause := .unknownVariant "sum" (exprVariants.map Variant.tag)
  path := [.key "functions", .index 0, .key "body", .key "statements", .index 0]

/-- The statement is not read, and neither is the file. -/
theorem unknownTag_located :
    unknownTagValue.distinct = true ∧
    File.ofValue "a" unknownTagValue = .error (.undecodable "a" "" unknownTagFailure) ∧
    unknownTagFailure.path.text = "functions[0].body.statements[0]" ∧
    ∃ expected part, unknownTagValue.at? unknownTagFailure.path = some part ∧
      Leads (.shape (.record .file)) (Tree.ofValue unknownTagValue) unknownTagFailure.path expected
        (Tree.ofValue part) ∧
      expected.decode .value (Tree.ofValue part) = .error { cause := unknownTagFailure.cause } := by
  have hread : File.ofValue "a" unknownTagValue =
      .error (.undecodable "a" "" unknownTagFailure) := rfl
  obtain ⟨path, cause, expected, part, heq, -, hat, hleads, hdecode⟩ :=
    File.ofValue_error_located (by decide) hread
  cases heq
  exact ⟨by decide, hread, by decide, expected, part, hat, hleads, hdecode⟩

end TreeDoc.Program
