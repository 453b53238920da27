/-
  What is read when reading succeeds.

  A value that is read from a tree is made of values that are read from the parts of the
  tree. The fields of a node are taken from what has been read of it, and by then nothing
  in the node is too deep for the text.

  * `Kept`, `Drawn`: trees that are read into contents, and contents that are read from
    trees;
  * `decodeItems_ok`, `decodeArray_ok`, `decodeObject_ok`: what the loops of the decoder
    keep, and where it comes from;
  * `findTag_ok`, `firstTag_ok`: the tag of a node, and the depth of what is read with it;
  * `Bounded`: a bound for the depth of a tree, or for what its source lets in;
  * `decode_opened`: all of this for one step of the decoder.
-/
import TreeDoc.Proofs.Constructs
import TreeDoc.Proofs.Expectations

namespace TreeDoc.Decode

open Json Program

/-! ## Loops that succeed -/

/-- The tree is read as a shape, and what is read is among the contents. -/
def Kept (src : Source) (t : Tree) (s : Shape) (cs : List Content) : Prop :=
  ∃ b, decode src t s = .ok b ∧ ⟨s, b⟩ ∈ cs

/-- Each of the contents is read from one of the trees or stands for something missing. -/
def Drawn (src : Source) (ts : List Tree) (cs : List Content) : Prop :=
  ∀ c ∈ cs, c.1.absent = some c.2 ∨ ∃ t ∈ ts, decode src t c.1 = .ok c.2

section
variable {src : Source} {t : Tree} {ts us : List Tree} {s : Shape} {cs ds : List Content}

theorem Kept.mono (h : Kept src t s cs) (hsub : cs ⊆ ds) : Kept src t s ds :=
  h.imp fun _ hb => ⟨hb.1, hsub hb.2⟩

theorem Drawn.mono (h : Drawn src ts cs) (hsub : ts ⊆ us) : Drawn src us cs := fun c hc =>
  (h c hc).imp id fun ⟨t, ht, hread⟩ => ⟨t, hsub ht, hread⟩

theorem Drawn.append (h : Drawn src ts cs) (h' : Drawn src ts ds) : Drawn src ts (cs ++ ds) :=
  fun c hc => (List.mem_append.1 hc).elim (h c) (h' c)

end

section
variable {src : Source}

theorem drawn_nil {ts : List Tree} : Drawn src ts [] := List.forall_mem_nil _

theorem drawn_singleton {t : Tree} {s : Shape} {b : s.Carrier} (h : decode src t s = .ok b) :
    Drawn src [t] [⟨s, b⟩] := by
  intro c hc
  obtain rfl := List.mem_singleton.1 hc
  exact .inr ⟨t, List.mem_singleton_self t, h⟩

/-- A list is read item by item. -/
theorem decodeItems_ok {s : Shape} : ∀ {items : Items} {i : Nat} {as : List s.Carrier},
    decodeItems src s i items = .ok as →
      (∀ t ∈ items.trees, Kept src t s (as.map fun a => ⟨s, a⟩)) ∧
      Drawn src items.trees (as.map fun a => ⟨s, a⟩)
  | .close _, _, _, h => by
    cases h
    exact ⟨List.forall_mem_nil _, drawn_nil⟩
  | .item _ t rest, i, as, h => by
    rw [decodeItems] at h
    obtain ⟨b, hb, h⟩ := bind_eq_ok.1 h
    obtain ⟨bs, hbs, h⟩ := bind_eq_ok.1 h
    cases h
    have hb := mapError_eq_ok.1 hb
    obtain ⟨hkept, hdrawn⟩ := decodeItems_ok hbs
    refine ⟨List.forall_mem_cons.2 ⟨⟨b, hb, List.mem_cons_self⟩, fun u hu => ?_⟩, ?_⟩
    · exact (hkept u hu).mono (List.subset_cons_self _ _)
    · exact ((drawn_singleton hb).mono (List.cons_subset_cons _ (List.nil_subset _))).append
        (hdrawn.mono (List.subset_cons_self _ _))
  | .finished _, _, _, h | .stray _, _, _, h | .dangling _, _, _, h | .cut _, _, _, h => by
    cases h

/-- A field is read from its tree, unless a null stands for a missing one. -/
theorem decodeWith_ok {f : Field} {t : Tree} {a : f.Carrier}
    (h : f.decodeWith (isNull t) (decode src t) = .ok a) :
    (∀ s, f.expects t = some s → Kept src t s (f.contents a)) ∧ Drawn src [t] (f.contents a) := by
  cases f with
  | required k s | defaulted k s =>
    refine ⟨fun s' hs' => ?_, drawn_singleton h⟩
    cases hs'
    exact ⟨a, h, List.mem_singleton_self _⟩
  | optional k s =>
    rw [Field.decodeWith] at h
    split at h
    · rename_i hnull
      cases h
      refine ⟨fun s' hs' => ?_, drawn_nil⟩
      rw [Field.expects, if_pos hnull] at hs'
      cases hs'
    · rename_i hnull
      obtain ⟨b, hb, rfl⟩ := map_eq_ok.1 h
      refine ⟨fun s' hs' => ?_, drawn_singleton hb⟩
      rw [Field.expects, if_neg hnull] at hs'
      cases hs'
      exact ⟨b, hb, List.mem_singleton_self _⟩

/-- A missing field is made of nothing, or of what stands for a missing value. -/
theorem contents_absent {f : Field} {a : f.Carrier} (h : f.absent = some a) :
    ∀ c ∈ f.contents a, c.1.absent = some c.2 := by
  cases f with
  | required k s => cases h
  | defaulted k s =>
    intro c hc
    obtain rfl := List.mem_singleton.1 hc
    exact h
  | optional k s =>
    cases h
    exact List.forall_mem_nil _

theorem contents_valuesAbsent : ∀ {fs : List Field} {count : Nat} {vs : Values fs},
    Values.absent count fs = .ok vs → ∀ c ∈ Values.contents fs vs, c.1.absent = some c.2
  | [], _, _, _ => List.forall_mem_nil _
  | f :: fs, count, vs, h => by
    rw [Values.absent] at h
    split at h
    · cases h
    · rename_i a ha
      obtain ⟨as, has, rfl⟩ := map_eq_ok.1 h
      exact fun c hc => (List.mem_append.1 hc).elim (contents_absent ha c)
        (contents_valuesAbsent has c)

/-- A structure is read from an array field by field. -/
theorem decodeArray_item_ok {expected : String} {f : Field} {fs : List Field} {count p : Nat}
    {t : Tree} {rest : Items} {vs : Values (f :: fs)}
    (h : decodeArray src expected (f :: fs) count (.item p t rest) = .ok vs) :
    f.decodeWith (isNull t) (decode src t) = .ok vs.1 ∧
      decodeArray src expected fs (count + 1) rest = .ok vs.2 := by
  rw [decodeArray] at h
  obtain ⟨a, ha, h⟩ := bind_eq_ok.1 h
  obtain ⟨as, has, h⟩ := bind_eq_ok.1 h
  cases h
  exact ⟨mapError_eq_ok.1 ha, has⟩

theorem decodeArray_ok {expected : String} : ∀ {items : Items} {fs : List Field} {count : Nat}
    {vs : Values fs}, decodeArray src expected fs count items = .ok vs →
    (∀ {j : Nat} {f : Field} {s : Shape} {t : Tree}, fs[j]? = some f →
      items.trees[j]? = some t → f.expects t = some s → Kept src t s (Values.contents fs vs)) ∧
    Drawn src items.trees (Values.contents fs vs)
  | _, [], _, _, _ => ⟨fun hf => absurd hf (by simp), drawn_nil⟩
  | .item p t rest, f :: fs, count, vs, h => by
    obtain ⟨hfirst, hrest⟩ := decodeArray_item_ok h
    obtain ⟨hkept, hdrawn⟩ := decodeWith_ok hfirst
    obtain ⟨hkepts, hdrawns⟩ := decodeArray_ok hrest
    refine ⟨fun {j f' s t'} hf' ht' hs => ?_, ?_⟩
    · cases j with
      | zero =>
        cases hf'
        cases ht'
        exact (hkept s hs).mono (List.subset_append_left _ _)
      | succ j => exact (hkepts hf' ht' hs).mono (List.subset_append_right _ _)
    · exact (hdrawn.mono (List.cons_subset_cons _ (List.nil_subset _))).append
        (hdrawns.mono (List.subset_cons_self _ _))
  | .close p, f :: fs, count, vs, h => by
    simp only [decodeArray, shortfall] at h
    split at h
    · rename_i hvs
      cases h
      exact ⟨fun _ ht => absurd ht (by simp [Items.trees]),
        fun c hc => .inl (contents_valuesAbsent hvs c hc)⟩
    · cases h
  | .finished _, _ :: _, _, _, h | .stray _, _ :: _, _, _, h | .dangling _, _ :: _, _, _, h
  | .cut _, _ :: _, _, _, h => by cases h

/-- An entry that is no field changes nothing. Any other is read, and its field has no value
    before. -/
theorem put_ok {ε : Type} {key : String} {dup : ε} {read : (f : Field) → Except ε f.Carrier} :
    ∀ {fs : List Field} {slots : Slots fs} {put : Option (Slots fs)},
      Slots.put key dup read fs slots = .ok put →
        fs.find? (·.key = key) = none ∧ put = none ∨
        ∃ f a slots', fs.find? (·.key = key) = some f ∧ read f = .ok a ∧ put = some slots' ∧
          ∀ c, c ∈ Slots.contents fs slots' ↔ c ∈ Slots.contents fs slots ∨ c ∈ f.contents a
  | [], _, _, h => by
    cases h
    exact .inl ⟨rfl, rfl⟩
  | f :: fs, (slot, slots), put, h => by
    unfold Slots.put at h
    by_cases hkey : f.key = key
    · rw [if_pos hkey] at h
      cases slot with
      | some a => cases h
      | none =>
        obtain ⟨a, ha, rfl⟩ := map_eq_ok.1 h
        refine .inr ⟨f, a, _, by simp [hkey], ha, rfl, fun c => ?_⟩
        simp [Slots.contents, or_comm]
    · rw [if_neg hkey] at h
      rw [List.find?_cons_of_neg (by simpa using hkey)]
      obtain ⟨r, hr, rfl⟩ := map_eq_ok.1 h
      obtain ⟨hnone, rfl⟩ | ⟨f', a, slots', hf', ha, rfl, hmem⟩ := put_ok hr
      · exact .inl ⟨hnone, rfl⟩
      · refine .inr ⟨f', a, _, hf', ha, rfl, fun c => ?_⟩
        simp [Slots.contents, hmem, or_assoc]

/-- At the end of an object the values that are found are kept, and what is added stands
    for missing values. -/
theorem finish_ok : ∀ {fs : List Field} {slots : Slots fs} {vs : Values fs},
    Slots.finish fs slots = .ok vs → Slots.contents fs slots ⊆ Values.contents fs vs ∧
      ∀ c ∈ Values.contents fs vs, c ∈ Slots.contents fs slots ∨ c.1.absent = some c.2
  | [], _, _, _ => ⟨fun _ h => h, List.forall_mem_nil _⟩
  | f :: fs, (slot, slots), vs, h => by
    rw [Slots.finish] at h
    split at h
    · cases h
    · rename_i a ha
      obtain ⟨as, has, rfl⟩ := map_eq_ok.1 h
      obtain ⟨hsub, hadded⟩ := finish_ok has
      have hfirst : slot.toList.flatMap f.contents ⊆ f.contents a ∧
          ∀ c ∈ f.contents a, c ∈ slot.toList.flatMap f.contents ∨ c.1.absent = some c.2 := by
        cases slot with
        | some b =>
          cases ha
          rw [Option.toList_some, List.flatMap_singleton]
          exact ⟨List.Subset.refl _, fun c hc => .inl hc⟩
        | none => exact ⟨List.nil_subset _, fun c hc => .inr (contents_absent ha c hc)⟩
      refine ⟨List.append_subset.2 ⟨fun c hc => List.mem_append_left _ (hfirst.1 hc),
        fun c hc => List.mem_append_right _ (hsub hc)⟩, fun c hc => ?_⟩
      rcases List.mem_append.1 hc with hc | hc
      · exact (hfirst.2 c hc).imp (List.mem_append_left _) id
      · exact (hadded c hc).imp (List.mem_append_right _) id

@[simp] theorem contents_empty : ∀ fs : List Field, Slots.contents fs (Slots.empty fs) = []
  | [] => rfl
  | f :: fs => by
    rw [Slots.empty, Slots.contents, contents_empty fs]
    rfl

theorem decodeObject_ok {fs : List Field} : ∀ {entries : Entries} {slots : Slots fs}
    {vs : Values fs}, decodeObject src fs slots entries = .ok vs →
    (∀ {k : String} {t : Tree} {f : Field} {s : Shape}, (k, t) ∈ entries.pairs →
      fs.find? (·.key = k) = some f → f.expects t = some s →
        Kept src t s (Values.contents fs vs)) ∧
    Slots.contents fs slots ⊆ Values.contents fs vs ∧
    ∀ {ts : List Tree}, entries.pairs.map Prod.snd ⊆ ts → Drawn src ts (Slots.contents fs slots) →
      Drawn src ts (Values.contents fs vs)
  | .close p, slots, vs, h => by
    simp only [decodeObject] at h
    split at h
    · rename_i hvs
      cases h
      obtain ⟨hsub, hadded⟩ := finish_ok hvs
      exact ⟨fun hpair => absurd hpair List.not_mem_nil, hsub,
        fun _ hdrawn c hc => (hadded c hc).elim (hdrawn c) .inl⟩
    · cases h
  | .entry p (.ok k) colon t rest, slots, vs, h => by
    simp only [decodeObject] at h
    obtain ⟨put, hput, h⟩ := bind_eq_ok.1 h
    obtain ⟨hnone, rfl⟩ | ⟨f, a, slots', hf, ha, rfl, hmem⟩ := put_ok hput
    · -- the entry is no field
      have hrest : decodeObject src fs slots rest = .ok vs := by
        simp only at h
        split at h
        · cases h
        · exact h
      obtain ⟨hkept, hsub, hdrawn⟩ := decodeObject_ok hrest
      refine ⟨fun {k' t' f' s} hpair hf' hs => ?_, hsub,
        fun hts => hdrawn (List.Subset.trans (List.subset_cons_self _ _) hts)⟩
      rcases List.mem_cons.1 hpair with heq | hpair
      · cases heq
        rw [hnone] at hf'
        cases hf'
      · exact hkept hpair hf' hs
    · obtain ⟨hkept, hsub, hdrawn⟩ := decodeObject_ok h
      obtain ⟨hfield, hread⟩ := decodeWith_ok (mapError_eq_ok.1 ha)
      refine ⟨fun {k' t' f' s} hpair hf' hs => ?_, fun c hc => hsub ((hmem c).2 (.inl hc)),
        fun {ts} hts hslots => ?_⟩
      · rcases List.mem_cons.1 hpair with heq | hpair
        · cases heq
          cases hf.symm.trans hf'
          exact (hfield s hs).mono fun c hc => hsub ((hmem c).2 (.inr hc))
        · exact hkept hpair hf' hs
      · refine hdrawn (List.Subset.trans (List.subset_cons_self _ _) hts) fun c hc => ?_
        refine ((hmem c).1 hc).elim (hslots c) fun hc => hread.mono (fun u hu => ?_) c hc
        obtain rfl := List.mem_singleton.1 hu
        exact hts List.mem_cons_self
  | .entry _ (.error _) _ _ _, _, _, h | .finished _, _, _, h | .stray _, _, _, h
  | .dangling _ _, _, _, h | .cut _ _, _, _, h | .keyless _ _, _, _, h | .brokenKey _ _ _, _, _, h
  | .colonless _ (.error _) _ _, _, _, h => by cases h
  | .colonless _ (.ok _) _ _, _, _, h => by
    simp only [decodeObject] at h
    obtain ⟨_, -, h⟩ := bind_eq_ok.1 h
    cases h

/-! ## Tags that are found -/

theorem depth_of_decodeTag {tags : List String} {t : Tree} {i : Nat}
    (h : decodeTag src tags t = .ok i) : t.depth = 0 := by
  unfold decodeTag at h
  split at h
  · rw [Tree.depth]
  · rw [Tree.depth]
  · cases h

theorem depth_of_readPart {n : Nat} {t : Tree} (h : readPart (.text n) t = .ok ()) :
    t.depth ≤ n := by
  rw [readPart] at h
  obtain ⟨v, hv, -⟩ := map_eq_ok.1 h
  obtain ⟨ht, hdepth⟩ := denotes_of_read hv
  rwa [depth_of_denotes ht]

/-- The tag of an object is found under its key. All else has been read before the object
    is left, so in a text nothing in it is too deep. -/
theorem findTag_ok {tags : List String} : ∀ {entries : Entries} {seen : Option Nat} {i : Nat},
    findTag src tags seen entries = .ok i →
      (seen = some i ∨ seen = none ∧ ∃ t, Assoc.get? tagKey entries.pairs = some t ∧
        decodeTag src tags t = .ok i) ∧ ∀ n, src = .text n → entries.depth ≤ n
  | .close p, seen, i, h => by
    simp only [findTag] at h
    split at h
    · cases h
      exact ⟨.inl rfl, fun _ _ => by simp [Entries.depth]⟩
    · cases h
  | .entry p (.ok k) colon t rest, seen, i, h => by
    simp only [findTag] at h
    rw [Entries.pairs, Entries.depth]
    split at h
    · rename_i hk
      subst hk
      split at h
      · cases h
      · obtain ⟨j, hj, h⟩ := bind_eq_ok.1 h
        have hj := mapError_eq_ok.1 hj
        obtain ⟨hfound | ⟨hseen, -⟩, hdepth⟩ := findTag_ok h
        · cases hfound
          refine ⟨.inr ⟨rfl, t, Assoc.get?_cons_self _ _ _, hj⟩, fun n hn => ?_⟩
          rw [depth_of_decodeTag hj, Nat.zero_max]
          exact hdepth n hn
        · cases hseen
    · rename_i hk
      obtain ⟨_, hpart, h⟩ := bind_eq_ok.1 h
      obtain ⟨hfound, hdepth⟩ := findTag_ok h
      rw [Assoc.get?_cons_other hk]
      refine ⟨hfound, fun n hn => Nat.max_le.2 ⟨?_, hdepth n hn⟩⟩
      subst hn
      exact depth_of_readPart (mapError_eq_ok.1 hpart)
  | .entry _ (.error _) _ _ _, _, _, h | .finished _, _, _, h | .stray _, _, _, h
  | .dangling _ _, _, _, h | .cut _ _, _, _, h | .keyless _ _, _, _, h | .brokenKey _ _ _, _, _, h
  | .colonless _ (.error _) _ _, _, _, h => by cases h
  | .colonless _ (.ok _) _ _, _, _, h => by
    simp only [findTag] at h
    split at h <;> cases h

theorem firstTag_ok {tags : List String} {p : Nat} {t : Tree} {rest : Items} {r : Nat × Items}
    (h : firstTag src tags (.item p t rest) = .ok r) :
    decodeTag src tags t = .ok r.1 ∧ ∀ n, src = .text n → rest.depth ≤ n := by
  rw [firstTag] at h
  obtain ⟨i, hi, h⟩ := bind_eq_ok.1 h
  have hi := mapError_eq_ok.1 hi
  cases src with
  | text n =>
    obtain ⟨vs, hvs, h⟩ := bind_eq_ok.1 h
    cases h
    obtain ⟨hitems, hdepth⟩ := denotes_of_readItems hvs
    refine ⟨hi, fun m hm => ?_⟩
    cases hm
    rwa [itemsDepth_of_denotes hitems]
  | value | buffered =>
    cases h
    exact ⟨hi, fun _ hn => by cases hn⟩

section
variable {α : Type} {variants : List (Variant α)}

/-- The variant that is found is the one that the tag names. -/
theorem named?_of_tag {t : Tree} {u : Value} {i : Nat}
    (h : decodeTag src (variants.map Variant.tag) t = .ok i) (hu : Denotes t u) :
    Variant.named? variants u = variants[i]? := by
  have hvalue : decodeTag src (variants.map Variant.tag) (Tree.ofValue u) = .ok i := by
    cases hu with
    | string =>
      rw [Tree.ofValue]
      unfold decodeTag at h ⊢
      simp only at h ⊢
      split at h
      · cases h; rfl
      · cases h
    | @number n =>
      rw [Tree.ofValue]
      unfold decodeTag at h ⊢
      cases n with
      | int n =>
        simp only at h ⊢
        split at h
        · split at h
          · rename_i hn hlt
            rw [if_pos hn, if_pos hlt, h]
          · cases h
        · cases h
      | float x => cases h
    | null | bool | array _ | object _ => cases h
  exact named?_of_decodeTag (toOption_eq_some.2 hvalue)

/-- A node is read from an object as the variant that its tag names. -/
theorem ofObject_ok {entries : Entries} {a : α}
    (h : Variant.ofObject variants src entries = .ok a) :
    ∃ w ∈ variants, ∃ (vs : Values w.layout.fields) (tag : Tree), a = w.layout.build vs ∧
      decodeObject .buffered w.layout.fields (Slots.empty _) entries = .ok vs ∧
      Assoc.get? tagKey entries.pairs = some tag ∧
      (∀ u, Denotes tag u → Variant.named? variants u = some w) ∧
      ∀ n, src = .text n → entries.depth ≤ n := by
  obtain ⟨i, hi, h⟩ := bind_eq_ok.1 h
  obtain ⟨hfound | ⟨-, tag, htag, hi⟩, hdepth⟩ := findTag_ok hi
  · cases hfound
  · cases hw : variants[i]? with
    | none =>
      rw [hw] at h
      cases h
    | some w =>
      rw [hw] at h
      obtain ⟨vs, hvs, rfl⟩ := map_eq_ok.1 h
      exact ⟨w, List.mem_of_getElem? hw, vs, tag, rfl, hvs, htag,
        fun u hu => (named?_of_tag hi hu).trans hw, hdepth⟩

/-- A node is read from an array as the variant that its first element names. -/
theorem ofArray_ok {items : Items} {a : α} (h : Variant.ofArray variants src items = .ok a) :
    ∃ p tag rest, items = .item p tag rest ∧ ∃ w ∈ variants, ∃ vs : Values w.layout.fields,
      a = w.layout.build vs ∧
      decodeArray .buffered w.layout.elements w.layout.fields 0 rest = .ok vs ∧
      (∀ u, Denotes tag u → Variant.named? variants u = some w) ∧
      ∀ n, src = .text n → rest.depth ≤ n := by
  cases items with
  | item p tag rest =>
    obtain ⟨r, hr, h⟩ := bind_eq_ok.1 h
    obtain ⟨hi, hdepth⟩ := firstTag_ok hr
    cases hw : variants[r.1]? with
    | none =>
      simp only [hw] at h
      cases h
    | some w =>
      simp only [hw] at h
      obtain ⟨vs, hvs, rfl⟩ := map_eq_ok.1 h
      exact ⟨p, tag, rest, rfl, w, List.mem_of_getElem? hw, vs, rfl, hvs,
        fun u hu => (named?_of_tag hi hu).trans hw, hdepth⟩
  | close | finished | stray | dangling | cut =>
    obtain ⟨_, -, h⟩ := bind_eq_ok.1 h
    cases h

end

end

/-! ## Trees that are read -/

/-- No more than `n` arrays and objects of the tree stand inside one another, or its source
    lets no more in. -/
def Bounded (src : Source) (t : Tree) (n : Nat) : Prop := t.depth ≤ n ∨ src = .text n

/-- **What has been read** of a tree: what the value is made of is read from parts of the
    tree, and every part that is expected is among it. -/
structure Opened (src : Source) (t : Tree) (s : Shape) (a : s.Carrier) (src' : Source)
    (cs : List Content) : Prop where
  made : Made s a cs
  kept {step : Step} {s' : Shape} {u : Tree} : Part s t step (.shape s') u → Kept src' u s' cs
  drawn : ∃ us, Drawn src' us cs ∧
    ∀ n, Bounded src t n → ∃ m, n = m + 1 ∧ ∀ u ∈ us, Bounded src' u m

/-- The shape is that of something that has parts of its own. -/
def Shape.isComposite : Shape → Bool
  | .record _ | .stmt | .expr | .list _ => true
  | _ => false

section
variable {src src' : Source} {p : Nat}

/-- What stands in an array or object is bounded by one less. -/
theorem Bounded.parts {t : Tree} {n : Nat} {us : List Tree} (h : Bounded src t n)
    (henter : src.enter p = .ok src') (ht : 0 < t.depth) (hus : ∀ u ∈ us, u.depth < t.depth) :
    ∃ m, n = m + 1 ∧ ∀ u ∈ us, Bounded src' u m := by
  rcases h with h | rfl
  · exact ⟨n - 1, by omega, fun u hu => .inl (by have := hus u hu; omega)⟩
  · cases n with
    | zero => cases henter
    | succ m =>
      cases henter
      exact ⟨m, rfl, fun u _ => .inr rfl⟩

/-- So it is in a node, if it has been read before the node is left. -/
theorem Bounded.buffered {t : Tree} {n : Nat} {us : List Tree} (h : Bounded src t n)
    (henter : src.enter p = .ok src') (ht : 0 < t.depth) (hus : ∀ u ∈ us, u.depth < t.depth)
    (hread : ∀ u ∈ us, ∀ m, src' = .text m → u.depth ≤ m) :
    ∃ m, n = m + 1 ∧ ∀ u ∈ us, Bounded .buffered u m := by
  obtain ⟨m, hm, hparts⟩ := h.parts henter ht hus
  exact ⟨m, hm, fun u hu => .inl ((hparts u hu).elim id (hread u hu m))⟩

theorem items_depth_lt {items : Items} : ∀ t ∈ items.trees, t.depth < (Tree.array p items).depth :=
  fun _ ht => Nat.lt_succ_of_le (depth_le_of_mem_trees ht)

theorem opened_list {s : Shape} {items : Items} {as : List s.Carrier}
    (henter : src.enter p = .ok src') (h : decodeItems src' s 0 items = .ok as) :
    Opened src (.array p items) (.list s) as src' (as.map fun a => ⟨s, a⟩) where
  made := .list as
  kept hpart := by
    cases hpart with
    | item ht => exact (decodeItems_ok h).1 _ (List.mem_of_getElem? ht)
    | nodeElement _ hfields => cases hfields
  drawn := ⟨items.trees, (decodeItems_ok h).2, fun _ hn =>
    hn.parts henter (Nat.succ_pos _) items_depth_lt⟩

theorem opened_recordArray {r : Record} {items : Items} {vs : Values r.layout.fields}
    {expected : String} (henter : src.enter p = .ok src')
    (h : decodeArray src' expected r.layout.fields 0 items = .ok vs) :
    Opened src (.array p items) (.record r) (r.layout.build vs) src' (Values.contents _ vs) where
  made := .record vs
  kept hpart := by
    cases hpart with
    | element hf ht hs => exact (decodeArray_ok h).1 hf ht hs
    | nodeElement _ hfields => cases hfields
  drawn := ⟨items.trees, (decodeArray_ok h).2, fun _ hn =>
    hn.parts henter (Nat.succ_pos _) items_depth_lt⟩

/-- The trees that an object is read from. -/
theorem decodeObject_drawn {fs : List Field} {entries : Entries} {vs : Values fs}
    (h : decodeObject src' fs (Slots.empty _) entries = .ok vs) :
    Drawn src' (entries.pairs.map Prod.snd) (Values.contents fs vs) :=
  (decodeObject_ok h).2.2 (List.Subset.refl _) (by rw [contents_empty]; exact drawn_nil)

theorem entries_depth_le {entries : Entries} : ∀ t ∈ entries.pairs.map Prod.snd,
    t.depth ≤ entries.depth := by
  intro t ht
  obtain ⟨x, hx, rfl⟩ := List.mem_map.1 ht
  exact depth_le_of_mem_pairs hx

theorem opened_recordObject {r : Record} {entries : Entries} {vs : Values r.layout.fields}
    (henter : src.enter p = .ok src')
    (h : decodeObject src' r.layout.fields (Slots.empty _) entries = .ok vs) :
    Opened src (.object p entries) (.record r) (r.layout.build vs) src' (Values.contents _ vs) where
  made := .record vs
  kept hpart := by
    cases hpart with
    | entry hf ht hs => exact (decodeObject_ok h).1 (Assoc.mem_of_get? ht) hf hs
    | nodeEntry _ _ hfields => cases hfields
  drawn := ⟨entries.pairs.map Prod.snd, decodeObject_drawn h, fun _ hn =>
    hn.parts henter (Nat.succ_pos _) fun t ht => Nat.lt_succ_of_le (entries_depth_le t ht)⟩

section
variable {s : Shape} {variants : List (Variant s.Carrier)} {a : s.Carrier}

/-- The shape is that of the nodes with these variants. -/
structure NodeShape (s : Shape) (variants : List (Variant s.Carrier)) : Prop where
  tagged : s.tags.isSome = true
  fields (u : Value) : s.nodeFields u = (Variant.named? variants u).map (·.layout.fields)
  made : ∀ w ∈ variants, ∀ vs : Values w.layout.fields,
    Made s (w.layout.build vs) (Values.contents _ vs)

theorem NodeFamily.nodeShape (n : NodeFamily) : NodeShape n.shape n.variants where
  tagged := by rw [n.tags]; rfl
  fields := n.nodeFields
  made := by
    cases n with
    | expr => exact fun _ => .expr
    | stmt => exact fun _ => .stmt

theorem opened_nodeObject (hs : NodeShape s variants) {entries : Entries}
    (henter : src.enter p = .ok src') (h : Variant.ofObject variants src' entries = .ok a) :
    ∃ cs, Opened src (.object p entries) s a .buffered cs := by
  obtain ⟨w, hw, vs, tag, rfl, hvs, htag, hnamed, hdepth⟩ := ofObject_ok h
  refine ⟨_, hs.made w hw vs, fun hpart => ?_, entries.pairs.map Prod.snd, decodeObject_drawn hvs,
    fun n hn => ?_⟩
  · cases hpart with
    | attr | entry => cases hs.tagged
    | nodeEntry htag' hu hfields hf ht hexpects =>
      cases htag.symm.trans htag'
      rw [hs.fields, hnamed _ hu] at hfields
      cases hfields
      exact (decodeObject_ok hvs).1 (Assoc.mem_of_get? ht) hf hexpects
  · exact hn.buffered henter (Nat.succ_pos _)
      (fun t ht => Nat.lt_succ_of_le (entries_depth_le t ht))
      fun t ht m hm => Nat.le_trans (entries_depth_le t ht) (hdepth m hm)

theorem opened_nodeArray (hs : NodeShape s variants) {items : Items}
    (henter : src.enter p = .ok src') (h : Variant.ofArray variants src' items = .ok a) :
    ∃ cs, Opened src (.array p items) s a .buffered cs := by
  obtain ⟨q, tag, rest, rfl, w, hw, vs, rfl, hvs, hnamed, hdepth⟩ := ofArray_ok h
  refine ⟨_, hs.made w hw vs, fun hpart => ?_, rest.trees, (decodeArray_ok hvs).2,
    fun n hn => ?_⟩
  · cases hpart with
    | item | element => cases hs.tagged
    | nodeElement hu hfields hf ht hexpects =>
      rw [hs.fields, hnamed _ hu] at hfields
      cases hfields
      exact (decodeArray_ok hvs).1 hf ht hexpects
  · refine hn.buffered henter (Nat.succ_pos _) (fun t ht => items_depth_lt t ?_)
      fun t ht m hm => Nat.le_trans (depth_le_of_mem_trees ht) (hdepth m hm)
    exact List.mem_cons_of_mem _ ht

end

theorem opened_node (n : NodeFamily) {t : Tree} {a : n.shape.Carrier}
    (h : decode src t n.shape = .ok a) : ∃ cs, Opened src t n.shape a .buffered cs := by
  rw [n.decode_eq] at h
  cases t with
  | array p items =>
    obtain ⟨src', henter, h⟩ := bind_eq_ok.1 h
    exact opened_nodeArray n.nodeShape henter h
  | object p entries =>
    obtain ⟨src', henter, h⟩ := bind_eq_ok.1 h
    exact opened_nodeObject n.nodeShape henter h
  | _ => cases h

/-- **Reading opens a tree.** If a list, structure or node is read from a tree, then what it
    is made of is read from the parts of the tree. -/
theorem decode_opened {t : Tree} {s : Shape} (hs : s.isComposite = true) {a : s.Carrier}
    (h : decode src t s = .ok a) : ∃ src' cs, Opened src t s a src' cs := by
  cases s with
  | text | flag | position | offset | attributes | literal | choice c => cases hs
  | list s =>
    cases t with
    | array p items =>
      simp only [decode] at h
      obtain ⟨src', henter, h⟩ := bind_eq_ok.1 h
      exact ⟨src', _, opened_list henter h⟩
    | _ => simp only [decode] at h; cases h
  | record r =>
    cases t with
    | array p items =>
      simp only [decode] at h
      obtain ⟨src', henter, h⟩ := bind_eq_ok.1 h
      obtain ⟨vs, hvs, rfl⟩ := map_eq_ok.1 h
      exact ⟨src', _, opened_recordArray henter hvs⟩
    | object p entries =>
      simp only [decode] at h
      obtain ⟨src', henter, h⟩ := bind_eq_ok.1 h
      obtain ⟨vs, hvs, rfl⟩ := map_eq_ok.1 h
      exact ⟨src', _, opened_recordObject henter hvs⟩
    | _ => simp only [decode] at h; cases h
  | expr => exact ⟨.buffered, opened_node .expr h⟩
  | stmt => exact ⟨.buffered, opened_node .stmt h⟩

end

end TreeDoc.Decode
