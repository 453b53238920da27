/-
  Keyed lists and objects, with and without repeated keys.

  * `Assoc.keys_merge`, `Assoc.get?_merge`: a list in which keys are repeated keeps
    the first place and the last value of each;
  * `Assoc.get?_of_mem`, `Assoc.merge_eq_self`: in a list that repeats no key every
    entry is found, and merging changes nothing;
  * `Value.distinct`: no object in the value repeats a key;
  * `Value.merged_eq_self`: such a value is merged already;
  * `Value.same_self`: and is the same as itself.
-/
import TreeDoc.Proofs.JsonWriter

namespace TreeDoc.Assoc

variable {α : Type}

/-! ## Lookup -/

theorem get?_cons_self (k : String) (a : α) (es : List (String × α)) :
    get? k ((k, a) :: es) = some a := by rw [get?, if_pos rfl]

theorem get?_cons_other {k l : String} (h : l ≠ k) (a : α) (es : List (String × α)) :
    get? k ((l, a) :: es) = get? k es := by rw [get?, if_neg h]

/-- If two lists have the same keys and none twice, then looking up the entries
    of one in the other compares them one by one. -/
theorem all_get?_iff {as bs : List (String × α)} (hkeys : as.map Prod.fst = bs.map Prod.fst)
    (hnodup : (as.map Prod.fst).Nodup) :
    (∀ e ∈ as, get? e.1 bs = some e.2) ↔ as = bs := by
  induction as generalizing bs with
  | nil => simpa using hkeys
  | cons e as ih =>
    obtain ⟨k, a⟩ := e
    cases bs with
    | nil => cases hkeys
    | cons e' bs =>
      obtain ⟨k', b⟩ := e'
      obtain ⟨hkk', htail⟩ := List.cons.inj hkeys
      obtain rfl : k = k' := hkk'
      obtain ⟨hk, hnodup⟩ := List.nodup_cons.1 hnodup
      -- the keys of the other entries are not `k`
      have hrest : (∀ e ∈ as, get? e.1 ((k, b) :: bs) = some e.2) ↔ as = bs := by
        rw [← ih htail hnodup]
        refine forall₂_congr fun e he => ?_
        have hmem : e.1 ∈ as.map Prod.fst := List.mem_map_of_mem he
        rw [get?_cons_other (ne_of_mem_of_not_mem hmem hk).symm]
      rw [List.forall_mem_cons, get?_cons_self, hrest, List.cons.injEq, Prod.mk.injEq,
        Option.some.injEq, eq_self, true_and, eq_comm]

theorem mem_of_get? {k : String} {a : α} {es : List (String × α)} (h : get? k es = some a) :
    (k, a) ∈ es := by
  induction es with
  | nil => cases h
  | cons e es ih =>
    obtain ⟨l, b⟩ := e
    by_cases hl : l = k
    · subst hl
      rw [get?_cons_self, Option.some.injEq] at h
      exact h ▸ List.mem_cons_self
    · rw [get?_cons_other hl] at h
      exact List.mem_cons_of_mem _ (ih h)

theorem get?_of_mem {k : String} {a : α} {es : List (String × α)} (hnodup : (es.map Prod.fst).Nodup)
    (h : (k, a) ∈ es) : get? k es = some a := (all_get?_iff rfl hnodup).2 rfl (k, a) h

/-! ## Repeated keys -/

theorem keys_insert (key : String) (value : α) (es : List (String × α)) :
    (insert key value es).map Prod.fst =
      es.map Prod.fst ++ if key ∈ es.map Prod.fst then [] else [key] := by
  induction es with
  | nil => simp [insert]
  | cons e es ih =>
    obtain ⟨k, v⟩ := e
    rw [insert]
    by_cases h : k = key
    · simp [h]
    · have hmem : key ∈ k :: es.map Prod.fst ↔ key ∈ es.map Prod.fst := by simp [Ne.symm h]
      simp only [if_neg h, List.map_cons, List.cons_append, ih, hmem]

theorem get?_insert (key k : String) (value : α) (es : List (String × α)) :
    get? k (insert key value es) = if key = k then some value else get? k es := by
  induction es with
  | nil => simp [insert, get?]
  | cons e es ih =>
    obtain ⟨l, v⟩ := e
    rw [insert]
    by_cases h : l = key
    · by_cases hk : key = k <;> simp [get?, h, hk]
    · rw [if_neg h, get?, get?, ih]
      by_cases hl : l = k
      · rw [if_pos hl, if_neg (fun hk => h (hl.trans hk.symm)), if_pos hl]
      · rw [if_neg hl, if_neg hl]

theorem get?_append (k : String) (es fs : List (String × α)) :
    get? k (es ++ fs) = (get? k es <|> get? k fs) := by
  induction es with
  | nil => simp [get?]
  | cons e es ih =>
    rw [List.cons_append, get?, get?, ih]
    split <;> simp

theorem get?_map {β : Type} (g : α → β) (k : String) (es : List (String × α)) :
    get? k (es.map fun e => (e.1, g e.2)) = (get? k es).map g := by
  induction es with
  | nil => rfl
  | cons e es ih =>
    rw [List.map_cons, get?, get?, ih]
    split <;> rfl

theorem keys_insertAll (es start : List (String × α)) :
    (insertAll start es).map Prod.fst = start.map Prod.fst ++
      ((es.map Prod.fst).filter (· ∉ start.map Prod.fst)).eraseDups := by
  induction es generalizing start with
  | nil => simp [insertAll]
  | cons e es ih =>
    obtain ⟨k, v⟩ := e
    rw [insertAll, ih, keys_insert]
    by_cases h : k ∈ start.map Prod.fst
    · simp only [if_pos h, List.append_nil, List.map_cons]
      rw [List.filter_cons_of_neg (by simpa using h)]
    · have hfilter : (es.map Prod.fst).filter (· ∉ start.map Prod.fst ++ [k]) =
          (es.map Prod.fst).filter fun l => !l == k && decide (l ∉ start.map Prod.fst) := by
        refine List.filter_congr fun l _ => ?_
        rw [Bool.eq_iff_iff]
        grind
      simp only [if_neg h, List.map_cons, hfilter]
      rw [List.filter_cons_of_pos (by simpa using h), List.eraseDups_cons, List.filter_filter,
        List.append_assoc, List.singleton_append]

/-- Keys keep the place of their first entry. -/
theorem keys_merge (es : List (String × α)) :
    (merge es).map Prod.fst = (es.map Prod.fst).eraseDups := by
  rw [merge, keys_insertAll]
  simp

theorem get?_insertAll (k : String) (es start : List (String × α)) :
    get? k (insertAll start es) = (get? k es.reverse <|> get? k start) := by
  induction es generalizing start with
  | nil => simp [insertAll, get?]
  | cons e es ih =>
    obtain ⟨l, v⟩ := e
    rw [insertAll, ih, get?_insert, List.reverse_cons, get?_append]
    cases get? k es.reverse with
    | some a => rfl
    | none => by_cases h : l = k <;> simp [get?, h]

/-- Keys keep the value of their last entry. -/
theorem get?_merge (k : String) (es : List (String × α)) :
    get? k (merge es) = get? k es.reverse := by
  rw [merge, get?_insertAll]
  simp [get?]

/-! ## Distinct keys -/

theorem insert_new {key : String} (value : α) {es : List (String × α)}
    (h : key ∉ es.map Prod.fst) : insert key value es = es ++ [(key, value)] := by
  induction es with
  | nil => rfl
  | cons e es ih =>
    obtain ⟨k, v⟩ := e
    obtain ⟨hk, hes⟩ : key ≠ k ∧ key ∉ es.map Prod.fst := by simpa using h
    rw [insert, if_neg hk.symm, ih hes, List.cons_append]

theorem insertAll_eq_append {es start : List (String × α)}
    (h : ((start ++ es).map Prod.fst).Nodup) : insertAll start es = start ++ es := by
  induction es generalizing start with
  | nil => rw [insertAll, List.append_nil]
  | cons e es ih =>
    obtain ⟨k, v⟩ := e
    have hk : k ∉ start.map Prod.fst := fun hk => by
      rw [List.map_append, List.nodup_append] at h
      exact h.2.2 k hk k (by simp) rfl
    rw [insertAll, insert_new v hk, ih (by simpa using h), List.append_assoc, List.singleton_append]

theorem merge_eq_self {es : List (String × α)} (h : (es.map Prod.fst).Nodup) : merge es = es := by
  rw [merge, insertAll_eq_append (by simpa using h), List.nil_append]

end TreeDoc.Assoc

namespace TreeDoc.Json

theorem mergedItems_eq_map : ∀ vs : List Value, mergedItems vs = vs.map Value.merged
  | [] => by rw [mergedItems]; rfl
  | v :: vs => by rw [mergedItems, mergedItems_eq_map vs]; rfl

theorem mergedEntries_eq_map : ∀ es : List (String × Value),
    mergedEntries es = es.map fun e => (e.1, e.2.merged)
  | [] => by rw [mergedEntries]; rfl
  | (k, v) :: es => by rw [mergedEntries, mergedEntries_eq_map es]; rfl

/-! ## Values without repeated keys -/

mutual

/-- No object in the value repeats a key. -/
def Value.distinct : Value → Bool
  | .array items => distinctItems items
  | .object entries => (entries.map Prod.fst).Nodup && distinctEntries entries
  | _ => true

/-- No object in the items repeats a key. -/
def distinctItems : List Value → Bool
  | [] => true
  | v :: vs => v.distinct && distinctItems vs

/-- No object in the values of the entries repeats a key. -/
def distinctEntries : List (String × Value) → Bool
  | [] => true
  | (_, v) :: es => v.distinct && distinctEntries es

end

mutual

theorem Value.merged_eq_self : ∀ {v : Value}, v.distinct = true → v.merged = v
  | .array items, h => by
    rw [Value.distinct] at h
    rw [Value.merged, mergedItems_eq_self h]
  | .object entries, h => by
    rw [Value.distinct, Bool.and_eq_true, decide_eq_true_eq] at h
    rw [Value.merged, mergedEntries_eq_self h.2, Assoc.merge_eq_self h.1]
  | .null, _ | .bool _, _ | .number _, _ | .string _, _ => by rw [Value.merged] <;> simp

theorem mergedItems_eq_self : ∀ {vs : List Value}, distinctItems vs = true → mergedItems vs = vs
  | [], _ => by rw [mergedItems]
  | v :: vs, h => by
    rw [distinctItems, Bool.and_eq_true] at h
    rw [mergedItems, Value.merged_eq_self h.1, mergedItems_eq_self h.2]

theorem mergedEntries_eq_self : ∀ {es : List (String × Value)}, distinctEntries es = true →
    mergedEntries es = es
  | [], _ => by rw [mergedEntries]
  | (k, v) :: es, h => by
    rw [distinctEntries, Bool.and_eq_true] at h
    rw [mergedEntries, Value.merged_eq_self h.1, mergedEntries_eq_self h.2]

end

mutual

/-- Sameness is reflexive, as no object hides an entry behind one of the same key
    and no double is different from itself. -/
theorem Value.same_self : ∀ {v : Value}, v.distinct = true → v.integral = true → v.same v = true
  | .null, _, _ => by rw [Value.same]
  | .bool b, _, _ => by simp [Value.same]
  | .number n, _, h => by
    cases n with
    | int n => simp [Value.same, Number.same]
    | float x => simp [Value.integral, Number.integral] at h
  | .string s, _, _ => by simp [Value.same]
  | .array items, hd, hi => by
    rw [Value.distinct] at hd
    rw [Value.integral] at hi
    rw [Value.same, sameItems_self hd hi]
  | .object entries, hd, hi => by
    rw [Value.distinct, Bool.and_eq_true, decide_eq_true_eq] at hd
    rw [Value.integral] at hi
    have hfound : ∀ e ∈ entries, Assoc.get? e.1 entries = some e.2 :=
      fun e he => Assoc.get?_of_mem hd.1 he
    simp [Value.same, sameEntries_of_found hd.2 hi hfound]

theorem sameItems_self : ∀ {vs : List Value}, distinctItems vs = true → integralItems vs = true →
    sameItems vs vs = true
  | [], _, _ => by rw [sameItems]
  | v :: vs, hd, hi => by
    rw [distinctItems, Bool.and_eq_true] at hd
    rw [integralItems, Bool.and_eq_true] at hi
    rw [sameItems, Value.same_self hd.1 hi.1, sameItems_self hd.2 hi.2]
    rfl

theorem sameEntries_of_found : ∀ {es fs : List (String × Value)}, distinctEntries es = true →
    integralEntries es = true → (∀ e ∈ es, Assoc.get? e.1 fs = some e.2) → sameEntries es fs = true
  | [], _, _, _, _ => by rw [sameEntries]
  | (k, v) :: es, fs, hd, hi, h => by
    rw [distinctEntries, Bool.and_eq_true] at hd
    rw [integralEntries, Bool.and_eq_true] at hi
    obtain ⟨hv, hes⟩ := List.forall_mem_cons.1 h
    rw [sameEntries, hv, sameEntries_of_found hd.2 hi.2 hes]
    simp [Value.same_self hd.1 hi.1]

end

end TreeDoc.Json

