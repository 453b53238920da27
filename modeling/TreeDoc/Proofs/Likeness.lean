/-
  Values that say the same.

  The decoder looks entries of an object up by key. So the order of entries does not
  matter, entries with other keys do not either, and a field may be left out instead of
  being written with its default. Attributes of annotations are not looked up: they keep
  their order.

  * `Field.blank`: the default of a field, as it is written;
  * `Alike`: two values differ in these respects only, at all depths;
  * `decodeObject_toOption`: what is read from an object, field by field;
  * `decode_alike`: the same is read from values that are alike;
  * `decoding_ignores`: and so it is from texts.
-/
import TreeDoc.Model.Nodes
import TreeDoc.Proofs.Codes
import TreeDoc.Proofs.Pointers

namespace TreeDoc.Decode

open Json Program

/-! ## Defaults -/

/-- What is written for the default of this shape, if it has one. -/
def Shape.blank : Shape → Option Value
  | .text => some (.string "")
  | .flag => some (.bool false)
  | .position | .offset => some (.number (.int 0))
  | .attributes => some (.object [])
  | .choice .strategy => some (.string "structured-with-text")
  | .list _ => some (.array [])
  | .choice .binaryOp | .choice .unaryOp | .choice .storage | .literal | .record _ | .expr
  | .stmt => none

/-- What is written for the default of a field, if it has one. -/
def Field.blank : Field → Option Value
  | .required _ _ => none
  | .defaulted _ s => s.blank
  | .optional _ _ => some .null

/-- The shape of a field. -/
def Field.shape : Field → Shape
  | .required _ s | .defaulted _ s | .optional _ s => s

/-- What a field is read as from its value. -/
def Field.readFrom (src : Source) (v : Value) (f : Field) : Option f.Carrier :=
  (f.decodeWith (isNull (Tree.ofValue v)) fun s => decode src (Tree.ofValue v) s).toOption

theorem decode_blank {src : Source} (hsrc : src.Plain) {s : Shape} {v : Value}
    (h : s.blank = some v) : (decode src (Tree.ofValue v) s).toOption = s.absent := by
  cases s with
  | choice c =>
    cases c with
    | strategy =>
      cases h
      cases src with
      | text n => exact absurd rfl (hsrc n)
      | value | buffered => rfl
    | binaryOp | unaryOp | storage => cases h
  | literal | record | expr | stmt => cases h
  | attributes | list =>
    cases h
    simp only [Tree.ofValue, decode, hsrc.enter]
    rfl
  | text | flag | position | offset =>
    cases h
    simp only [Tree.ofValue, decode]
    rfl

/-- A field that is written with its default is read as if it was missing. -/
theorem readFrom_blank {src : Source} (hsrc : src.Plain) {f : Field} {v : Value}
    (h : f.blank = some v) : f.readFrom src v = f.absent := by
  cases f with
  | required k s => cases h
  | defaulted k s => exact decode_blank hsrc h
  | optional k s =>
    cases h
    rfl

/-! ## Likeness -/

section
variable {α : Type}

/-- The variant that a tag names. Inside a node the number of the variant may stand for
    its name. -/
def Variant.named? (variants : List (Variant α)) : Value → Option (Variant α)
  | .string s => variants.find? (·.tag = s)
  | .number (.int n) => if 0 ≤ n then variants[n.toNat]? else none
  | _ => none

end

/-- The fields of a node with a tag, if the shape is that of a node and has this tag. -/
def Shape.nodeFields : Shape → Value → Option (List Field)
  | .expr, tag => (Variant.named? exprVariants tag).map (·.layout.fields)
  | .stmt, tag => (Variant.named? stmtVariants tag).map (·.layout.fields)
  | _, _ => none

mutual

/-- As values of a shape the two differ only in objects that are structures or nodes, and
    there only by the order of entries, by entries that are no field, and by fields that
    are left out or written with their default. Without a known tag no entry of a node is
    a field. -/
inductive Alike : Shape → Value → Value → Prop
  | same {s : Shape} {v : Value} : Alike s v v
  | list {s : Shape} {vs vs' : List Value} :
    AlikeItems s vs vs' → Alike (.list s) (.array vs) (.array vs')
  | recordArray {r : Record} {vs vs' : List Value} :
    AlikeParts r.layout.fields vs vs' → Alike (.record r) (.array vs) (.array vs')
  | recordObject {r : Record} {es es' : List (String × Value)} :
    AlikeEntries r.layout.fields es es' → Alike (.record r) (.object es) (.object es')
  | nodeArray {s : Shape} {tag : Value} {fs : List Field} {vs vs' : List Value} :
    s.nodeFields tag = some fs → AlikeParts fs vs vs' →
      Alike s (.array (tag :: vs)) (.array (tag :: vs'))
  | nodeObject {s : Shape} {tag : Value} {fs : List Field} {es es' : List (String × Value)} :
    Assoc.get? tagKey es = some tag → Assoc.get? tagKey es' = some tag →
      s.nodeFields tag = some fs → AlikeEntries fs es es' → Alike s (.object es) (.object es')
  | untagged {s : Shape} {es es' : List (String × Value)} :
    s = .expr ∨ s = .stmt → Assoc.get? tagKey es = Assoc.get? tagKey es' →
      (Assoc.get? tagKey es).bind s.nodeFields = none → Alike s (.object es) (.object es')

/-- The items are alike, one by one. -/
inductive AlikeItems : Shape → List Value → List Value → Prop
  | nil {s : Shape} : AlikeItems s [] []
  | cons {s : Shape} {v v' : Value} {vs vs' : List Value} :
    Alike s v v' → AlikeItems s vs vs' → AlikeItems s (v :: vs) (v' :: vs')

/-- The items are alike as fields that stand in order, and the last ones may be left
    out. -/
inductive AlikeParts : List Field → List Value → List Value → Prop
  | nil {fs : List Field} : AlikeParts fs [] []
  | cons {f : Field} {fs : List Field} {v v' : Value} {vs vs' : List Value} :
    Alike f.shape v v' → AlikeParts fs vs vs' → AlikeParts (f :: fs) (v :: vs) (v' :: vs')
  | surplus {vs : List Value} : AlikeParts [] vs vs
  | omitted {f : Field} {fs : List Field} {v : Value} {vs : List Value} :
    f.blank = some v → AlikeParts fs vs [] → AlikeParts (f :: fs) (v :: vs) []
  | added {f : Field} {fs : List Field} {v : Value} {vs : List Value} :
    f.blank = some v → AlikeParts fs [] vs → AlikeParts (f :: fs) [] (v :: vs)

/-- Under the keys of the fields the entries are alike. -/
inductive AlikeEntries : List Field → List (String × Value) → List (String × Value) → Prop
  | nil {es es' : List (String × Value)} : AlikeEntries [] es es'
  | cons {f : Field} {fs : List Field} {es es' : List (String × Value)} :
    AlikeField f (Assoc.get? f.key es) (Assoc.get? f.key es') → AlikeEntries fs es es' →
      AlikeEntries (f :: fs) es es'

/-- The values of a field are alike, where it has one. -/
inductive AlikeField : Field → Option Value → Option Value → Prop
  | absent {f : Field} : AlikeField f none none
  | written {f : Field} {v v' : Value} : Alike f.shape v v' → AlikeField f (some v) (some v')
  | omitted {f : Field} {v : Value} : f.blank = some v → AlikeField f (some v) none
  | added {f : Field} {v : Value} : f.blank = some v → AlikeField f none (some v)

end

/-! ## Objects, field by field -/

/-- What a field is read as from its value, if it has one. -/
def Field.readAt (src : Source) (f : Field) : Option Value → Option f.Carrier
  | none => f.absent
  | some v => f.readFrom src v

/-- What a field has after the rest of an object, if it has this already: a key must not
    come again. -/
def Field.found (src : Source) (es : List (String × Value)) (f : Field) :
    Option f.Carrier → Option f.Carrier
  | some a =>
    match Assoc.get? f.key es with
    | none => some a
    | some _ => none
  | none => f.readAt src (Assoc.get? f.key es)

/-- What the fields have after the rest of an object. -/
def Slots.collect (src : Source) (es : List (String × Value)) :
    (fs : List Field) → Slots fs → Option (Values fs)
  | [], _ => some ()
  | f :: fs, (slot, slots) =>
    (f.found src es slot).bind fun a => (Slots.collect src es fs slots).map (a, ·)

section
variable {src : Source}

theorem finish_cons_toOption (f : Field) (fs : List Field) (slot : Option f.Carrier)
    (slots : Slots fs) : (Slots.finish (f :: fs) (slot, slots)).toOption =
      (slot <|> f.absent).bind fun a => (Slots.finish fs slots).toOption.map (a, ·) := by
  rw [Slots.finish]
  cases (slot <|> f.absent) with
  | none => rfl
  | some a => exact toOption_map _ _

theorem collect_nil : ∀ {fs : List Field} (slots : Slots fs),
    Slots.collect src [] fs slots = (Slots.finish fs slots).toOption
  | [], _ => rfl
  | f :: fs, (slot, slots) => by
    have hfound : f.found src [] slot = (slot <|> f.absent) := by cases slot <;> rfl
    rw [Slots.collect, collect_nil slots, finish_cons_toOption, hfound]

/-- Entries that are no field are not looked at. -/
theorem collect_other {k : String} {v : Value} {es : List (String × Value)} :
    ∀ {fs : List Field} (slots : Slots fs), k ∉ fs.map Field.key →
      Slots.collect src ((k, v) :: es) fs slots = Slots.collect src es fs slots
  | [], _, _ => rfl
  | f :: fs, (slot, slots), h => by
    obtain ⟨hf, hfs⟩ : k ≠ f.key ∧ k ∉ fs.map Field.key := by simpa using h
    have hfound : f.found src ((k, v) :: es) slot = f.found src es slot := by
      cases slot <;> simp only [Field.found, Assoc.get?_cons_other hf]
    rw [Slots.collect, Slots.collect, hfound, collect_other slots hfs]

/-- An entry is put where it is looked up. -/
theorem collect_put {k : String} {v : Value} {es : List (String × Value)} {dup : Failure}
    {read : (f : Field) → Except Failure f.Carrier}
    (hread : ∀ f, (read f).toOption = f.readFrom src v) (hk : Assoc.get? k es = none) :
    ∀ {fs : List Field} (slots : Slots fs), (fs.map Field.key).Nodup →
      ((Slots.put k dup read fs slots).toOption.bind fun put =>
        Slots.collect src es fs (put.getD slots)) = Slots.collect src ((k, v) :: es) fs slots
  | [], _, _ => rfl
  | f :: fs, (slot, slots), hfs => by
    obtain ⟨hf, hfs⟩ := List.nodup_cons.1 hfs
    unfold Slots.put
    by_cases hkey : f.key = k
    · subst hkey
      rw [if_pos rfl]
      cases slot with
      | some a =>
        rw [Slots.collect, Field.found, Assoc.get?_cons_self]
        rfl
      | none =>
        rw [toOption_map, hread, Slots.collect, Field.found, Assoc.get?_cons_self,
          collect_other slots hf, Option.bind_map]
        refine congrArg (Option.bind _) (funext fun a => ?_)
        show Slots.collect src es (f :: fs) (some a, slots) = _
        rw [Slots.collect, Field.found, hk]
        rfl
    · rw [if_neg hkey, toOption_map, Option.bind_map]
      have hfound : f.found src ((k, v) :: es) slot = f.found src es slot := by
        cases slot <;> simp only [Field.found, Assoc.get?_cons_other (Ne.symm hkey)]
      rw [Slots.collect, hfound, ← collect_put hread hk slots hfs]
      cases (Slots.put k dup read fs slots).toOption with
      | none => cases f.found src es slot <;> rfl
      | some put => cases put <;> rfl

/-- **An object, field by field.** From an object that repeats no key each field is read
    on its own, from the entry under its key. -/
theorem decodeObject_toOption (hsrc : src.Plain) {fs : List Field}
    (hfs : (fs.map Field.key).Nodup) : ∀ (es : List (String × Value)) (slots : Slots fs),
      (es.map Prod.fst).Nodup →
      (decodeObject src fs slots (Entries.ofEntries es)).toOption = Slots.collect src es fs slots
  | [], slots, _ => by
    rw [collect_nil]
    simp only [Entries.ofEntries, decodeObject]
    cases Slots.finish fs slots <;> rfl
  | (k, v) :: es, slots, hes => by
    obtain ⟨hk, hes⟩ := List.nodup_cons.1 hes
    have hnone : Assoc.get? k es = none := by
      cases hget : Assoc.get? k es with
      | none => rfl
      | some w => exact absurd (List.mem_map_of_mem (Assoc.mem_of_get? hget)) hk
    simp only [Entries.ofEntries, decodeObject, toOption_bind]
    rw [← collect_put (fun f => toOption_mapError _ _) hnone slots hfs]
    refine congrArg (Option.bind _) (funext fun put => ?_)
    cases put with
    | some slots' => exact decodeObject_toOption hsrc hfs es slots' hes
    | none =>
      have ih := decodeObject_toOption hsrc hfs es slots hes
      cases src with
      | text n => exact absurd rfl (hsrc n)
      | value | buffered => exact ih

theorem collect_congr {es es' : List (String × Value)} : ∀ {fs : List Field},
    (∀ f ∈ fs, f.readAt src (Assoc.get? f.key es) = f.readAt src (Assoc.get? f.key es')) →
      Slots.collect src es fs (Slots.empty fs) = Slots.collect src es' fs (Slots.empty fs)
  | [], _ => rfl
  | f :: fs, h => by
    obtain ⟨hf, hfs⟩ := List.forall_mem_cons.1 h
    rw [Slots.empty, Slots.collect, Slots.collect, Field.found, Field.found, hf, collect_congr hfs]

/-! ## Arrays, field by field -/

theorem decodeArray_nil_toOption {expected : String} {count : Nat} : ∀ fs : List Field,
    (decodeArray src expected fs count (Items.ofValues [])).toOption =
      (Values.absent count fs).toOption
  | [] => by
    simp only [Items.ofValues, decodeArray]
    cases src <;> rfl
  | f :: fs => by
    simp only [Items.ofValues, decodeArray, shortfall]
    cases Values.absent count (f :: fs) <;> rfl

/-- A field that is left out of an array has its default. -/
theorem decodeArray_absent {expected : String} {count : Nat} (f : Field) (fs : List Field) :
    (decodeArray src expected (f :: fs) count (Items.ofValues [])).toOption =
      f.absent.bind fun a =>
        (decodeArray src expected fs (count + 1) (Items.ofValues [])).toOption.map (a, ·) := by
  rw [decodeArray_nil_toOption, decodeArray_nil_toOption, Values.absent]
  cases f.absent with
  | none => rfl
  | some a => exact toOption_map _ _

theorem decodeArray_cons_toOption {expected : String} {count : Nat} (f : Field) (fs : List Field)
    (v : Value) (vs : List Value) :
    (decodeArray src expected (f :: fs) count (Items.ofValues (v :: vs))).toOption =
      (f.readFrom src v).bind fun a =>
        (decodeArray src expected fs (count + 1) (Items.ofValues vs)).toOption.map (a, ·) := by
  simp only [Items.ofValues, decodeArray, toOption_bind, toOption_mapError]
  refine congrArg (Option.bind _) (funext fun a => ?_)
  cases (decodeArray src expected fs (count + 1) (Items.ofValues vs)).toOption <;> rfl

/-! ## Tags -/

theorem findTag_toOption (hsrc : src.Plain) {tags : List String} :
    ∀ {es : List (String × Value)}, (es.map Prod.fst).Nodup →
      (findTag src tags none (Entries.ofEntries es)).toOption =
        (Assoc.get? tagKey es).bind fun t => (decodeTag src tags (Tree.ofValue t)).toOption
  | [], _ => rfl
  | (k, v) :: es, hes => by
    obtain ⟨hk, hes⟩ := List.nodup_cons.1 hes
    by_cases htag : k = tagKey
    · subst htag
      simp only [Entries.ofEntries, findTag, if_pos, toOption_bind, toOption_mapError,
        findTag_seen hsrc hk, Assoc.get?_cons_self, Option.bind_some]
      exact Option.bind_fun_some _
    · rw [findTag_other hsrc htag, findTag_toOption hsrc hes, Assoc.get?_cons_other htag]

variable {α : Type} {variants : List (Variant α)}

/-- The decoder finds the variant that a tag names, if it knows the tag. -/
theorem named?_of_decodeTag {t : Value} {i : Nat}
    (h : (decodeTag src (variants.map Variant.tag) (Tree.ofValue t)).toOption = some i) :
    Variant.named? variants t = variants[i]? := by
  rw [toOption_eq_some] at h
  cases t with
  | string s =>
    rw [Tree.ofValue, decodeTag, List.findIdx?_map] at h
    rw [Variant.named?, List.find?_eq_bind_findIdx?_getElem?]
    have hcomp : ((fun x => decide (x = s)) ∘ Variant.tag) =
        fun w : Variant α => decide (w.tag = s) := rfl
    rw [hcomp] at h
    split at h
    · rename_i j hj
      cases h
      rw [hj, Option.bind_some]
    · cases h
  | number n =>
    cases n with
    | int n =>
      rw [Tree.ofValue, decodeTag] at h
      split at h
      · rename_i hn
        split at h
        · cases h
          rw [Variant.named?, if_pos hn.2]
        · cases h
      · cases h
    | float x => cases h
  | null | bool | array | object => cases h

/-! ## Nodes -/

/-- What is read from an object as a node: the tag names a variant, and the fields of this
    variant are looked up. -/
def Variant.readObject (variants : List (Variant α)) (src : Source)
    (es : List (String × Value)) : Option α :=
  (Assoc.get? tagKey es).bind fun t =>
    (decodeTag src (variants.map Variant.tag) (Tree.ofValue t)).toOption.bind fun i =>
      variants[i]?.bind fun w =>
        (Slots.collect .buffered es w.layout.fields (Slots.empty _)).map w.layout.build

/-- What is read from an array as a node: the tag names a variant, and the fields of this
    variant follow in order. -/
def Variant.readArray (variants : List (Variant α)) (src : Source) (t : Value)
    (vs : List Value) : Option α :=
  (decodeTag src (variants.map Variant.tag) (Tree.ofValue t)).toOption.bind fun i =>
    variants[i]?.bind fun w => (decodeArray .buffered w.layout.elements w.layout.fields 0
      (Items.ofValues vs)).toOption.map w.layout.build

theorem readObject_congr {es es' : List (String × Value)}
    (htag : Assoc.get? tagKey es = Assoc.get? tagKey es')
    (hfields : ∀ t w, Assoc.get? tagKey es = some t → Variant.named? variants t = some w →
      ∀ f ∈ w.layout.fields, f.readAt .buffered (Assoc.get? f.key es) =
        f.readAt .buffered (Assoc.get? f.key es')) :
    Variant.readObject variants src es = Variant.readObject variants src es' := by
  rw [Variant.readObject, Variant.readObject, ← htag]
  refine Option.bind_congr fun t ht => Option.bind_congr fun i hi => Option.bind_congr fun w hw => ?_
  rw [collect_congr (hfields t w ht ((named?_of_decodeTag hi).trans hw))]

theorem readArray_congr {t : Value} {vs vs' : List Value}
    (hfields : ∀ w, Variant.named? variants t = some w → ∀ expected count,
      (decodeArray .buffered expected w.layout.fields count (Items.ofValues vs)).toOption =
        (decodeArray .buffered expected w.layout.fields count (Items.ofValues vs')).toOption) :
    Variant.readArray variants src t vs = Variant.readArray variants src t vs' := by
  rw [Variant.readArray, Variant.readArray]
  refine Option.bind_congr fun i hi => Option.bind_congr fun w hw => ?_
  rw [hfields w ((named?_of_decodeTag hi).trans hw)]

theorem ofObject_toOption (hsrc : src.Plain)
    (hkeys : ∀ w ∈ variants, (tagKey :: w.layout.fields.map Field.key).Nodup)
    {es : List (String × Value)} (hes : (es.map Prod.fst).Nodup) :
    (Variant.ofObject variants src (Entries.ofEntries es)).toOption =
      Variant.readObject variants src es := by
  rw [Variant.ofObject, toOption_bind, findTag_toOption hsrc hes, Variant.readObject,
    Option.bind_assoc]
  refine Option.bind_congr fun t _ => Option.bind_congr fun i _ => ?_
  cases hw : variants[i]? with
  | none => rfl
  | some w =>
    have hnodup := (List.nodup_cons.1 (hkeys w (List.mem_of_getElem? hw))).2
    rw [Option.bind_some, ← decodeObject_toOption Source.plain_buffered hnodup es _ hes]
    exact toOption_map _ _

theorem ofArray_toOption (hsrc : src.Plain) (t : Value) (vs : List Value) :
    (Variant.ofArray variants src (Items.ofValues (t :: vs))).toOption =
      Variant.readArray variants src t vs := by
  have hadmits : src.Admits (itemsDepth vs) := fun n hn => absurd hn (hsrc n)
  rw [Items.ofValues, Variant.ofArray, toOption_bind,
    firstTag_toOption _ (denotes_ofValues vs) hadmits, Option.bind_map, Variant.readArray]
  refine Option.bind_congr fun i _ => ?_
  dsimp only [Function.comp_apply]
  cases variants[i]? with
  | none => rfl
  | some w => exact toOption_map _ _

/-! ## Families -/

/-- The fields of a node with a tag are those of the variant that the tag names. -/
theorem NodeFamily.nodeFields (n : NodeFamily) (tag : Value) :
    n.shape.nodeFields tag = (Variant.named? n.variants tag).map (·.layout.fields) := by
  cases n <;> rfl

/-- Two objects are read as the same node if they have the same tag and the fields that
    go with it are read alike. -/
theorem decode_nodeObject (hsrc : src.Plain) (n : NodeFamily) {es es' : List (String × Value)}
    (hes : (es.map Prod.fst).Nodup) (hes' : (es'.map Prod.fst).Nodup)
    (htag : Assoc.get? tagKey es = Assoc.get? tagKey es')
    (hfields : ∀ t fs, Assoc.get? tagKey es = some t → n.shape.nodeFields t = some fs → ∀ f ∈ fs,
      f.readAt .buffered (Assoc.get? f.key es) = f.readAt .buffered (Assoc.get? f.key es')) :
    (decode src (Tree.ofValue (.object es)) n.shape).toOption =
      (decode src (Tree.ofValue (.object es')) n.shape).toOption := by
  rw [Tree.ofValue, Tree.ofValue, n.decode_object hsrc, n.decode_object hsrc,
    ofObject_toOption hsrc n.keys_nodup hes, ofObject_toOption hsrc n.keys_nodup hes']
  refine readObject_congr htag fun t w ht hw => hfields t _ ht ?_
  rw [n.nodeFields, hw, Option.map_some]

theorem decode_nodeArray (hsrc : src.Plain) (n : NodeFamily) {t : Value} {vs vs' : List Value}
    (hfields : ∀ fs, n.shape.nodeFields t = some fs → ∀ expected count,
      (decodeArray .buffered expected fs count (Items.ofValues vs)).toOption =
        (decodeArray .buffered expected fs count (Items.ofValues vs')).toOption) :
    (decode src (Tree.ofValue (.array (t :: vs))) n.shape).toOption =
      (decode src (Tree.ofValue (.array (t :: vs'))) n.shape).toOption := by
  rw [Tree.ofValue, Tree.ofValue, n.decode_array hsrc, n.decode_array hsrc,
    ofArray_toOption hsrc, ofArray_toOption hsrc]
  refine readArray_congr fun w hw => hfields _ ?_
  rw [n.nodeFields, hw, Option.map_some]

theorem NodeFamily.of_nodeFields {s : Shape} {t : Value} {fs : List Field}
    (h : s.nodeFields t = some fs) : ∃ n : NodeFamily, s = n.shape := by
  cases s with
  | expr => exact ⟨.expr, rfl⟩
  | stmt => exact ⟨.stmt, rfl⟩
  | _ => cases h

theorem readFrom_congr {f : Field} {v v' : Value}
    (hnull : isNull (Tree.ofValue v) = isNull (Tree.ofValue v'))
    (h : (decode src (Tree.ofValue v) f.shape).toOption =
      (decode src (Tree.ofValue v') f.shape).toOption) :
    f.readFrom src v = f.readFrom src v' := by
  cases f with
  | required k s => exact h
  | defaulted k s => exact h
  | optional k s =>
    rw [Field.readFrom, Field.readFrom, Field.decodeWith, Field.decodeWith, hnull]
    split
    · rfl
    · rw [toOption_map, toOption_map]
      exact congrArg (Option.map some) h

end

theorem Alike.isNull {s : Shape} {v v' : Value} (h : Alike s v v') :
    isNull (Tree.ofValue v) = isNull (Tree.ofValue v') := by
  cases h with
  | same => rfl
  | list | recordArray | recordObject | nodeArray | nodeObject | untagged =>
    simp only [Tree.ofValue]
    rfl

theorem keys_of_distinct {es : List (String × Value)} (h : (Value.object es).distinct = true) :
    (es.map Prod.fst).Nodup ∧ ∀ {k : String} {v : Value}, Assoc.get? k es = some v →
      v.distinct = true := by
  rw [Value.distinct, Bool.and_eq_true, decide_eq_true_eq] at h
  exact ⟨h.1, fun hv => distinct_of_mem_entries h.2 (Assoc.mem_of_get? hv)⟩

mutual

/-- **Reading values that are alike.** -/
theorem decode_alike : ∀ {s : Shape} {v v' : Value}, Alike s v v' → v.distinct = true →
    v'.distinct = true → ∀ {src : Source}, src.Plain →
      (decode src (Tree.ofValue v) s).toOption = (decode src (Tree.ofValue v') s).toOption
  | _, _, _, .same, _, _, _, _ => rfl
  | _, _, _, .list h, hd, hd', src, hsrc => by
    rw [Value.distinct] at hd hd'
    simp only [Tree.ofValue, decode, hsrc.enter]
    exact decodeItems_alike h hd hd' hsrc 0
  | _, _, _, @Alike.recordArray r _ _ h, hd, hd', src, hsrc => by
    rw [Value.distinct] at hd hd'
    simp only [Tree.ofValue, decode, hsrc.enter]
    exact (toOption_map _ _).trans ((congrArg (Option.map r.layout.build)
      (decodeArray_alike h hd hd' hsrc _ 0)).trans (toOption_map _ _).symm)
  | _, _, _, @Alike.recordObject r es es' h, hd, hd', src, hsrc => by
    obtain ⟨hnodup, hinner⟩ := keys_of_distinct hd
    obtain ⟨hnodup', hinner'⟩ := keys_of_distinct hd'
    have hfields := collect_congr (readAt_alike h hinner hinner' hsrc)
    rw [← decodeObject_toOption hsrc r.keys_nodup es _ hnodup,
      ← decodeObject_toOption hsrc r.keys_nodup es' _ hnodup'] at hfields
    simp only [Tree.ofValue, decode, hsrc.enter]
    exact (toOption_map _ _).trans ((congrArg (Option.map r.layout.build) hfields).trans
      (toOption_map _ _).symm)
  | _, _, _, .nodeArray hfs h, hd, hd', src, hsrc => by
    rw [Value.distinct, distinctItems, Bool.and_eq_true] at hd hd'
    have hfields := decodeArray_alike h hd.2 hd'.2 Source.plain_buffered
    obtain ⟨n, rfl⟩ := NodeFamily.of_nodeFields hfs
    refine decode_nodeArray hsrc n fun fs' hfs' => ?_
    obtain rfl := Option.some.inj (hfs.symm.trans hfs')
    exact hfields
  | _, _, _, .nodeObject ht ht' hfs h, hd, hd', src, hsrc => by
    obtain ⟨hnodup, hinner⟩ := keys_of_distinct hd
    obtain ⟨hnodup', hinner'⟩ := keys_of_distinct hd'
    have hfields := readAt_alike h hinner hinner' Source.plain_buffered
    obtain ⟨n, rfl⟩ := NodeFamily.of_nodeFields hfs
    refine decode_nodeObject hsrc n hnodup hnodup' (ht.trans ht'.symm) ?_
    intro t fs' ht₂ hfs'
    obtain rfl := Option.some.inj (ht.symm.trans ht₂)
    obtain rfl := Option.some.inj (hfs.symm.trans hfs')
    exact hfields
  | _, _, _, .untagged hs htag hnone, hd, hd', src, hsrc => by
    obtain ⟨n, rfl⟩ := NodeFamily.exists_shape hs
    refine decode_nodeObject hsrc n (keys_of_distinct hd).1 (keys_of_distinct hd').1 htag ?_
    intro t fs ht hfs
    rw [ht, Option.bind_some, hfs] at hnone
    cases hnone

theorem decodeItems_alike : ∀ {s : Shape} {vs vs' : List Value}, AlikeItems s vs vs' →
    distinctItems vs = true → distinctItems vs' = true → ∀ {src : Source}, src.Plain → ∀ i : Nat,
      (decodeItems src s i (Items.ofValues vs)).toOption =
        (decodeItems src s i (Items.ofValues vs')).toOption
  | _, _, _, .nil, _, _, _, _, _ => rfl
  | s, _, _, .cons hv h, hd, hd', src, hsrc, i => by
    rw [distinctItems, Bool.and_eq_true] at hd hd'
    simp only [Items.ofValues, decodeItems, toOption_bind, toOption_mapError,
      decode_alike hv hd.1 hd'.1 hsrc, decodeItems_alike h hd.2 hd'.2 hsrc (i + 1)]

theorem decodeArray_alike : ∀ {fs : List Field} {vs vs' : List Value}, AlikeParts fs vs vs' →
    distinctItems vs = true → distinctItems vs' = true → ∀ {src : Source}, src.Plain →
    ∀ (expected : String) (count : Nat),
      (decodeArray src expected fs count (Items.ofValues vs)).toOption =
        (decodeArray src expected fs count (Items.ofValues vs')).toOption
  | _, _, _, .nil, _, _, _, _, _, _ => rfl
  | _, _, _, .surplus, _, _, _, _, _, _ => rfl
  | _, _, _, .cons hv h, hd, hd', src, hsrc, expected, count => by
    rw [distinctItems, Bool.and_eq_true] at hd hd'
    rw [decodeArray_cons_toOption, decodeArray_cons_toOption,
      readFrom_congr hv.isNull (decode_alike hv hd.1 hd'.1 hsrc),
      decodeArray_alike h hd.2 hd'.2 hsrc]
  | _, _, _, .omitted hblank h, hd, hd', src, hsrc, expected, count => by
    rw [distinctItems, Bool.and_eq_true] at hd
    rw [decodeArray_cons_toOption, decodeArray_absent, readFrom_blank hsrc hblank,
      decodeArray_alike h hd.2 hd' hsrc]
  | _, _, _, .added hblank h, hd, hd', src, hsrc, expected, count => by
    rw [distinctItems, Bool.and_eq_true] at hd'
    rw [decodeArray_cons_toOption, decodeArray_absent, readFrom_blank hsrc hblank,
      decodeArray_alike h hd hd'.2 hsrc]

theorem readAt_alike : ∀ {fs : List Field} {es es' : List (String × Value)}, AlikeEntries fs es es' →
    (∀ {k : String} {v : Value}, Assoc.get? k es = some v → v.distinct = true) →
    (∀ {k : String} {v : Value}, Assoc.get? k es' = some v → v.distinct = true) →
    ∀ {src : Source}, src.Plain → ∀ f ∈ fs,
      f.readAt src (Assoc.get? f.key es) = f.readAt src (Assoc.get? f.key es')
  | _, _, _, .nil, _, _, _, _ => by simp
  | _, _, _, .cons hf h, hd, hd', src, hsrc => by
    refine List.forall_mem_cons.2 ⟨?_, readAt_alike h hd hd' hsrc⟩
    exact readField_alike hf hd hd' hsrc

theorem readField_alike : ∀ {f : Field} {o o' : Option Value}, AlikeField f o o' →
    (∀ {v : Value}, o = some v → v.distinct = true) →
    (∀ {v : Value}, o' = some v → v.distinct = true) → ∀ {src : Source}, src.Plain →
      f.readAt src o = f.readAt src o'
  | _, _, _, .absent, _, _, _, _ => rfl
  | _, _, _, .written h, hd, hd', _, hsrc =>
    readFrom_congr h.isNull (decode_alike h (hd rfl) (hd' rfl) hsrc)
  | _, _, _, .omitted hblank, _, _, _, hsrc => readFrom_blank hsrc hblank
  | _, _, _, .added hblank, _, _, _, hsrc => (readFrom_blank hsrc hblank).symm

end

/-! ## Attributes -/

theorem decodeAttributes_eq_ok {src : Source} : ∀ {es : List (String × Value)}
    {found as : List (String × String)}, decodeAttributes src found (Entries.ofEntries es) = .ok as →
      ∃ bs : List (String × String),
        es = bs.map (fun a => (a.1, .string a.2)) ∧ as = Assoc.insertAll found bs
  | [], found, as, h => by
    simp only [Entries.ofEntries, decodeAttributes, Except.ok.injEq] at h
    exact ⟨[], rfl, h.symm⟩
  | (k, v) :: es, found, as, h => by
    simp only [Entries.ofEntries, decodeAttributes] at h
    obtain ⟨s, hs, h⟩ := bind_eq_ok.1 h
    obtain ⟨bs, rfl, rfl⟩ := decodeAttributes_eq_ok h
    cases v with
    | string w =>
      cases hs
      exact ⟨(k, s) :: bs, rfl, rfl⟩
    | null | bool | number | array | object => cases hs

/-- Attributes are read in the order in which they are written. -/
theorem attributes_kept {src : Source} (hsrc : src.Plain) {u : Value} {as : List (String × String)}
    (hd : u.distinct = true) (h : decode src (Tree.ofValue u) .attributes = .ok as) :
    u = .object (as.map fun a => (a.1, .string a.2)) := by
  cases u with
  | object es =>
    simp only [Tree.ofValue, decode, hsrc.enter] at h
    obtain ⟨bs, rfl, rfl⟩ := decodeAttributes_eq_ok h
    have hkeys := (keys_of_distinct hd).1
    rw [List.map_map] at hkeys
    have hmerge : Assoc.merge bs = bs := Assoc.merge_eq_self hkeys
    rw [Assoc.merge] at hmerge
    rw [hmerge]
  | null | bool | number | string | array =>
    simp only [Tree.ofValue, decode] at h
    cases h

theorem holds_of_collect {src : Source} {es : List (String × Value)} : ∀ {fs : List Field}
    {as : Values fs}, Slots.collect src es fs (Slots.empty fs) = some as →
      as.Holds fun f a => f.readAt src (Assoc.get? f.key es) = some a
  | [], _, _ => trivial
  | f :: fs, (a, as), h => by
    rw [Slots.empty, Slots.collect, Field.found] at h
    obtain ⟨b, hb, h⟩ := Option.bind_eq_some_iff.1 h
    obtain ⟨bs, hbs, heq⟩ := Option.map_eq_some_iff.1 h
    cases heq
    exact ⟨hb, holds_of_collect hbs⟩

theorem annotation_attributes_kept {es : List (String × Value)} {d : AnnotationDef} {u : Value}
    (hd : (Value.object es).distinct = true)
    (h : decodeValue (.object es) (.record .annotationDef) = .ok d)
    (hu : Assoc.get? "attributes" es = some u) :
    u = .object (d.attributes.map fun a => (a.1, .string a.2)) := by
  obtain ⟨hnodup, hinner⟩ := keys_of_distinct hd
  simp only [decodeValue, Tree.ofValue, decode, Source.plain_value.enter] at h
  obtain ⟨⟨name, value, as, _⟩, hvalues, rfl⟩ := map_eq_ok.1 h
  have hcollect := decodeObject_toOption Source.plain_value (Record.keys_nodup .annotationDef) es
    (Slots.empty _) hnodup
  obtain ⟨-, -, has, -⟩ := holds_of_collect (hcollect.symm.trans (toOption_eq_some.2 hvalues))
  rw [Field.key, hu] at has
  exact attributes_kept Source.plain_value (hinner hu) (toOption_eq_some.1 has)

/-! ## Texts -/

/-- The text begins with this value, which is not too deep to be read, and no object in
    it repeats a key. -/
structure HasValue (text : String) (v : Value) : Prop where
  read : Tree.read maxLevels (Tree.ofText text).1 = .ok v
  distinct : v.distinct = true

theorem HasValue.of_spells {text : String} {v : Value} (h : SpellsText text.toList v)
    (hdepth : v.depth ≤ maxLevels) (hd : v.distinct = true) : HasValue text v := by
  obtain ⟨t, e, htext, -, ht⟩ := ofText_spells h
  refine ⟨?_, hd⟩
  rw [htext]
  exact read_of_denotes ht hdepth

theorem HasValue.decodeFirst_toOption {text : String} {v : Value} (h : HasValue text v)
    (s : Shape) : (decodeFirst text s).toOption = (decodeValue v s).toOption := by
  obtain ⟨ht, hdepth⟩ := read_eq_ok_iff.1 h.read
  refine decode_of_denotes ht .start ?_ s
  rintro n ⟨⟩
  exact hdepth

end TreeDoc.Decode

namespace TreeDoc

open Decode Json
open Model (Style document)
open Program (File AnnotationDef)

/-- **What decoding ignores.** From two texts whose values are alike, either no file is
    read or the same one, and so they have the same documents. The attributes of an
    annotation keep the order in which they are written. -/
theorem decoding_ignores {text text' : String} {v v' : Value} (h : HasValue text v)
    (h' : HasValue text' v') (halike : Alike (.record .file) v v') (origin origin' : String) :
    (File.ofText origin text).toOption = (File.ofText origin' text').toOption ∧
    (∀ st : Style, (File.ofText origin text).toOption.map (document st) =
      (File.ofText origin' text').toOption.map (document st)) ∧
    ∀ (es : List (String × Value)) (d : AnnotationDef) (u : Value),
      (Value.object es).distinct = true →
      decodeValue (.object es) (.record .annotationDef) = .ok d →
      Assoc.get? "attributes" es = some u →
        u = .object (d.attributes.map fun a => (a.1, .string a.2)) := by
  have hfile : (File.ofText origin text).toOption = (File.ofText origin' text').toOption := by
    rw [File.ofText, File.ofText, toOption_mapError, toOption_mapError, h.decodeFirst_toOption,
      h'.decodeFirst_toOption]
    exact decode_alike halike h.distinct h'.distinct Source.plain_value
  refine ⟨hfile, fun st => by rw [hfile], fun es d u hd hread hu => ?_⟩
  exact annotation_attributes_kept hd hread hu

/-- A file with one function, which replies with a variable. -/
def echoFile : File where
  packageName := "echo"
  imports := []
  constants := []
  services := []
  functions := [{
    name := "main"
    position := 0
    isPublic := false
    annotations := []
    locals := []
    parameters := []
    connectors := []
    results := []
    body := ⟨[.reply (.variable "x")]⟩ }]
  connectors := []
  structs := []
  typeConverters := []
  mainInvoker := none

/-- The file without its defaults. -/
def echoValue : Value :=
  .object [("package_name", .string "echo"), ("functions", .array [.object [
    ("name", .string "main"), ("body", .object [("statements", .array [.object [
      ("kind", .string "reply"), ("expr", .object [
        ("kind", .string "variable-ref"), ("name", .string "x")])]])])]])]

/-- The file with its entries in another order, with entries that are no field, and with
    some defaults. -/
def echoValue' : Value :=
  .object [("main_invoker", .null), ("functions", .array [.object [("line", .number (.int 3)),
    ("body", .object [("statements", .array [.object [
      ("expr", .object [("name", .string "x"), ("line", .null), ("kind", .string "variable-ref")]),
      ("kind", .string "reply")]]), ("kind", .bool true)]),
    ("is_public", .bool false), ("annotations", .array []), ("name", .string "main")]]),
    ("package_name", .string "echo")]

theorem echoValue_alike : Alike (.record .file) echoValue echoValue' := by
  have hexpr : Alike .expr (.object [("kind", .string "variable-ref"), ("name", .string "x")])
      (.object [("name", .string "x"), ("line", .null), ("kind", .string "variable-ref")]) :=
    .nodeObject rfl rfl rfl (.cons (.written .same) .nil)
  refine .recordObject (.cons (.written .same) (.cons .absent (.cons .absent (.cons .absent
    (.cons (.written (.list (.cons (.recordObject ?_) .nil))) (.cons .absent (.cons .absent
    (.cons .absent (.cons (.added rfl) .nil)))))))))
  refine .cons (.written .same) (.cons .absent (.cons (.added rfl) (.cons (.added rfl)
    (.cons .absent (.cons .absent (.cons .absent (.cons .absent (.cons (.written ?_) .nil))))))))
  refine .recordObject (.cons (.written (.list (.cons ?_ .nil))) .nil)
  exact .nodeObject rfl rfl rfl (.cons (.written hexpr) .nil)

/-- The file is read from both texts. -/
theorem echo_texts :
    HasValue echoValue.compact echoValue ∧ HasValue echoValue'.compact echoValue' ∧
    Alike (.record .file) echoValue echoValue' ∧
    File.ofText "a" echoValue.compact = .ok echoFile ∧
    File.ofText "b" echoValue'.compact = .ok echoFile := by
  have hspells : SpellsText echoValue.compact.toList echoValue := (compact_spells rfl).text
  have htext : HasValue echoValue.compact echoValue := .of_spells hspells (by decide) (by decide)
  have htext' : HasValue echoValue'.compact echoValue' :=
    .of_spells (compact_spells rfl).text (by decide) (by decide)
  have hread : File.ofText "a" echoValue.compact = .ok echoFile :=
    (File.ofText_spells_iff hspells (by decide)).2 rfl
  have hsame := (decoding_ignores htext htext' echoValue_alike "a" "b").1
  refine ⟨htext, htext', echoValue_alike, hread, ?_⟩
  rw [← toOption_eq_some, ← hsame, hread]
  rfl

end TreeDoc
