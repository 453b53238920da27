/-
  What is written for a part of a program, with the form of structures left open.

  Every structure, statement and expression may be written as an array of its fields
  in order, or as an object with its fields in any order; one is free to choose
  anew at each of them. A code says what is written in either form.

  * `Code`, `Writes`: codes, and the values that write them;
  * `Reads`: what is read from every value that writes a code;
  * `MembersOf`: the members of a code, set against the fields of a structure;
  * `decodeArray_written`, `decodeObject_written`: the fields are read from either
    form;
  * `Reads.record`, `Reads.node`: so are structures and nodes.
-/
import TreeDoc.Proofs.Keys
import TreeDoc.Proofs.NodeFamilies
import Mathlib.Data.List.Nodup

namespace TreeDoc.Decode

open Json Program

/-! ## Codes -/

/-- What is written for a part of a program. A member of a structure or node has a
    key, what is written for it, and whether an object may leave it out. -/
inductive Code where
  | atom (value : Value)
  | attributes (entries : List (String × String))
  | list (items : List Code)
  | record (members : List (String × Bool × Code))
  | node (tag : String) (members : List (String × Bool × Code))

/-- A member of a structure or node. -/
abbrev Member := String × Bool × Code

mutual

/-- The value writes a code. A structure is an array of its members or an object that
    has them in any order. A node has its tag besides, first in an array and anywhere
    in an object. Attributes keep their order, and no key stands for two of them. -/
inductive Writes : Code → Value → Prop
  | atom {v : Value} : Writes (.atom v) v
  | attributes {as : List (String × String)} : (as.map Prod.fst).Nodup →
    Writes (.attributes as) (.object (as.map fun a => (a.1, .string a.2)))
  | list {cs : List Code} {vs : List Value} :
    WritesItems cs vs → Writes (.list cs) (.array vs)
  | recordArray {ms : List Member} {vs : List Value} :
    WritesItems (ms.map fun m => m.2.2) vs → Writes (.record ms) (.array vs)
  | recordObject {ms : List Member} {es es' : List (String × Value)} :
    WritesEntries ms es → es.Perm es' → Writes (.record ms) (.object es')
  | nodeArray {tag : String} {ms : List Member} {vs : List Value} :
    WritesItems (ms.map fun m => m.2.2) vs → Writes (.node tag ms) (.array (.string tag :: vs))
  | nodeObject {tag : String} {ms : List Member} {es es' : List (String × Value)} :
    WritesEntries ms es → ((tagKey, .string tag) :: es).Perm es' →
      Writes (.node tag ms) (.object es')

/-- The items write codes, one by one. -/
inductive WritesItems : List Code → List Value → Prop
  | nil : WritesItems [] []
  | cons {c : Code} {v : Value} {cs : List Code} {vs : List Value} :
    Writes c v → WritesItems cs vs → WritesItems (c :: cs) (v :: vs)

/-- The entries write members, in their order, except for some that may be left
    out. -/
inductive WritesEntries : List Member → List (String × Value) → Prop
  | nil : WritesEntries [] []
  | written {k : String} {o : Bool} {c : Code} {v : Value} {ms : List Member}
      {es : List (String × Value)} :
    Writes c v → WritesEntries ms es → WritesEntries ((k, o, c) :: ms) ((k, v) :: es)
  | omitted {k : String} {c : Code} {ms : List Member} {es : List (String × Value)} :
    WritesEntries ms es → WritesEntries ((k, true, c) :: ms) es

end

/-! ## Reading codes -/

/-- The source is not a text that is being read. -/
def Source.Plain (src : Source) : Prop := ∀ n, src ≠ .text n

theorem Source.Plain.enter {src : Source} (h : src.Plain) (p : Nat) : src.enter p = .ok src := by
  cases src with
  | text n => exact absurd rfl (h n)
  | value | buffered => rfl

theorem Source.plain_buffered : Source.buffered.Plain := nofun

theorem Source.plain_value : Source.value.Plain := nofun

section
variable {src : Source} (hsrc : src.Plain) (n : NodeFamily) (p : Nat)
include hsrc

theorem NodeFamily.decode_array (items : Items) :
    decode src (.array p items) n.shape = Variant.ofArray n.variants src items := by
  rw [n.decode_eq, read, hsrc.enter]
  rfl

theorem NodeFamily.decode_object (entries : Entries) :
    decode src (.object p entries) n.shape = Variant.ofObject n.variants src entries := by
  rw [n.decode_eq, read, hsrc.enter]
  rfl

end

/-- The part is read from every value that writes the code. -/
def Reads (s : Shape) (a : s.Carrier) (c : Code) : Prop :=
  ∀ ⦃v : Value⦄, Writes c v → ∀ ⦃src : Source⦄, src.Plain → decode src (Tree.ofValue v) s = .ok a

theorem Reads.of_atom {s : Shape} {a : s.Carrier} {v : Value}
    (h : ∀ ⦃src : Source⦄, src.Plain → decode src (Tree.ofValue v) s = .ok a) :
    Reads s a (.atom v) := by
  intro w hw
  cases hw
  exact h

theorem decodeItems_written {s : Shape} {as : List s.Carrier} {cs : List Code}
    (h : List.Forall₂ (Reads s) as cs) {vs : List Value} (hvs : WritesItems cs vs) {src : Source}
    (hsrc : src.Plain) (i : Nat) : decodeItems src s i (Items.ofValues vs) = .ok as := by
  induction h generalizing vs i with
  | nil =>
    cases hvs
    simp only [Items.ofValues, decodeItems]
  | cons ha _ ih =>
    cases hvs with
    | cons hv hvs =>
      simp only [Items.ofValues, decodeItems, ha hv hsrc, ih hvs]
      rfl

theorem Reads.list {s : Shape} {as : List s.Carrier} {cs : List Code}
    (h : List.Forall₂ (Reads s) as cs) : Reads (.list s) as (.list cs) := by
  intro v hv src hsrc
  cases hv with
  | list hvs =>
    simp only [Tree.ofValue, decode, hsrc.enter]
    exact decodeItems_written h hvs hsrc 0

theorem decodeAttributes_written {src : Source} : ∀ as found : List (String × String),
    decodeAttributes src found (Entries.ofEntries (as.map fun a => (a.1, .string a.2))) =
      .ok (Assoc.insertAll found as)
  | [], found => by
    simp only [List.map_nil, Entries.ofEntries, decodeAttributes, Assoc.insertAll]
  | (k, s) :: as, found => by
    simp only [List.map_cons, Entries.ofEntries, Tree.ofValue, decodeAttributes, decodeString,
      Assoc.insertAll]
    exact decodeAttributes_written as (Assoc.insert k s found)

theorem Reads.attributes (as : List (String × String)) : Reads .attributes as (.attributes as) := by
  intro v hv src hsrc
  cases hv with
  | attributes hnodup =>
    simp only [Tree.ofValue, decode, hsrc.enter]
    refine (decodeAttributes_written as []).trans (congrArg Except.ok ?_)
    exact Assoc.merge_eq_self hnodup

/-! ## Members and fields -/

/-- The member stands for the field: it has the field's key, the part is read from
    whatever writes it, and if it may be left out the part is the field's default. -/
structure Field.ReadAs (f : Field) (a : f.Carrier) (m : Member) : Prop where
  key : m.1 = f.key
  value : ∀ ⦃v : Value⦄, Writes m.2.2 v → ∀ ⦃src : Source⦄, src.Plain →
    f.decodeWith (isNull (Tree.ofValue v)) (fun s => decode src (Tree.ofValue v) s) = .ok a
  absent : m.2.1 = true → f.absent = some a

theorem Field.ReadAs.required {s : Shape} {a : s.Carrier} {c : Code} (k : String)
    (h : Reads s a c) : (Field.required k s).ReadAs a (k, false, c) :=
  ⟨rfl, fun _ hv _ hsrc => h hv hsrc, nofun⟩

theorem Field.ReadAs.defaulted {s : Shape} {a : s.Carrier} {c : Code} {o : Bool} (k : String)
    (h : Reads s a c) (ho : o = true → s.absent = some a) :
    (Field.defaulted k s).ReadAs a (k, o, c) :=
  ⟨rfl, fun _ hv _ hsrc => h hv hsrc, ho⟩

theorem Field.ReadAs.none (k : String) (s : Shape) :
    (Field.optional k s).ReadAs none (k, true, .atom .null) := by
  refine ⟨rfl, fun v hv _ _ => ?_, fun _ => rfl⟩
  cases hv
  rfl

/-- Only literals are read from null. -/
theorem decode_null {src : Source} (hsrc : src.Plain) {s : Shape} (hs : s ≠ .literal) (a : s.Carrier) :
    decode src (Tree.ofValue .null) s ≠ .ok a := by
  cases src with
  | text n => exact absurd rfl (hsrc n)
  | value | buffered => cases s <;> simp_all [Tree.ofValue, decode, decodeString, decodeBool,
      decodeNat, decodeChoice, decodeChoiceValue, Except.map]

theorem Field.ReadAs.some {s : Shape} {a : s.Carrier} {c : Code} (k : String) (hs : s ≠ .literal)
    (h : Reads s a c) : (Field.optional k s).ReadAs (some a) (k, false, c) := by
  refine ⟨rfl, fun v hv src hsrc => ?_, nofun⟩
  have hnull : isNull (Tree.ofValue v) = false := by
    cases v with
    | null => exact absurd (h hv hsrc) (decode_null hsrc hs a)
    | bool | number | string | array | object => rfl
  rw [Field.decodeWith, hnull, h hv hsrc]
  rfl

/-- The members stand for the fields, one by one. -/
inductive MembersOf : (fs : List Field) → Values fs → List Member → Prop
  | nil : MembersOf [] () []
  | cons {f : Field} {fs : List Field} {a : f.Carrier} {as : Values fs} {m : Member}
      {ms : List Member} :
    f.ReadAs a m → MembersOf fs as ms → MembersOf (f :: fs) (a, as) (m :: ms)

theorem MembersOf.keys {fs : List Field} {as : Values fs} {ms : List Member}
    (h : MembersOf fs as ms) : ms.map Prod.fst = fs.map Field.key := by
  induction h with
  | nil => rfl
  | cons hm _ ih => rw [List.map_cons, List.map_cons, hm.key, ih]

theorem WritesEntries.keys {ms : List Member} : ∀ {es : List (String × Value)},
    WritesEntries ms es → (es.map Prod.fst).Sublist (ms.map Prod.fst)
  | _, .nil => .slnil
  | _, .written _ h => h.keys.cons_cons _
  | _, .omitted h => h.keys.cons _

/-! ## Arrays of fields -/

theorem decodeArray_written {fs : List Field} {as : Values fs} {ms : List Member}
    (h : MembersOf fs as ms) {vs : List Value} (hvs : WritesItems (ms.map fun m => m.2.2) vs)
    {src : Source} (hsrc : src.Plain) (expected : String) (count : Nat) :
    decodeArray src expected fs count (Items.ofValues vs) = .ok as := by
  induction h generalizing vs count with
  | nil =>
    cases hvs
    cases src with
    | text n => exact absurd rfl (hsrc n)
    | value | buffered => rfl
  | cons hm _ ih =>
    cases hvs with
    | cons hv hvs =>
      simp only [Items.ofValues, decodeArray, hm.value hv hsrc, ih hvs]
      rfl

/-! ## Objects of fields -/

/-- The values of the fields whose keys have been seen. -/
def Values.slots (seen : List String) : {fs : List Field} → Values fs → Slots fs
  | [], _ => ()
  | f :: _, (a, as) => (if f.key ∈ seen then some a else none, slots seen as)

/-- Every field and its value have the property. -/
def Values.Holds (P : (f : Field) → f.Carrier → Prop) : {fs : List Field} → Values fs → Prop
  | [], _ => True
  | f :: _, (a, as) => P f a ∧ Holds P as

theorem Values.Holds.imp {P Q : (f : Field) → f.Carrier → Prop} : ∀ {fs : List Field}
    {as : Values fs}, (∀ f ∈ fs, ∀ a, P f a → Q f a) → as.Holds P → as.Holds Q
  | [], _, _, _ => trivial
  | f :: _, (a, _), himp, h =>
    ⟨himp f List.mem_cons_self a h.1, h.2.imp fun g hg => himp g (List.mem_cons_of_mem _ hg)⟩

theorem Values.slots_nil : ∀ {fs : List Field} (as : Values fs), as.slots [] = Slots.empty fs
  | [], _ => rfl
  | f :: fs, (a, as) => by
    rw [slots, Slots.empty, slots_nil as, if_neg List.not_mem_nil]

theorem Values.slots_unknown {key : String} {seen : List String} : ∀ {fs : List Field}
    (as : Values fs), key ∉ fs.map Field.key → as.slots (key :: seen) = as.slots seen
  | [], _, _ => rfl
  | f :: fs, (a, as), h => by
    obtain ⟨hf, hfs⟩ : key ≠ f.key ∧ key ∉ fs.map Field.key := by simpa using h
    have hmem : f.key ∈ key :: seen ↔ f.key ∈ seen := by simp [hf.symm]
    simp only [slots, hmem, slots_unknown as hfs]

section
variable {key : String} {dup : Failure} {read : (f : Field) → Except Failure f.Carrier}

theorem put_unknown : ∀ {fs : List Field} (slots : Slots fs), key ∉ fs.map Field.key →
    Slots.put key dup read fs slots = .ok none
  | [], _, _ => rfl
  | f :: fs, (slot, slots), h => by
    obtain ⟨hf, hfs⟩ : key ≠ f.key ∧ key ∉ fs.map Field.key := by simpa using h
    unfold Slots.put
    rw [if_neg hf.symm, put_unknown slots hfs]
    rfl

theorem put_known {seen : List String} (hseen : key ∉ seen) : ∀ {fs : List Field} (as : Values fs),
    (fs.map Field.key).Nodup → key ∈ fs.map Field.key →
    as.Holds (fun f a => f.key = key → read f = .ok a) →
      Slots.put key dup read fs (as.slots seen) = .ok (some (as.slots (key :: seen)))
  | f :: fs, (a, as), hnodup, hkey, h => by
    obtain ⟨hf, hnodup⟩ := List.nodup_cons.1 hnodup
    unfold Slots.put
    by_cases hk : f.key = key
    · subst hk
      simp only [Values.slots, if_neg hseen, if_pos List.mem_cons_self, h.1 rfl,
        as.slots_unknown hf]
      rfl
    · have hmem : f.key ∈ key :: seen ↔ f.key ∈ seen := by simp [hk]
      have hfs : key ∈ fs.map Field.key := by simpa [Ne.symm hk] using hkey
      simp only [Values.slots, if_neg hk, hmem, put_known hseen as hnodup hfs h.2]
      rfl

end

theorem finish_slots {seen : List String} : ∀ {fs : List Field} (as : Values fs),
    as.Holds (fun f a => f.key ∈ seen ∨ f.absent = some a) →
      Slots.finish fs (as.slots seen) = .ok as
  | [], _, _ => rfl
  | f :: fs, (a, as), h => by
    unfold Slots.finish
    by_cases hf : f.key ∈ seen
    · simp only [Values.slots, if_pos hf, finish_slots as h.2]
      rfl
    · simp only [Values.slots, if_neg hf, h.1.resolve_left hf, finish_slots as h.2]
      rfl

/-- The fields are read from an object that repeats no key, in whatever order its
    entries stand, if what is missing has its default value. -/
theorem decodeObject_entries {src : Source} (hsrc : src.Plain) {fs : List Field} (as : Values fs)
    (hfs : (fs.map Field.key).Nodup) : ∀ (es : List (String × Value)) (seen : List String),
      (es.map Prod.fst).Nodup → (∀ k ∈ es.map Prod.fst, k ∉ seen) →
      as.Holds (fun f a => ∀ v, (f.key, v) ∈ es → f.decodeWith (isNull (Tree.ofValue v))
        (fun s => decode src (Tree.ofValue v) s) = .ok a) →
      as.Holds (fun f a => f.key ∈ seen ∨ f.key ∈ es.map Prod.fst ∨ f.absent = some a) →
      decodeObject src fs (as.slots seen) (Entries.ofEntries es) = .ok as
  | [], seen, _, _, _, hfound => by
    have hfinish : Slots.finish fs (as.slots seen) = .ok as :=
      finish_slots as (hfound.imp fun f _ a h => h.imp_right fun h => by simpa using h)
    simp only [Entries.ofEntries, decodeObject, hfinish]
  | (k, v) :: es, seen, hnodup, hseen, hread, hfound => by
    obtain ⟨hk, hnodup⟩ := List.nodup_cons.1 hnodup
    obtain ⟨hkseen, hseen⟩ := List.forall_mem_cons.1 hseen
    -- the rest of the object, after `k` has been seen
    have hrest : decodeObject src fs (as.slots (k :: seen)) (Entries.ofEntries es) = .ok as := by
      refine decodeObject_entries hsrc as hfs es (k :: seen) hnodup ?_ ?_ ?_
      · intro l hl hmem
        rcases List.mem_cons.1 hmem with rfl | hmem
        · exact hk hl
        · exact hseen l hl hmem
      · exact hread.imp fun f _ a h w hw => h w (List.mem_cons_of_mem _ hw)
      · refine hfound.imp fun f _ a h => ?_
        simp only [List.map_cons, List.mem_cons] at h ⊢
        tauto
    simp only [Entries.ofEntries, decodeObject]
    by_cases hfield : k ∈ fs.map Field.key
    · rw [put_known hkseen as hfs hfield]
      · exact hrest
      · refine hread.imp fun f _ a h hf => ?_
        rw [h v (by simp [hf])]
        rfl
    · rw [put_unknown _ hfield]
      rw [as.slots_unknown hfield] at hrest
      cases src with
      | text n => exact absurd rfl (hsrc n)
      | value | buffered => exact hrest

/-- Each field is read from its entry, and has its default value if there is none. -/
theorem MembersOf.entries {fs : List Field} {as : Values fs} {ms : List Member}
    (h : MembersOf fs as ms) (hfs : (fs.map Field.key).Nodup) {es : List (String × Value)}
    (hes : WritesEntries ms es) :
    as.Holds fun f a => (∀ v, (f.key, v) ∈ es → ∃ m, f.ReadAs a m ∧ Writes m.2.2 v) ∧
      (f.key ∈ es.map Prod.fst ∨ f.absent = some a) := by
  induction h generalizing es with
  | nil => trivial
  | @cons f fs a as m ms hm hms ih =>
    obtain ⟨hf, hfs⟩ := List.nodup_cons.1 hfs
    -- the other members have other keys
    have hother : ∀ {es : List (String × Value)}, WritesEntries ms es → f.key ∉ es.map Prod.fst :=
      fun hes hmem => hf (hms.keys ▸ hes.keys.subset hmem)
    cases hes with
    | @written k o c v _ es hv hes =>
      have hk : k = f.key := hm.key
      refine ⟨⟨fun w hw => ?_, Or.inl (by simp [hk])⟩, (ih hfs hes).imp fun g hg b h => ⟨fun w hw => ?_, ?_⟩⟩
      · rcases List.mem_cons.1 hw with heq | hw
        · obtain ⟨-, rfl⟩ := Prod.mk.inj heq
          exact ⟨_, hm, hv⟩
        · exact absurd (List.mem_map_of_mem hw) (hother hes)
      · have hne : g.key ≠ k := fun h => hf (hk ▸ h ▸ List.mem_map_of_mem hg)
        exact h.1 w (by simpa [hne] using hw)
      · exact h.2.imp_left fun hmem => List.mem_cons_of_mem _ hmem
    | omitted hes =>
      refine ⟨⟨fun w hw => ?_, Or.inr (hm.absent rfl)⟩, ih hfs hes⟩
      exact absurd (List.mem_map_of_mem hw) (hother hes)

theorem decodeObject_written {fs : List Field} {as : Values fs} {ms : List Member}
    (h : MembersOf fs as ms) (hfs : (fs.map Field.key).Nodup) {es es' : List (String × Value)}
    (hes : WritesEntries ms es) (hnodup : (es'.map Prod.fst).Nodup)
    (hmem : ∀ e, e.1 ∈ fs.map Field.key → (e ∈ es ↔ e ∈ es')) {src : Source} (hsrc : src.Plain) :
    decodeObject src fs (Slots.empty fs) (Entries.ofEntries es') = .ok as := by
  have hentries := h.entries hfs hes
  rw [← as.slots_nil]
  refine decodeObject_entries hsrc as hfs es' [] hnodup (by simp) ?_ ?_
  · refine hentries.imp fun f hf a h v hv => ?_
    obtain ⟨m, hm, hv⟩ := h.1 v ((hmem _ (List.mem_map_of_mem hf)).2 hv)
    exact hm.value hv hsrc
  · refine hentries.imp fun f hf a h => Or.inr (h.2.imp_left fun hkey => ?_)
    obtain ⟨⟨k, v⟩, hv, rfl⟩ := List.mem_map.1 hkey
    exact List.mem_map_of_mem ((hmem _ (List.mem_map_of_mem hf)).1 hv)

/-! ## Structures -/

theorem Record.keys_nodup (r : Record) : (r.layout.fields.map Field.key).Nodup := by
  cases r <;> decide

theorem Reads.record {r : Record} {a : r.Carrier} {as : Values r.layout.fields} {ms : List Member}
    (h : MembersOf r.layout.fields as ms) (ha : r.layout.build as = a) :
    Reads (.record r) a (.record ms) := by
  subst ha
  intro v hv src hsrc
  cases hv with
  | recordArray hvs =>
    simp only [Tree.ofValue, decode, hsrc.enter]
    exact congrArg (Except.map _) (decodeArray_written h hvs hsrc _ 0)
  | @recordObject _ es es' hes hperm =>
    have hnodup : (es.map Prod.fst).Nodup := (h.keys ▸ r.keys_nodup).sublist hes.keys
    simp only [Tree.ofValue, decode, hsrc.enter]
    exact congrArg (Except.map _) (decodeObject_written h r.keys_nodup hes
      ((hperm.map Prod.fst).nodup hnodup) (fun _ _ => hperm.mem_iff) hsrc)

/-! ## Nodes -/

section
variable {src : Source} (hsrc : src.Plain) {tags : List String} {tag : String} {i : Nat}
include hsrc

theorem readPart_plain (t : Tree) : readPart src t = .ok () := by
  cases src with
  | text n => exact absurd rfl (hsrc n)
  | value | buffered => rfl

theorem findTag_other {k : String} (hk : k ≠ tagKey) (seen : Option Nat) (v : Value)
    (es : List (String × Value)) :
    findTag src tags seen (Entries.ofEntries ((k, v) :: es)) =
      findTag src tags seen (Entries.ofEntries es) := by
  simp only [Entries.ofEntries, findTag, if_neg hk, readPart_plain hsrc]
  rfl

theorem findTag_seen : ∀ {es : List (String × Value)}, tagKey ∉ es.map Prod.fst →
    findTag src tags (some i) (Entries.ofEntries es) = .ok i
  | [], _ => by simp only [Entries.ofEntries, findTag]
  | (k, v) :: es, h => by
    obtain ⟨hk, hes⟩ : tagKey ≠ k ∧ tagKey ∉ es.map Prod.fst := by simpa using h
    rw [findTag_other hsrc hk.symm, findTag_seen hes]

theorem findTag_written (htag : tags.findIdx? (· = tag) = some i) :
    ∀ {es : List (String × Value)}, (es.map Prod.fst).Nodup → (tagKey, .string tag) ∈ es →
      findTag src tags none (Entries.ofEntries es) = .ok i
  | (k, v) :: es, hnodup, hmem => by
    obtain ⟨hkes, hnodup⟩ := List.nodup_cons.1 hnodup
    by_cases hk : k = tagKey
    · subst hk
      obtain rfl : v = .string tag := by
        rcases List.mem_cons.1 hmem with heq | hmem
        · exact (Prod.mk.inj heq).2.symm
        · exact absurd (List.mem_map_of_mem hmem) hkes
      simp only [Entries.ofEntries, Tree.ofValue, findTag, decodeTag, htag, if_pos]
      exact findTag_seen hsrc hkes
    · rw [findTag_other hsrc hk]
      exact findTag_written htag hnodup (by simpa [Ne.symm hk] using hmem)

theorem firstTag_written (htag : tags.findIdx? (· = tag) = some i) (items : Items) :
    firstTag src tags (.item 0 (.string (.ok tag) 0 0) items) = .ok (i, items) := by
  simp only [firstTag, decodeTag, htag]
  cases src with
  | text n => exact absurd rfl (hsrc n)
  | value | buffered => rfl

end

section
variable {α : Type} {variants : List (Variant α)} {w : Variant α} {i : Nat}
  (htags : (variants.map Variant.tag).Nodup) (hw : variants[i]? = some w)
include htags hw

theorem findIdx?_tag : (variants.map Variant.tag).findIdx? (· = w.tag) = some i := by
  obtain ⟨hi, rfl⟩ := List.getElem?_eq_some_iff.1 hw
  have hlength : i < (variants.map Variant.tag).length := by simpa using hi
  refine List.findIdx?_eq_some_iff_getElem.2 ⟨hlength, by simp, fun j hj htag => ?_⟩
  have hji := (@List.Nodup.getElem_inj_iff _ _ htags j (by omega) i hlength).1 (by simpa using htag)
  omega

end

/-- In an object the tag hides no member, and the members do not hide the tag. -/
theorem MembersOf.node_entries {fs : List Field} {as : Values fs} {ms : List Member}
    (h : MembersOf fs as ms) (hkeys : (tagKey :: fs.map Field.key).Nodup)
    {es es' : List (String × Value)} (hes : WritesEntries ms es) {tag : String}
    (hperm : ((tagKey, .string tag) :: es).Perm es') :
    (es'.map Prod.fst).Nodup ∧
      ∀ e : String × Value, e.1 ∈ fs.map Field.key → (e ∈ es ↔ e ∈ es') := by
  obtain ⟨htag, hfs⟩ := List.nodup_cons.1 hkeys
  refine ⟨(hperm.map Prod.fst).nodup (List.nodup_cons.2 ⟨fun hmem => htag ?_, ?_⟩), fun e he => ?_⟩
  · exact h.keys ▸ hes.keys.subset hmem
  · exact (h.keys ▸ hfs).sublist hes.keys
  · have hne : e ≠ (tagKey, .string tag) := fun heq => htag (by rw [heq] at he; exact he)
    rw [← hperm.mem_iff, List.mem_cons, or_iff_right hne]

/-- **Nodes** of both families are read from arrays and from objects. -/
theorem Reads.node (n : NodeFamily) (i : Nat) {w : Variant n.shape.Carrier} {a : n.shape.Carrier}
    {as : Values w.layout.fields} {tag : String} {ms : List Member} (hw : n.variants[i]? = some w)
    (h : MembersOf w.layout.fields as ms) (ha : w.layout.build as = a) (ht : w.tag = tag) :
    Reads n.shape a (.node tag ms) := by
  subst ha ht
  intro v hv src hsrc
  have htag := findIdx?_tag n.tags_nodup hw
  have hkeys := n.keys_nodup w (List.mem_of_getElem? hw)
  cases hv with
  | nodeArray hvs =>
    have hfields := decodeArray_written h hvs Source.plain_buffered w.layout.elements 0
    rw [Tree.ofValue, n.decode_array hsrc, Items.ofValues, Variant.ofArray]
    refine bind_eq_ok.2 ⟨_, firstTag_written hsrc htag _, ?_⟩
    simp only [hw]
    exact map_eq_ok.2 ⟨as, hfields, rfl⟩
  | nodeObject hes hperm =>
    obtain ⟨hnodup, hmem⟩ := h.node_entries hkeys hes hperm
    have hfound := findTag_written hsrc htag hnodup (hperm.subset List.mem_cons_self)
    have hfields := decodeObject_written h (List.nodup_cons.1 hkeys).2 hes hnodup hmem
      Source.plain_buffered
    rw [Tree.ofValue, n.decode_object hsrc, Variant.ofObject]
    refine bind_eq_ok.2 ⟨i, hfound, ?_⟩
    simp only [hw]
    exact map_eq_ok.2 ⟨as, hfields, rfl⟩

end TreeDoc.Decode
