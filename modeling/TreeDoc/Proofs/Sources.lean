/-
  A shape read from a text and from the value of this text.

  The decoder treats texts, values and nodes that have been read differently: it
  enters arrays and objects of a text only so far, skips unknown entries of a text
  without reading them, and words and places most failures otherwise. From a text
  without faults that is not too deep it still reads the same as from its value.

  * `Mirrors`, `Source.Admits`: sources that are compared, and how deep a value may
    be in a source;
  * `skip_of_denotes`: nothing is wrong with what is skipped;
  * `NodeFamily.object_of_denotes`, `NodeFamily.array_of_denotes`: a node, if its fields
    are read alike;
  * `decode_of_denotes`: what is read from a tree without faults is what is read
    from its value;
  * `decodeFirst_spells_iff`, `loadFile_text_iff`: so it is for a text, and for a file
    that holds it, and the value that it spells.
-/
import TreeDoc.Load
import TreeDoc.Proofs.JsonReader
import TreeDoc.Proofs.NodeFamilies

namespace TreeDoc.Decode

open Json Program

/-! ## Results without the reason of a failure -/

section
variable {ε ε' α β : Type}

theorem toOption_bind (x : Except ε α) (f : α → Except ε β) :
    (x >>= f).toOption = x.toOption.bind fun a => (f a).toOption := by cases x <;> rfl

theorem toOption_map (x : Except ε α) (f : α → β) : (x.map f).toOption = x.toOption.map f := by
  cases x <;> rfl

theorem toOption_mapError (x : Except ε α) (f : ε → ε') : (x.mapError f).toOption = x.toOption := by
  cases x <;> rfl

theorem toOption_eq_some {x : Except ε α} {a : α} : x.toOption = some a ↔ x = .ok a := by
  cases x <;> simp [Except.toOption]

end

/-! ## Sources -/

/-- The sources by which a text and its value are read: first the text itself and
    the value itself, then nodes that have been read from either. -/
inductive Mirrors : Source → Source → Prop
  | start {n : Nat} : Mirrors (.text n) .value
  | node : Mirrors .buffered .buffered

/-- A value of this depth can be read from the source. -/
def Source.Admits (src : Source) (depth : Nat) : Prop := ∀ n, src = .text n → depth ≤ n

theorem Source.Admits.mono {src : Source} {d e : Nat} (h : src.Admits e) (hde : d ≤ e) :
    src.Admits d := fun n hn => Nat.le_trans hde (h n hn)

theorem Source.admits_buffered (d : Nat) : Source.buffered.Admits d := nofun

/-- Arrays and objects that are not too deep are entered. -/
theorem Mirrors.enter {src src' : Source} {d : Nat} (h : Mirrors src src')
    (hd : src.Admits (d + 1)) (p q : Nat) :
    ∃ inner inner', src.enter p = .ok inner ∧ src'.enter q = .ok inner' ∧ Mirrors inner inner' ∧
      inner.Admits d := by
  cases h with
  | @start n =>
    obtain ⟨m, rfl⟩ : ∃ m, n = m + 1 := ⟨n - 1, by have := hd n rfl; omega⟩
    refine ⟨_, _, rfl, rfl, .start, ?_⟩
    rintro _ ⟨⟩
    have := hd (m + 1) rfl
    omega
  | node => exact ⟨_, _, rfl, rfl, .node, Source.admits_buffered d⟩

/-! ## Skipping -/

mutual

theorem skip_of_denotes : ∀ {t : Tree} {v : Value}, Denotes t v → t.skip = none
  | _, _, .null | _, _, .bool | _, _, .number | _, _, .string => by rw [Tree.skip]
  | _, _, .array h => by rw [Tree.skip, skipItems_of_denotes h]
  | _, _, .object h => by rw [Tree.skip, skipEntries_of_denotes h]

theorem skipItems_of_denotes : ∀ {items : Items} {vs : List Value}, DenotesItems items vs →
    items.skip = none
  | _, _, .close => by rw [Items.skip]
  | _, _, .item ht h => by
    rw [Items.skip, skip_of_denotes ht, skipItems_of_denotes h]
    rfl

theorem skipEntries_of_denotes : ∀ {entries : Entries} {es : List (String × Value)},
    DenotesEntries entries es → entries.skip = none
  | _, _, .close => by rw [Entries.skip]
  | _, _, .entry ht h => by
    rw [Entries.skip, skip_of_denotes ht, skipEntries_of_denotes h]
    rfl

end

/-! ## Scalars and tags -/

section
variable {src src' : Source} {t : Tree} {v : Value}

theorem decodeString_of_denotes (src src' : Source) (h : Denotes t v) :
    (decodeString src t).toOption = (decodeString src' (Tree.ofValue v)).toOption := by
  cases h <;> rfl

theorem decodeBool_of_denotes (src src' : Source) (h : Denotes t v) :
    (decodeBool src t).toOption = (decodeBool src' (Tree.ofValue v)).toOption := by
  cases h <;> rfl

theorem decodeNat_of_denotes (src src' : Source) (h : Denotes t v) (bits : Nat)
    (expected : String) :
    (decodeNat src bits expected t).toOption =
      (decodeNat src' bits expected (Tree.ofValue v)).toOption := by
  cases h with
  | @number n =>
    cases n with
    | int n =>
      rw [Tree.ofValue, decodeNat, decodeNat]
      split <;> rfl
    | float x => rfl
  | null | bool | string | array _ | object _ => rfl

theorem literal?_of_denotes (h : Denotes t v) : literal? t = literal? (Tree.ofValue v) := by
  cases h with
  | @number n => cases n <;> rfl
  | null | bool | string | array _ | object _ => rfl

theorem decodeLiteral_toOption (h : Denotes t v) (hd : src.Admits v.depth) :
    (decodeLiteral src t).toOption = literal? t := by
  cases src with
  | text n =>
    rw [decodeLiteral, read_of_denotes h (hd n rfl)]
    cases literal? t <;> rfl
  | value | buffered =>
    unfold decodeLiteral
    cases literal? t <;> rfl

theorem isNull_of_denotes (h : Denotes t v) : isNull t = isNull (Tree.ofValue v) := by
  cases h <;> rfl

theorem decodeUnit_of_denotes (h : Denotes t v) (hm : Mirrors src src') :
    (decodeUnit src t).toOption = (decodeUnit src' (Tree.ofValue v)).toOption := by
  cases h with
  | object hes =>
    cases hes with
    | close => cases hm <;> rfl
    | entry _ _ => rfl
  | null | bool | number | string | array _ => rfl

theorem decodeMember_toOption {α : Type} (variants : List (String × α)) (name : String)
    (p : Nat) : (decodeMember src variants name p).toOption = Assoc.get? name variants := by
  rw [decodeMember]
  cases Assoc.get? name variants <;> rfl

theorem decodeTag_of_denotes (h : Denotes t v) (hm : Mirrors src src') (tags : List String) :
    (decodeTag src tags t).toOption = (decodeTag src' tags (Tree.ofValue v)).toOption := by
  cases h with
  | @string s =>
    rw [Tree.ofValue, decodeTag, decodeTag]
    split <;> rfl
  | @number n =>
    cases n with
    | int n =>
      rw [Tree.ofValue, decodeTag, decodeTag]
      cases hm with
      | start => rfl
      | node =>
        split
        · split <;> rfl
        · rfl
    | float x => rfl
  | null | bool | array _ | object _ => rfl

theorem readPart_of_denotes (h : Denotes t v) (hd : src.Admits v.depth) :
    readPart src t = .ok () := by
  cases src with
  | text n =>
    rw [readPart, read_of_denotes h (hd n rfl)]
    rfl
  | value | buffered => rfl

end

/-! ## Enumerations -/

section
variable {src src' : Source} {t : Tree} {v : Value}

theorem decodeEntryText_of_denotes {α : Type} {variants : List (String × α)} {entries : Entries}
    {es : List (String × Value)} {n p : Nat} (h : DenotesEntries entries es) :
    (decodeEntryText (.text n) variants entries).toOption =
      (decodeChoiceValue .value variants (.object p (Entries.ofEntries es))).toOption := by
  cases h with
  | close => rfl
  | entry ht hes =>
    rw [decodeEntryText, toOption_bind]
    show Option.bind (some _) _ = _
    simp only [Option.bind_some, toOption_bind, decodeMember_toOption, decodeUnit_of_denotes ht .start]
    cases hes with
    | close =>
      simp only [Entries.ofEntries, decodeChoiceValue, toOption_bind, decodeMember_toOption]
    | entry _ _ => simp [Entries.ofEntries, decodeChoiceValue, Except.toOption]

theorem decodeChoiceValue_of_denotes {α : Type} {variants : List (String × α)}
    (h : Denotes t v) :
    (decodeChoiceValue .buffered variants t).toOption =
      (decodeChoiceValue .buffered variants (Tree.ofValue v)).toOption := by
  cases h with
  | string => simp only [Tree.ofValue, decodeChoiceValue, decodeMember_toOption]
  | object hes =>
    cases hes with
    | close => rfl
    | entry ht hes =>
      cases hes with
      | close =>
        simp only [Tree.ofValue, Entries.ofEntries, decodeChoiceValue, toOption_bind,
          decodeMember_toOption, decodeUnit_of_denotes ht .node]
      | entry _ _ => rfl
  | null | bool | number | array _ => rfl

theorem decodeChoice_of_denotes (h : Denotes t v) (hm : Mirrors src src')
    (hd : src.Admits v.depth) (c : Choice) :
    (decodeChoice src c t).toOption = (decodeChoice src' c (Tree.ofValue v)).toOption := by
  cases hm with
  | node => exact decodeChoiceValue_of_denotes h
  | @start n =>
    show (decodeChoiceText (.text n) c.variants t).toOption =
      (decodeChoiceValue .value c.variants (Tree.ofValue v)).toOption
    cases h with
    | string => simp only [Tree.ofValue, decodeChoiceText, decodeChoiceValue, decodeMember_toOption]
    | @object p _ es hes =>
      have hdepth : Source.Admits (.text n) (entriesDepth es + 1) := by
        rwa [Value.depth] at hd
      obtain ⟨inner, inner', henter, -, hinner, -⟩ := Mirrors.start.enter hdepth p 0
      rw [decodeChoiceText, henter, Tree.ofValue]
      cases hinner with
      | start => exact decodeEntryText_of_denotes hes
      | node => cases n <;> cases henter
    | null | bool | number | array _ => rfl

end

/-! ## The tags of nodes -/

mutual

theorem denotes_ofValue : ∀ v : Value, Denotes (Tree.ofValue v) v
  | .null => by rw [Tree.ofValue]; exact .null
  | .bool _ => by rw [Tree.ofValue]; exact .bool
  | .number _ => by rw [Tree.ofValue]; exact .number
  | .string _ => by rw [Tree.ofValue]; exact .string
  | .array vs => by rw [Tree.ofValue]; exact .array (denotes_ofValues vs)
  | .object es => by rw [Tree.ofValue]; exact .object (denotes_ofEntries es)

theorem denotes_ofValues : ∀ vs : List Value, DenotesItems (Items.ofValues vs) vs
  | [] => by rw [Items.ofValues]; exact .close
  | v :: vs => by rw [Items.ofValues]; exact .item (denotes_ofValue v) (denotes_ofValues vs)

theorem denotes_ofEntries : ∀ es : List (String × Value), DenotesEntries (Entries.ofEntries es) es
  | [] => by rw [Entries.ofEntries]; exact .close
  | (_, v) :: es => by
    rw [Entries.ofEntries]
    exact .entry (denotes_ofValue v) (denotes_ofEntries es)

end

section
variable {src src' : Source} (hm : Mirrors src src') (tags : List String)
include hm

theorem Mirrors.admits (d : Nat) : src'.Admits d := by
  cases hm <;> nofun

theorem findTag_of_denotes : ∀ {entries : Entries} {es : List (String × Value)},
    DenotesEntries entries es → src.Admits (entriesDepth es) → ∀ seen : Option Nat,
      (findTag src tags seen entries).toOption =
        (findTag src' tags seen (Entries.ofEntries es)).toOption
  | _, _, .close, _, seen => by
    rw [Entries.ofEntries]
    cases seen <;> rfl
  | _, _, @DenotesEntries.entry _ _ k t v entries es ht h, hd, seen => by
    rw [entriesDepth] at hd
    have hv : src.Admits v.depth := hd.mono (Nat.le_max_left _ _)
    have hes : src.Admits (entriesDepth es) := hd.mono (Nat.le_max_right _ _)
    simp only [Entries.ofEntries, findTag]
    by_cases hk : k = tagKey
    · rw [if_pos hk, if_pos hk]
      cases seen with
      | some i => rfl
      | none =>
        simp only [toOption_bind, toOption_mapError, decodeTag_of_denotes ht hm,
          findTag_of_denotes h hes]
    · rw [if_neg hk, if_neg hk, readPart_of_denotes ht hv,
        readPart_of_denotes (denotes_ofValue v) (hm.admits _)]
      exact findTag_of_denotes h hes seen

omit hm in
theorem firstTag_toOption {items : Items} {vs : List Value} (h : DenotesItems items vs)
    (hd : src.Admits (itemsDepth vs)) (t : Tree) (p : Nat) :
    (firstTag src tags (.item p t items)).toOption =
      (decodeTag src tags t).toOption.map (·, items) := by
  rw [firstTag, toOption_bind, toOption_mapError]
  cases (decodeTag src tags t).toOption with
  | none => rfl
  | some i =>
    cases src with
    | text n =>
      show (readItems n 1 items >>= fun _ => pure (i, items)).toOption = some (i, items)
      rw [readItems_of_denotes h (hd n rfl)]
      rfl
    | value | buffered => rfl

variable {α : Type} {variants : List (Variant α)}

theorem ofObject_of_denotes {entries : Entries} {es : List (String × Value)}
    (h : DenotesEntries entries es) (hd : src.Admits (entriesDepth es))
    (hfields : ∀ fs : List Field, (decodeObject .buffered fs (Slots.empty fs) entries).toOption =
      (decodeObject .buffered fs (Slots.empty fs) (Entries.ofEntries es)).toOption) :
    (Variant.ofObject variants src entries).toOption =
      (Variant.ofObject variants src' (Entries.ofEntries es)).toOption := by
  rw [Variant.ofObject, Variant.ofObject, toOption_bind, toOption_bind, findTag_of_denotes hm _ h hd]
  refine congrArg (Option.bind _) (funext fun i => ?_)
  cases variants[i]? with
  | none => rfl
  | some w => simp only [toOption_map, hfields]

theorem ofArray_of_denotes {t : Tree} {v : Value} {items : Items} {vs : List Value}
    (ht : Denotes t v) (h : DenotesItems items vs) (hd : src.Admits (itemsDepth vs))
    (hfields : ∀ expected fs, (decodeArray .buffered expected fs 0 items).toOption =
      (decodeArray .buffered expected fs 0 (Items.ofValues vs)).toOption) (p : Nat) :
    (Variant.ofArray variants src (.item p t items)).toOption =
      (Variant.ofArray variants src' (Items.ofValues (v :: vs))).toOption := by
  rw [Items.ofValues, Variant.ofArray, Variant.ofArray, toOption_bind, toOption_bind,
    firstTag_toOption _ h hd, firstTag_toOption _ (denotes_ofValues vs) (hm.admits _),
    decodeTag_of_denotes ht hm, Option.bind_map, Option.bind_map]
  refine congrArg (Option.bind _) (funext fun i => ?_)
  simp only [Function.comp_apply]
  cases variants[i]? with
  | none => rfl
  | some w => simp only [toOption_map, hfields]

end

/-! ## Shapes -/

theorem decodeWith_toOption (null : Bool) {read read' : (s : Shape) → Except Failure s.Carrier}
    (h : ∀ s, (read s).toOption = (read' s).toOption) (f : Field) :
    (f.decodeWith null read).toOption = (f.decodeWith null read').toOption := by
  cases f with
  | required k s => exact h s
  | defaulted k s => exact h s
  | optional k s =>
    rw [Field.decodeWith, Field.decodeWith]
    cases null with
    | true => rfl
    | false =>
      show ((read s).map some).toOption = ((read' s).map some).toOption
      rw [toOption_map, toOption_map, h]

theorem put_toOption {key : String} {dup dup' : Failure}
    {read read' : (f : Field) → Except Failure f.Carrier}
    (h : ∀ f, (read f).toOption = (read' f).toOption) : ∀ (fs : List Field) (slots : Slots fs),
      (Slots.put key dup read fs slots).toOption = (Slots.put key dup' read' fs slots).toOption
  | [], _ => rfl
  | f :: fs, (slot, slots) => by
    unfold Slots.put
    split
    · cases slot with
      | some _ => rfl
      | none =>
        show ((read f).map _).toOption = ((read' f).map _).toOption
        rw [toOption_map, toOption_map, h]
    · rw [toOption_map, toOption_map, put_toOption h fs slots]

theorem shortfall_toOption {src src' : Source} {expected : String} {count p q : Nat}
    {fs : List Field} : (shortfall src expected count fs (.close p)).toOption =
      (shortfall src' expected count fs (.close q)).toOption := by
  rw [shortfall, shortfall]
  cases Values.absent count fs <;> rfl

theorem decodeArray_close {src src' : Source} {expected : String} {count p q : Nat} :
    ∀ fs : List Field, (decodeArray src expected fs count (.close p)).toOption =
      (decodeArray src' expected fs count (.close q)).toOption
  | [] => by cases src <;> cases src' <;> rfl
  | f :: fs => shortfall_toOption

theorem Mirrors.enter_toOption {src src' : Source} {α : Type} {d p q : Nat}
    {read read' : Source → Except Failure α} (hm : Mirrors src src') (hd : src.Admits (d + 1))
    (h : ∀ {inner inner' : Source}, Mirrors inner inner' → inner.Admits d →
      (read inner).toOption = (read' inner').toOption) :
    (src.enter p >>= read).toOption = (src'.enter q >>= read').toOption := by
  obtain ⟨inner, inner', henter, henter', hinner, hdepth⟩ := hm.enter hd p q
  rw [henter, henter']
  exact h hinner hdepth

theorem decodeAttributes_of_denotes (src src' : Source) : ∀ {entries : Entries}
    {es : List (String × Value)}, DenotesEntries entries es → ∀ found : List (String × String),
      (decodeAttributes src found entries).toOption =
        (decodeAttributes src' found (Entries.ofEntries es)).toOption
  | _, _, .close, _ => by
    rw [Entries.ofEntries]
    rfl
  | _, _, .entry ht h, found => by
    simp only [Entries.ofEntries, decodeAttributes, toOption_bind, toOption_mapError,
      decodeString_of_denotes src src' ht, decodeAttributes_of_denotes src src' h]

/-! ## Nodes -/

section
variable (n : NodeFamily) {src src' : Source} (hm : Mirrors src src') (p : Nat)
include hm

theorem NodeFamily.object_of_denotes {entries : Entries} {es : List (String × Value)}
    (h : DenotesEntries entries es) (hd : src.Admits (Value.object es).depth)
    (hfields : ∀ fs : List Field, (decodeObject .buffered fs (Slots.empty fs) entries).toOption =
      (decodeObject .buffered fs (Slots.empty fs) (Entries.ofEntries es)).toOption) :
    (decode src (.object p entries) n.shape).toOption =
      (decode src' (Tree.ofValue (.object es)) n.shape).toOption := by
  rw [Value.depth] at hd
  rw [n.decode_eq, n.decode_eq, Tree.ofValue]
  exact hm.enter_toOption hd fun hm hd => ofObject_of_denotes hm h hd hfields

theorem NodeFamily.array_of_denotes {q : Nat} {t : Tree} {v : Value} {items : Items}
    {vs : List Value} (ht : Denotes t v) (h : DenotesItems items vs)
    (hd : src.Admits (Value.array (v :: vs)).depth)
    (hfields : ∀ expected fs, (decodeArray .buffered expected fs 0 items).toOption =
      (decodeArray .buffered expected fs 0 (Items.ofValues vs)).toOption) :
    (decode src (.array p (.item q t items)) n.shape).toOption =
      (decode src' (Tree.ofValue (.array (v :: vs))) n.shape).toOption := by
  rw [Value.depth, itemsDepth] at hd
  rw [n.decode_eq, n.decode_eq, Tree.ofValue]
  exact hm.enter_toOption hd fun hm hd =>
    ofArray_of_denotes hm ht h (hd.mono (Nat.le_max_right _ _)) hfields q

/-- From an empty array no node is read. -/
theorem NodeFamily.empty_of_denotes (q : Nat) (hd : src.Admits (Value.array []).depth) :
    (decode src (.array p (.close q)) n.shape).toOption =
      (decode src' (Tree.ofValue (.array [])) n.shape).toOption := by
  rw [Value.depth] at hd
  rw [n.decode_eq, n.decode_eq, Tree.ofValue, Items.ofValues]
  exact hm.enter_toOption hd fun _ _ => rfl

end

/-! ## Trees without faults -/

mutual

/-- **Reading a tree and its value.** From a tree without faults the decoder reads
    what it reads from its value, and nothing if there nothing is read. -/
theorem decode_of_denotes : ∀ {t : Tree} {v : Value}, Denotes t v → ∀ {src src' : Source},
    Mirrors src src' → src.Admits v.depth → ∀ s : Shape,
      (decode src t s).toOption = (decode src' (Tree.ofValue v) s).toOption
  | t, v, h, src, src', hm, hd, .text => by
    simp only [decode]
    exact decodeString_of_denotes src src' h
  | t, v, h, src, src', hm, hd, .flag => by
    simp only [decode]
    exact decodeBool_of_denotes src src' h
  | t, v, h, src, src', hm, hd, .position => by
    simp only [decode, toOption_map]
    rw [decodeNat_of_denotes src src' h]
  | t, v, h, src, src', hm, hd, .offset => by
    simp only [decode, toOption_map]
    rw [decodeNat_of_denotes src src' h]
  | t, v, h, src, src', hm, hd, .literal => by
    simp only [decode]
    rw [decodeLiteral_toOption h hd, decodeLiteral_toOption (denotes_ofValue v) (hm.admits _),
      literal?_of_denotes h]
  | t, v, h, src, src', hm, hd, .choice c => by
    simp only [decode]
    exact decodeChoice_of_denotes h hm hd c
  | _, _, .object h, src, src', hm, hd, .attributes => by
    rw [Value.depth] at hd
    simp only [Tree.ofValue, decode]
    exact hm.enter_toOption hd fun _ _ => decodeAttributes_of_denotes _ _ h []
  | _, _, .array h, src, src', hm, hd, .list s => by
    rw [Value.depth] at hd
    simp only [Tree.ofValue, decode]
    exact hm.enter_toOption hd fun hm hd => decodeItems_of_denotes h hm hd s 0
  | _, _, .array h, src, src', hm, hd, .record r => by
    rw [Value.depth] at hd
    simp only [Tree.ofValue, decode]
    refine hm.enter_toOption hd fun hm hd => ?_
    rw [toOption_map, toOption_map, decodeArray_of_denotes h hm hd]
  | _, _, .object h, src, src', hm, hd, .record r => by
    rw [Value.depth] at hd
    simp only [Tree.ofValue, decode]
    refine hm.enter_toOption hd fun hm hd => ?_
    rw [toOption_map, toOption_map, decodeObject_of_denotes h hm hd]
  | _, _, .array (.item ht h), _, _, hm, hd, .expr =>
    NodeFamily.array_of_denotes .expr hm _ ht h hd fun _ _ =>
      decodeArray_of_denotes h .node (Source.admits_buffered _)
  | _, _, .array (.item ht h), _, _, hm, hd, .stmt =>
    NodeFamily.array_of_denotes .stmt hm _ ht h hd fun _ _ =>
      decodeArray_of_denotes h .node (Source.admits_buffered _)
  | _, _, .object h, _, _, hm, hd, .expr =>
    NodeFamily.object_of_denotes .expr hm _ h hd fun _ =>
      decodeObject_of_denotes h .node (Source.admits_buffered _)
  | _, _, .object h, _, _, hm, hd, .stmt =>
    NodeFamily.object_of_denotes .stmt hm _ h hd fun _ =>
      decodeObject_of_denotes h .node (Source.admits_buffered _)
  | _, _, .array .close, _, _, hm, hd, .expr => NodeFamily.empty_of_denotes .expr hm _ _ hd
  | _, _, .array .close, _, _, hm, hd, .stmt => NodeFamily.empty_of_denotes .stmt hm _ _ hd
  | _, _, .null, _, _, _, _, .attributes | _, _, .bool, _, _, _, _, .attributes
  | _, _, .number, _, _, _, _, .attributes | _, _, .string, _, _, _, _, .attributes
  | _, _, .array _, _, _, _, _, .attributes | _, _, .null, _, _, _, _, .list _
  | _, _, .bool, _, _, _, _, .list _ | _, _, .number, _, _, _, _, .list _
  | _, _, .string, _, _, _, _, .list _ | _, _, .object _, _, _, _, _, .list _
  | _, _, .null, _, _, _, _, .record _ | _, _, .bool, _, _, _, _, .record _
  | _, _, .number, _, _, _, _, .record _ | _, _, .string, _, _, _, _, .record _
  | _, _, .null, _, _, _, _, .expr | _, _, .bool, _, _, _, _, .expr
  | _, _, .number, _, _, _, _, .expr | _, _, .string, _, _, _, _, .expr
  | _, _, .null, _, _, _, _, .stmt | _, _, .bool, _, _, _, _, .stmt
  | _, _, .number, _, _, _, _, .stmt | _, _, .string, _, _, _, _, .stmt => by
    simp only [Tree.ofValue, decode]
    rfl

theorem decodeItems_of_denotes : ∀ {items : Items} {vs : List Value}, DenotesItems items vs →
    ∀ {src src' : Source}, Mirrors src src' → src.Admits (itemsDepth vs) → ∀ (s : Shape) (i : Nat),
      (decodeItems src s i items).toOption = (decodeItems src' s i (Items.ofValues vs)).toOption
  | _, _, .close, _, _, _, _, _, _ => by
    simp only [Items.ofValues, decodeItems]
  | _, _, .item ht h, src, src', hm, hd, s, i => by
    rw [itemsDepth] at hd
    simp only [Items.ofValues, decodeItems, toOption_bind, toOption_mapError,
      decode_of_denotes ht hm (hd.mono (Nat.le_max_left _ _)) s,
      decodeItems_of_denotes h hm (hd.mono (Nat.le_max_right _ _)) s (i + 1)]

theorem decodeArray_of_denotes : ∀ {items : Items} {vs : List Value}, DenotesItems items vs →
    ∀ {src src' : Source}, Mirrors src src' → src.Admits (itemsDepth vs) →
    ∀ {expected : String} {fs : List Field} {count : Nat},
      (decodeArray src expected fs count items).toOption =
        (decodeArray src' expected fs count (Items.ofValues vs)).toOption
  | _, _, .close, _, _, _, _, _, fs, _ => by
    rw [Items.ofValues]
    exact decodeArray_close fs
  | _, _, .item ht h, src, src', hm, hd, _, [], _ => by
    simp only [Items.ofValues, decodeArray]
    cases hm <;> rfl
  | _, _, .item ht h, src, src', hm, hd, _, f :: fs, _ => by
    rw [itemsDepth] at hd
    have hfield := fun null => decodeWith_toOption null
      (fun s => decode_of_denotes ht hm (hd.mono (Nat.le_max_left _ _)) s) f
    simp only [Items.ofValues, decodeArray, toOption_bind, toOption_mapError, isNull_of_denotes ht,
      hfield, decodeArray_of_denotes h hm (hd.mono (Nat.le_max_right _ _))]

theorem decodeObject_of_denotes : ∀ {entries : Entries} {es : List (String × Value)},
    DenotesEntries entries es → ∀ {src src' : Source}, Mirrors src src' →
    src.Admits (entriesDepth es) → ∀ {fs : List Field} {slots : Slots fs},
      (decodeObject src fs slots entries).toOption =
        (decodeObject src' fs slots (Entries.ofEntries es)).toOption
  | _, _, .close, _, _, _, _, fs, slots => by
    simp only [Entries.ofEntries, decodeObject]
    cases Slots.finish fs slots <;> rfl
  | _, _, .entry ht h, src, src', hm, hd, fs, slots => by
    rw [entriesDepth] at hd
    have hfield := fun null => decodeWith_toOption null
      fun s => decode_of_denotes ht hm (hd.mono (Nat.le_max_left _ _)) s
    simp only [Entries.ofEntries, decodeObject, toOption_bind, skip_of_denotes ht,
      skip_of_denotes (denotes_ofValue _), isNull_of_denotes ht]
    refine congr (congrArg Option.bind (put_toOption (fun f => ?_) _ _)) (funext fun put => ?_)
    · rw [toOption_mapError, toOption_mapError]
      exact hfield _ f
    · cases put <;> exact decodeObject_of_denotes h hm (hd.mono (Nat.le_max_right _ _))

end

/-! ## Texts -/

/-- **Reading a text and its value.** A shape is read from a text if and only if it is
    read from the value that the text spells, unless this is too deep. -/
theorem decodeFirst_spells_iff {text : String} {v : Value} {s : Shape} {a : s.Carrier}
    (h : SpellsText text.toList v) (hdepth : v.depth ≤ maxLevels) :
    decodeFirst text s = .ok a ↔ decodeValue v s = .ok a := by
  obtain ⟨t, e, htext, -, ht⟩ := ofText_spells h
  have hsame : (decodeFirst text s).toOption = (decodeValue v s).toOption := by
    rw [decodeFirst, htext]
    refine decode_of_denotes ht .start ?_ s
    rintro n ⟨⟩
    exact hdepth
  rw [← toOption_eq_some, hsame, toOption_eq_some]

end TreeDoc.Decode

namespace TreeDoc

open Decode Json
open Files (FileSystem)
open Program (File)

theorem Program.File.ofText_spells_iff {origin text : String} {v : Value} {f : File}
    (h : SpellsText text.toList v) (hdepth : v.depth ≤ maxLevels) :
    File.ofText origin text = .ok f ↔ decodeValue v (.record .file) = .ok f :=
  mapError_eq_ok.trans (decodeFirst_spells_iff h hdepth)

/-- A file is loaded from a text if it is read from the value of the text. -/
theorem loadFile_text_iff {fs : FileSystem} {path text : String} {v : Value} {f : File}
    (hread : fs.read path = .ok text) (h : SpellsText text.toList v)
    (hdepth : v.depth ≤ maxLevels) :
    loadFile fs path none = .ok f ↔ decodeValue v (.record .file) = .ok f := by
  have hload : loadFile fs path none = File.ofText path text := by
    rw [loadFile, hread]
    rfl
  rw [hload, File.ofText_spells_iff h hdepth]

end TreeDoc
