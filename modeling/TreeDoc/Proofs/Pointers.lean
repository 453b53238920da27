/-
  Files inside other texts.

  A pointer leads into a value by keys and indices. A text contains another one at
  the place of a pointer if each step goes into an array or object, whose other items
  and entries may be anything.

  * `PointerStep`, `pointerText`: the steps of a pointer and its text;
  * `pointerTokens?_pointerText`: the tokens of the text are those of the steps;
  * `Embeds`: a text contains another one;
  * `Embeds.spells`: then the value of the one is found in the value of the other;
  * `loadFile_pointer`: a file is loaded from a text that contains it if and only if
    it is loaded from its own text.
-/
import TreeDoc.Load
import TreeDoc.Proofs.Keys
import TreeDoc.Proofs.Sources

namespace TreeDoc.Text

theorem splitChars_eq_singleton {mark : Char} {t : List Char} (h : mark ∉ t) :
    splitChars mark t = [t] := by
  induction t with
  | nil => rfl
  | cons c cs ih =>
    obtain ⟨hc, hcs⟩ : mark ≠ c ∧ mark ∉ cs := by simpa using h
    rw [splitChars, if_neg hc.symm, ih hcs]

theorem splitChars_append {mark : Char} {t : List Char} (h : mark ∉ t) (r : List Char) :
    splitChars mark (t ++ mark :: r) = t :: splitChars mark r := by
  induction t with
  | nil => rw [List.nil_append, splitChars, if_pos rfl]
  | cons c cs ih =>
    obtain ⟨hc, hcs⟩ : mark ≠ c ∧ mark ∉ cs := by simpa using h
    rw [List.cons_append, splitChars, if_neg hc.symm, ih hcs]

end TreeDoc.Text

namespace TreeDoc.Json

/-! ## The texts of pointers -/

/-- A step into an object or array, whose places are counted by machine words. -/
inductive PointerStep where
  | key (name : String)
  | index (place : UInt64)
deriving Repr, DecidableEq

/-- A key in a pointer: a tilde is written `~0` and a slash `~1`. -/
def escapeToken : List Char → List Char
  | [] => []
  | '~' :: cs => '~' :: '0' :: escapeToken cs
  | '/' :: cs => '~' :: '1' :: escapeToken cs
  | c :: cs => c :: escapeToken cs

/-- The name of an entry or the number of an item, in decimal digits. -/
def PointerStep.token : PointerStep → String
  | .key k => k
  | .index i => toString i.toNat

/-- A step as it stands in a pointer. -/
def PointerStep.written : PointerStep → List Char
  | .key k => escapeToken k.toList
  | .index i => (toString i.toNat).toList

/-- The text of a pointer: every step after a slash. -/
def pointerText (way : List PointerStep) : String :=
  String.ofList (way.flatMap fun s => '/' :: s.written)

theorem escapeToken_other {c : Char} (htilde : c ≠ '~') (hslash : c ≠ '/') (cs : List Char) :
    escapeToken (c :: cs) = c :: escapeToken cs := by
  rw [escapeToken]
  · exact htilde
  · exact hslash

theorem slashes_other {c : Char} (h : c ≠ '~') (cs : List Char) :
    unescapeToken.slashes (c :: cs) = c :: unescapeToken.slashes cs := by
  rw [unescapeToken.slashes]
  rintro _ rfl
  exact absurd rfl h

theorem tildes_other {c : Char} (h : c ≠ '~') (cs : List Char) :
    unescapeToken.tildes (c :: cs) = c :: unescapeToken.tildes cs := by
  rw [unescapeToken.tildes]
  rintro _ rfl
  exact absurd rfl h

theorem unescapeToken_escapeToken (cs : List Char) : unescapeToken (escapeToken cs) = cs := by
  rw [unescapeToken]
  induction cs with
  | nil => rfl
  | cons c cs ih =>
    by_cases htilde : c = '~'
    · subst htilde
      rw [escapeToken, unescapeToken.slashes, slashes_other (by decide), unescapeToken.tildes, ih]
      simp
    · by_cases hslash : c = '/'
      · subst hslash
        rw [escapeToken, unescapeToken.slashes, tildes_other (by decide), ih]
      · rw [escapeToken_other htilde hslash, slashes_other htilde, tildes_other htilde, ih]

theorem slash_not_mem_escapeToken (cs : List Char) : '/' ∉ escapeToken cs := by
  induction cs with
  | nil => simp [escapeToken]
  | cons c cs ih =>
    by_cases htilde : c = '~'
    · subst htilde
      simp [escapeToken, ih]
    · by_cases hslash : c = '/'
      · subst hslash
        simp [escapeToken, ih]
      · simp [escapeToken_other htilde hslash, ih, Ne.symm hslash]

theorem escapeToken_eq_self {cs : List Char} (h : ∀ c ∈ cs, c ≠ '~' ∧ c ≠ '/') :
    escapeToken cs = cs := by
  induction cs with
  | nil => rfl
  | cons c cs ih =>
    obtain ⟨hc, hcs⟩ := List.forall_mem_cons.1 h
    rw [escapeToken_other hc.1 hc.2, ih hcs]

theorem toString_toList (n : Nat) : (toString n).toList = Nat.toDigits 10 n := Nat.toList_repr

/-- Digits need no escape. -/
theorem PointerStep.written_eq (s : PointerStep) : s.written = escapeToken s.token.toList := by
  cases s with
  | key k => rfl
  | index i =>
    refine (escapeToken_eq_self fun c hc => ?_).symm
    rw [PointerStep.written, toString_toList] at hc
    have hdigit := (whole_toDigits i.toNat).digit c hc
    exact ⟨fun h => by simp [h, isDigit] at hdigit, fun h => by simp [h, isDigit] at hdigit⟩

theorem splitChars_pointer (s : PointerStep) (way : List PointerStep) :
    Text.splitChars '/' (s.written ++ way.flatMap fun s => '/' :: s.written) =
      (s :: way).map PointerStep.written := by
  have hslash : ∀ s : PointerStep, '/' ∉ s.written :=
    fun s => s.written_eq ▸ slash_not_mem_escapeToken _
  induction way generalizing s with
  | nil => rw [List.flatMap_nil, List.append_nil, Text.splitChars_eq_singleton (hslash s)]; rfl
  | cons s' way ih =>
    rw [List.flatMap_cons, List.cons_append, Text.splitChars_append (hslash s), ih s']
    rfl

/-- **The tokens of a pointer** are the names and numbers of its steps. -/
theorem pointerTokens?_pointerText (way : List PointerStep) :
    pointerTokens? (pointerText way) = some (way.map PointerStep.token) := by
  cases way with
  | nil => rfl
  | cons s way =>
    have htoken : ∀ s : PointerStep, String.ofList (unescapeToken s.written) = s.token := fun s => by
      rw [s.written_eq, unescapeToken_escapeToken, String.ofList_toList]
    have htext : (pointerText (s :: way)).toList =
        '/' :: (s.written ++ way.flatMap fun s => '/' :: s.written) := by
      rw [pointerText, String.toList_ofList, List.flatMap_cons, List.cons_append]
    simp only [pointerTokens?, htext, splitChars_pointer, List.map_map]
    exact congrArg some (List.map_congr_left fun s _ => htoken s)

theorem foldl_digits (cs : List Char) (n : Nat) :
    cs.foldl (fun n c => n * 10 + (c.toNat - '0'.toNat)) n = Nat.ofDigitChars 10 cs n := by
  induction cs generalizing n with
  | nil => rfl
  | cons c cs ih => rw [List.foldl_cons, ih, Nat.mul_comm n 10]; rfl

theorem arrayIndex?_of_whole {token : String} (h : Whole token.toList)
    (hlt : Nat.ofDigitChars 10 token.toList 0 < Nat.pow 2 64) :
    arrayIndex? token = some (Nat.ofDigitChars 10 token.toList 0) := by
  have hdigits : token.toList.all (fun c => '0' ≤ c && c ≤ '9') = true := List.all_eq_true.2 h.digit
  have hlone : token.toList.head? ≠ some '0' ∨ token.toList.length = 1 := by
    by_cases hhead : token.toList.head? = some '0'
    · exact Or.inr (by rw [h.lone hhead]; rfl)
    · exact Or.inl hhead
  unfold arrayIndex?
  split
  · rename_i hnil
    exact absurd hnil h.nonempty
  · rw [if_pos (by simpa [hdigits] using hlone)]
    simp only [foldl_digits, if_pos hlt]

theorem arrayIndex?_toString (i : UInt64) : arrayIndex? (toString i.toNat) = some i.toNat := by
  have hvalue : Nat.ofDigitChars 10 (toString i.toNat).toList 0 = i.toNat := by
    rw [toString_toList]
    exact Nat.ofDigitChars_ten_toDigits
  have hwhole : Whole (toString i.toNat).toList := by
    rw [toString_toList]
    exact whole_toDigits i.toNat
  rw [arrayIndex?_of_whole hwhole (by rw [hvalue]; exact i.toNat_lt), hvalue]

/-! ## Texts inside texts -/

/-- Texts set apart by commas. -/
def withCommas : List (List Char) → List Char
  | [] => []
  | t :: ts => t ++ ts.flatMap (',' :: ·)

/-- The text is a key between quotes and blanks, and a colon. -/
structure SpellsKey (text : List Char) (k : String) : Prop where
  parts : ∃ bs ks bs', Blank bs ∧ SpellsChars ks k.toList ∧ Blank bs' ∧
    text = bs ++ '"' :: (ks ++ '"' :: (bs' ++ [':']))

/-- The text is a key, a colon and a value. -/
structure SpellsMember (text : List Char) (e : String × Value) : Prop where
  parts : ∃ ks cs, SpellsKey ks e.1 ∧ SpellsText cs e.2 ∧ text = ks ++ cs

/-- The text `v` is the whole text, or stands in an array or object where the steps
    lead. What is beside it there are texts of values, with keys in an object. -/
inductive Embeds (v : List Char) : List PointerStep → List Char → Prop
  | here : Embeds v [] v
  | item {i : UInt64} {way : List PointerStep} {bs w bs' : List Char}
      {before after : List (List Char)} {xs ys : List Value} :
    Blank bs → Blank bs' → List.Forall₂ SpellsText before xs → List.Forall₂ SpellsText after ys →
    before.length = i.toNat → Embeds v way w →
      Embeds v (.index i :: way) (bs ++ ('[' :: (withCommas (before ++ w :: after) ++ [']']) ++ bs'))
  | entry {k : String} {way : List PointerStep} {bs ks w bs' : List Char}
      {before after : List (List Char)} {xs ys : List (String × Value)} :
    Blank bs → Blank bs' → List.Forall₂ SpellsMember before xs →
    List.Forall₂ SpellsMember after ys → SpellsKey ks k → Embeds v way w →
      Embeds v (.key k :: way)
        (bs ++ ('{' :: (withCommas (before ++ (ks ++ w) :: after) ++ ['}']) ++ bs'))

theorem spellsItems_commas {ts : List (List Char)} {vs : List Value}
    (h : List.Forall₂ SpellsText ts vs) {bs : List Char} (hbs : Blank bs) :
    SpellsItems false (bs ++ (ts.flatMap (',' :: ·) ++ [']'])) vs := by
  induction h generalizing bs with
  | nil => exact .close hbs
  | cons ht _ ih =>
    obtain ⟨ls, cs, ls', hls, hcs, hls', rfl⟩ := ht.parts
    simpa using SpellsItems.item (.comma hbs hls) hcs (ih hls')

theorem spells_commaArray {ts : List (List Char)} {vs : List Value}
    (h : List.Forall₂ SpellsText ts vs) : Spells ('[' :: (withCommas ts ++ [']'])) (.array vs) := by
  refine .array ?_
  cases h with
  | nil => exact .close blank_nil
  | cons ht hts =>
    obtain ⟨ls, cs, ls', hls, hcs, hls', rfl⟩ := ht.parts
    simpa [withCommas] using SpellsItems.item (.first hls) hcs (spellsItems_commas hts hls')

theorem spellsEntries_commas {ts : List (List Char)} {es : List (String × Value)}
    (h : List.Forall₂ SpellsMember ts es) {bs : List Char} (hbs : Blank bs) :
    SpellsEntries false (bs ++ (ts.flatMap (',' :: ·) ++ ['}'])) es := by
  induction h generalizing bs with
  | nil => exact .close hbs
  | cons ht _ ih =>
    obtain ⟨_, _, hkey, htext, rfl⟩ := ht.parts
    obtain ⟨ms, ks, ms', hms, hks, hms', rfl⟩ := hkey.parts
    obtain ⟨ls, cs, ls', hls, hcs, hls', rfl⟩ := htext.parts
    simpa using SpellsEntries.entry (.comma hbs hms) hks hms' hls hcs (ih hls')

theorem spells_commaObject {ts : List (List Char)} {es : List (String × Value)}
    (h : List.Forall₂ SpellsMember ts es) :
    Spells ('{' :: (withCommas ts ++ ['}'])) (.object es) := by
  refine .object ?_
  cases h with
  | nil => exact .close blank_nil
  | cons ht hts =>
    obtain ⟨_, _, hkey, htext, rfl⟩ := ht.parts
    obtain ⟨ms, ks, ms', hms, hks, hms', rfl⟩ := hkey.parts
    obtain ⟨ls, cs, ls', hls, hcs, hls', rfl⟩ := htext.parts
    simpa [withCommas] using
      SpellsEntries.entry (.first hms) hks hms' hls hcs (spellsEntries_commas hts hls')

/-! ## Values inside values -/

theorem depth_le_itemsDepth {v : Value} : ∀ {vs : List Value}, v ∈ vs → v.depth ≤ itemsDepth vs
  | w :: vs, h => by
    rw [itemsDepth]
    rcases List.mem_cons.1 h with rfl | h
    · exact Nat.le_max_left _ _
    · exact Nat.le_trans (depth_le_itemsDepth h) (Nat.le_max_right _ _)

theorem depth_le_entriesDepth {k : String} {v : Value} : ∀ {es : List (String × Value)},
    (k, v) ∈ es → v.depth ≤ entriesDepth es
  | (l, w) :: es, h => by
    rw [entriesDepth]
    rcases List.mem_cons.1 h with heq | h
    · obtain ⟨-, rfl⟩ := Prod.mk.inj heq
      exact Nat.le_max_left _ _
    · exact Nat.le_trans (depth_le_entriesDepth h) (Nat.le_max_right _ _)

theorem distinct_of_mem {v : Value} : ∀ {vs : List Value}, distinctItems vs = true → v ∈ vs →
    v.distinct = true
  | w :: vs, hd, h => by
    rw [distinctItems, Bool.and_eq_true] at hd
    rcases List.mem_cons.1 h with rfl | h
    · exact hd.1
    · exact distinct_of_mem hd.2 h

theorem distinct_of_mem_entries {k : String} {v : Value} : ∀ {es : List (String × Value)},
    distinctEntries es = true → (k, v) ∈ es → v.distinct = true
  | (l, w) :: es, hd, h => by
    rw [distinctEntries, Bool.and_eq_true] at hd
    rcases List.mem_cons.1 h with heq | h
    · obtain ⟨-, rfl⟩ := Prod.mk.inj heq
      exact hd.1
    · exact distinct_of_mem_entries hd.2 h

/-- **A text inside a text.** Its value is not deeper than that of the whole, and the
    steps lead to it unless a key on the way is repeated. -/
theorem Embeds.spells {v w : List Char} {way : List PointerStep} {x : Value} (h : Embeds v way w)
    (hx : SpellsText v x) : ∃ u, SpellsText w u ∧ x.depth ≤ u.depth ∧
      (u.distinct = true → u.follow (way.map PointerStep.token) = some x) := by
  induction h with
  | here => exact ⟨x, hx, Nat.le_refl _, fun _ => rfl⟩
  | @item i way bs w bs' before after xs ys hbs hbs' hbefore hafter hplace _ ih =>
    obtain ⟨u, hu, hdepth, hfollow⟩ := ih
    have hitems := List.rel_append hbefore (List.Forall₂.cons hu hafter)
    have hmem : u ∈ xs ++ u :: ys := by simp
    refine ⟨.array (xs ++ u :: ys), ⟨bs, _, bs', hbs, spells_commaArray hitems, hbs', rfl⟩, ?_, ?_⟩
    · have hitem := depth_le_itemsDepth hmem
      rw [Value.depth]
      omega
    · intro hdistinct
      rw [Value.distinct] at hdistinct
      have hget : (xs ++ u :: ys)[i.toNat]? = some u := by
        rw [← hplace, hbefore.length_eq]
        simp
      rw [List.map_cons, Value.follow, PointerStep.token, arrayIndex?_toString, Option.bind_some,
        hget, Option.bind_some, hfollow (distinct_of_mem hdistinct hmem)]
  | @entry k way bs ks w bs' before after xs ys hbs hbs' hbefore hafter hkey _ ih =>
    obtain ⟨u, hu, hdepth, hfollow⟩ := ih
    have hmember : SpellsMember (ks ++ w) (k, u) := ⟨ks, w, hkey, hu, rfl⟩
    have hentries := List.rel_append hbefore (List.Forall₂.cons hmember hafter)
    have hmem : (k, u) ∈ xs ++ (k, u) :: ys := by simp
    refine ⟨.object (xs ++ (k, u) :: ys),
      ⟨bs, _, bs', hbs, spells_commaObject hentries, hbs', rfl⟩, ?_, ?_⟩
    · have hentry := depth_le_entriesDepth hmem
      rw [Value.depth]
      omega
    · intro hdistinct
      rw [Value.distinct, Bool.and_eq_true, decide_eq_true_eq] at hdistinct
      rw [List.map_cons, Value.follow, PointerStep.token, Assoc.get?_of_mem hdistinct.1 hmem,
        Option.bind_some, hfollow (distinct_of_mem_entries hdistinct.2 hmem)]

end TreeDoc.Json

/-! ## Loading -/

namespace TreeDoc

open Decode Json
open Files (FileSystem)
open Program (File)

/-- A file is loaded from the value at a pointer if it is read from this value. -/
theorem loadFile_value_iff {fs : FileSystem} {path w pointer : String} {u x : Value} {f : File}
    (hw : fs.read path = .ok w) (hu : readFirst w = .ok u) (hx : u.get? pointer = some x) :
    loadFile fs path (some pointer) = .ok f ↔ decodeValue x (.record .file) = .ok f := by
  rw [loadFile, hw]
  show (readFirst w).mapError _ >>= _ = .ok f ↔ _
  rw [bind_eq_ok]
  constructor
  · rintro ⟨v, hv, hload⟩
    obtain rfl : u = v := Except.ok.inj (hu.symm.trans (mapError_eq_ok.1 hv))
    rw [hx] at hload
    exact mapError_eq_ok.1 hload
  · intro h
    refine ⟨u, mapError_eq_ok.2 hu, ?_⟩
    rw [hx]
    exact mapError_eq_ok.2 h

/-- **Loading with and without a pointer.** If a text is read as one value, repeats no
    key in any object and contains another text, the pointer to this text selects the
    file that the other text is loaded as, and nothing if it is not loaded. -/
theorem loadFile_pointer {fs fs' : FileSystem} {path path' w v : String} {way : List PointerStep}
    (hw : fs.read path = .ok w) (hv : fs'.read path' = .ok v)
    (htext : ∃ x, SpellsText v.toList x) (hembeds : Embeds v.toList way w.toList)
    (hread : ∃ u, readText w = .ok u) (hdistinct : ∀ u, SpellsText w.toList u → u.distinct = true)
    (f : File) :
    loadFile fs path (some (pointerText way)) = .ok f ↔ loadFile fs' path' none = .ok f := by
  obtain ⟨x, hx⟩ := htext
  obtain ⟨u, hu, hdepth, hfollow⟩ := hembeds.spells hx
  obtain ⟨y, hy⟩ := hread
  obtain ⟨hlevels, rfl⟩ := (readText_spells_iff hu).1 hy
  have hmerged : u.merged = u := Value.merged_eq_self (hdistinct u hu)
  have hfirst : readFirst w = .ok u := by
    rw [readText, hmerged, bind_eq_ok] at hy
    obtain ⟨z, hz, hy⟩ := hy
    obtain ⟨-, -, hzu⟩ := bind_eq_ok.1 hy
    rw [hz, Except.ok.inj hzu]
  have hget : u.get? (pointerText way) = some x := by
    rw [Value.get?, pointerTokens?_pointerText, Option.bind_some]
    exact hfollow (hdistinct u hu)
  rw [loadFile_value_iff hw hfirst hget, loadFile_text_iff hv hx (Nat.le_trans hdepth hlevels)]

/-- A file that has nothing but its name. -/
def bareFile : File where
  packageName := "x"
  imports := []
  constants := []
  services := []
  functions := []
  connectors := []
  structs := []
  typeConverters := []
  mainInvoker := none

/-- The file as an object. -/
def bareValue : Value := .object [("package_name", .string "x")]

/-- The file as the second item of an array, whose key needs both escapes. -/
def wrappedValue : Value := .object [("a~/b", .array [.number (.int 1), bareValue])]

/-- The steps to the file. -/
def wrappedWay : List PointerStep := [.key "a~/b", .index 1]

/-- A folder with both texts. -/
def wrappedFolder : FileSystem := .ofFolder
  [("bare.json", .file (some bareValue.compact)), ("wrapped.json", .file (some wrappedValue.compact))]

theorem wrapped_embeds : Embeds bareValue.compact.toList wrappedWay wrappedValue.compact.toList := by
  have hone : SpellsText ['1'] (.number (.int 1)) := (@compact_spells (.number (.int 1)) rfl).text
  have hkey : SpellsKey ('"' :: (inQuotes "a~/b".toList ++ ['"', ':'])) "a~/b" :=
    ⟨[], _, [], blank_nil, spellsChars_inQuotes _, blank_nil, rfl⟩
  have hembeds : Embeds bareValue.compact.toList wrappedWay _ :=
    .entry blank_nil blank_nil .nil .nil hkey
      (.item blank_nil blank_nil (.cons hone .nil) .nil rfl .here)
  have htext : wrappedValue.compact.toList = '{' :: '"' :: (inQuotes "a~/b".toList ++
      '"' :: ':' :: '[' :: '1' :: ',' :: (bareValue.compact.toList ++ [']', '}'])) := by
    decide
  simpa [withCommas, htext] using hembeds

theorem wrapped_loads :
    pointerText wrappedWay = "/a~0~1b/1" ∧
    wrappedFolder.read "wrapped.json" = .ok wrappedValue.compact ∧
    wrappedFolder.read "bare.json" = .ok bareValue.compact ∧
    SpellsText bareValue.compact.toList bareValue ∧
    Embeds bareValue.compact.toList wrappedWay wrappedValue.compact.toList ∧
    readText wrappedValue.compact = .ok wrappedValue ∧ wrappedValue.distinct = true ∧
    loadFile wrappedFolder "bare.json" none = .ok bareFile ∧
    loadFile wrappedFolder "wrapped.json" (some (pointerText wrappedWay)) = .ok bareFile := by
  have hw : wrappedFolder.read "wrapped.json" = .ok wrappedValue.compact := rfl
  have hv : wrappedFolder.read "bare.json" = .ok bareValue.compact := rfl
  have hbare : SpellsText bareValue.compact.toList bareValue := (compact_spells rfl).text
  have hwrapped : SpellsText wrappedValue.compact.toList wrappedValue := (compact_spells rfl).text
  have hdistinct : wrappedValue.distinct = true := by decide
  have hread : readText wrappedValue.compact = .ok wrappedValue :=
    (readText_spells_iff hwrapped).2 ⟨by decide, (Value.merged_eq_self hdistinct).symm⟩
  have hload : loadFile wrappedFolder "bare.json" none = .ok bareFile :=
    (loadFile_text_iff hv hbare (by decide)).2 rfl
  refine ⟨by decide, hw, hv, hbare, wrapped_embeds, hread, hdistinct, hload, ?_⟩
  exact (loadFile_pointer hw hv ⟨_, hbare⟩ wrapped_embeds ⟨_, hread⟩
    (fun u hu => spellsText_unique hwrapped hu ▸ hdistinct) bareFile).2 hload

end TreeDoc
