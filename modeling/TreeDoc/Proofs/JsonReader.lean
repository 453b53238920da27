/-
  Reading JSON texts.

  A text may spell a value in many ways: blanks may stand before every comma, colon
  and closing bracket and after every comma, colon and opening one, and strings and
  numbers may be written in more than one way. The scanner passes over the blanks
  and makes a tree without faults, from which the value is read.

  * `Value.depth`: how many arrays and objects stand inside one another;
  * `Spells`, `SpellsItems`, `SpellsEntries`: the texts of values;
  * `SpellsText`: a value between blanks, which is what a whole text is;
  * `Denotes`: trees without faults, and the value of each;
  * `read_eq_ok_iff`: the value of such a tree is read from it if it is not too
    deep, and from no other tree is a value read;
  * `scanValue_spells`: a text that spells a value is scanned to a tree of this
    value;
  * `spellsText_unique`: so a text spells one value only;
  * `readText_spells_iff`: and a whole text is read as the value that it spells, if
    this is not too deep.
-/
import TreeDoc.Decode.Decoder
import TreeDoc.Proofs.JsonTokens

namespace TreeDoc.Json

/-! ## Depth -/

mutual

/-- How many arrays and objects stand inside one another. -/
def Value.depth : Value → Nat
  | .array items => itemsDepth items + 1
  | .object entries => entriesDepth entries + 1
  | _ => 0

/-- The depth of the deepest item. -/
def itemsDepth : List Value → Nat
  | [] => 0
  | v :: vs => max v.depth (itemsDepth vs)

/-- The depth of the deepest entry. -/
def entriesDepth : List (String × Value) → Nat
  | [] => 0
  | (_, v) :: es => max v.depth (entriesDepth es)

end

/-! ## Spelled values -/

/-- All characters are blank. -/
def Blank (bs : List Char) : Prop := ∀ c ∈ bs, isBlank c = true

/-- What stands before an item or entry: blanks, and a comma among them unless it
    is the first one. -/
inductive Lead : Bool → List Char → Prop
  | first {bs : List Char} : Blank bs → Lead true bs
  | comma {bs bs' : List Char} : Blank bs → Blank bs' → Lead false (bs ++ ',' :: bs')

mutual

/-- The text spells the value. -/
inductive Spells : List Char → Value → Prop
  | null : Spells ['n', 'u', 'l', 'l'] .null
  | yes : Spells ['t', 'r', 'u', 'e'] (.bool true)
  | no : Spells ['f', 'a', 'l', 's', 'e'] (.bool false)
  | number {cs : List Char} {n : Number} : SpellsNumber cs n → Spells cs (.number n)
  | string {cs : List Char} {s : String} :
    SpellsChars cs s.toList → Spells ('"' :: (cs ++ ['"'])) (.string s)
  | array {cs : List Char} {vs : List Value} :
    SpellsItems true cs vs → Spells ('[' :: cs) (.array vs)
  | object {cs : List Char} {es : List (String × Value)} :
    SpellsEntries true cs es → Spells ('{' :: cs) (.object es)

/-- The text follows the opening bracket of an array, or an item, and spells the
    items that come. -/
inductive SpellsItems : Bool → List Char → List Value → Prop
  | close {first : Bool} {bs : List Char} : Blank bs → SpellsItems first (bs ++ [']']) []
  | item {first : Bool} {ls cs ds : List Char} {v : Value} {vs : List Value} :
    Lead first ls → Spells cs v → SpellsItems false ds vs →
      SpellsItems first (ls ++ cs ++ ds) (v :: vs)

/-- The text follows the opening brace of an object, or an entry, and spells the
    entries that come. -/
inductive SpellsEntries : Bool → List Char → List (String × Value) → Prop
  | close {first : Bool} {bs : List Char} : Blank bs → SpellsEntries first (bs ++ ['}']) []
  | entry {first : Bool} {ls ks bs bs' cs ds : List Char} {k : String} {v : Value}
      {es : List (String × Value)} :
    Lead first ls → SpellsChars ks k.toList → Blank bs → Blank bs' → Spells cs v →
    SpellsEntries false ds es →
      SpellsEntries first (ls ++ '"' :: (ks ++ '"' :: (bs ++ ':' :: (bs' ++ cs ++ ds))))
        ((k, v) :: es)

end

theorem SpellsNumeral.head {cs : List Char} {n : Numeral} (h : SpellsNumeral cs n) :
    ∃ c r, cs = c :: r ∧ isDigit c = true := by
  obtain ⟨hws, hfs, hes⟩ := h
  obtain ⟨w, ws, rfl⟩ := List.exists_cons_of_ne_nil hws.nonempty
  exact ⟨w, _, rfl, hws.digit w List.mem_cons_self⟩

theorem isBlank_of_isDigit {c : Char} (h : isDigit c = true) : isBlank c = false := by
  cases hblank : isBlank c with
  | false => rfl
  | true =>
    simp only [isBlank, Bool.or_eq_true, decide_eq_true_eq] at hblank
    rcases hblank with ((rfl | rfl) | rfl) | rfl <;> cases h

theorem Spells.head {cs : List Char} {v : Value} (h : Spells cs v) :
    ∃ c r, cs = c :: r ∧ isBlank c = false ∧ c ≠ ']' := by
  cases h with
  | number h =>
    cases h with
    | positive h =>
      obtain ⟨c, r, rfl, hc⟩ := h.head
      exact ⟨c, r, rfl, isBlank_of_isDigit hc, by rintro rfl; cases hc⟩
    | negative h => exact ⟨_, _, rfl, by decide, by decide⟩
  | _ => exact ⟨_, _, rfl, by decide, by decide⟩

theorem delimited_blank {bs cs : List Char} (hbs : Blank bs) (hcs : Delimited cs) :
    Delimited (bs ++ cs) := by
  cases bs with
  | nil => exact hcs
  | cons b bs =>
    intro c hc
    cases hc
    exact Or.inl (hbs b List.mem_cons_self)

theorem delimited_lead {ls : List Char} (h : Lead false ls) (cs : List Char) :
    Delimited (ls ++ cs) := by
  cases h with
  | comma hbs _ =>
    rw [List.append_assoc]
    exact delimited_blank hbs fun c hc => by cases hc; exact Or.inr (Or.inl rfl)

theorem SpellsItems.delimited {ds : List Char} {vs : List Value} (h : SpellsItems false ds vs)
    (rest : List Char) : Delimited (ds ++ rest) := by
  cases h with
  | close hbs =>
    rw [List.append_assoc]
    exact delimited_blank hbs fun c hc => by cases hc; exact Or.inr (Or.inr (Or.inl rfl))
  | item hlead _ _ =>
    rw [List.append_assoc, List.append_assoc]
    exact delimited_lead hlead _

theorem SpellsEntries.delimited {ds : List Char} {es : List (String × Value)}
    (h : SpellsEntries false ds es) (rest : List Char) : Delimited (ds ++ rest) := by
  cases h with
  | close hbs =>
    rw [List.append_assoc]
    exact delimited_blank hbs fun c hc => by cases hc; exact Or.inr (Or.inr (Or.inr rfl))
  | entry hlead _ _ _ _ _ =>
    rw [List.append_assoc]
    exact delimited_lead hlead _

/-- The text is a value between blanks. -/
structure SpellsText (text : List Char) (v : Value) : Prop where
  parts : ∃ bs cs bs', Blank bs ∧ Spells cs v ∧ Blank bs' ∧ text = bs ++ (cs ++ bs')

theorem blank_nil : Blank [] := fun _ h => by cases h

theorem Spells.text {cs : List Char} {v : Value} (h : Spells cs v) : SpellsText cs v :=
  ⟨[], cs, [], blank_nil, h, blank_nil, by simp⟩

/-! ## One step of the scanner -/

/-- What was scanned, and the cursor after it. -/
def scanned {α : Type} {n : Nat} (r : α × Within n) : α × Cursor := (r.1, r.2.val)

theorem skipBlanks_append {bs : List Char} (h : Blank bs) (cs : List Char) (o : Nat) :
    skipBlanks (bs ++ cs) o = skipBlanks cs (o + bs.length) := by
  induction bs generalizing o with
  | nil => rfl
  | cons b bs ih =>
    obtain ⟨hb, hbs⟩ := List.forall_mem_cons.1 h
    rw [List.cons_append, skipBlanks, if_pos hb, ih hbs, List.length_cons]
    congr 1
    omega

theorem skipBlanks_cons {c : Char} (h : isBlank c = false) (cs : List Char) (o : Nat) :
    skipBlanks (c :: cs) o = ⟨c :: cs, o⟩ := by
  rw [skipBlanks, h, if_neg Bool.false_ne_true]

-- Each of these is one branch of the scanner that meets no fault. What the scanner
-- calls for the parts is given by equations, so that none of them has to be opened.
section
variable {cs r s : List Char} {c d : Char} {o p q : Nat} {t : Tree} {e e' : Cursor}

theorem scanItems_close {first : Bool} (h : skipBlanks cs o = ⟨']' :: r, p⟩) :
    scanned (scanItems first cs o) = (.close p, ⟨r, p + 1⟩) := by
  rw [scanItems]
  split
  · simp_all
  · rename_i h'
    rw [h] at h'
    cases h'
    rfl

theorem scanItems_first {items : Items} (h : skipBlanks cs o = ⟨c :: r, p⟩) (hc : c ≠ ']')
    (hvalue : scanned (scanValue c r p) = (t, e))
    (hrest : scanned (scanItems false e.rest e.offset) = (items, e')) :
    scanned (scanItems true cs o) = (.item p t items, e') := by
  rw [scanItems]
  split
  · simp_all
  · rename_i h'
    rw [h] at h'
    cases h'
    cases hvalue
    cases hrest
    rw [if_neg hc]
    rfl

theorem scanItems_comma {items : Items} (h : skipBlanks cs o = ⟨',' :: r, p⟩)
    (h' : skipBlanks r (p + 1) = ⟨d :: s, q⟩) (hd : d ≠ ']')
    (hvalue : scanned (scanValue d s q) = (t, e))
    (hrest : scanned (scanItems false e.rest e.offset) = (items, e')) :
    scanned (scanItems false cs o) = (.item q t items, e') := by
  rw [scanItems]
  split
  · simp_all
  · rename_i hblank
    rw [h] at hblank
    cases hblank
    rw [if_neg (by decide), if_neg Bool.false_ne_true, if_pos rfl]
    split
    · simp_all
    · rename_i hblank'
      rw [h'] at hblank'
      cases hblank'
      cases hvalue
      cases hrest
      rw [if_neg hd]
      rfl

theorem scanEntry_eq {entries : Entries} {lead : Nat} {k : String} {w : Within cs.length}
    (hkey : scanText cs o = .ok (.ok k, w))
    (hcolon : skipBlanks w.val.rest w.val.offset = ⟨':' :: r, p⟩)
    (h : skipBlanks r (p + 1) = ⟨d :: s, q⟩)
    (hvalue : scanned (scanValue d s q) = (t, e))
    (hrest : scanned (scanEntries false e.rest e.offset) = (entries, e')) :
    scanned (scanEntry lead cs o) = (.entry lead (.ok k) p t entries, e') := by
  rw [scanEntry, hkey]
  split
  · simp_all
  · rename_i hk
    cases hk
    split
    · simp_all
    · rename_i hblank
      rw [hcolon] at hblank
      cases hblank
      rw [if_pos rfl]
      split
      · simp_all
      · rename_i hblank'
        rw [h] at hblank'
        cases hblank'
        cases hvalue
        cases hrest
        rfl

theorem scanEntries_close {first : Bool} (h : skipBlanks cs o = ⟨'}' :: r, p⟩) :
    scanned (scanEntries first cs o) = (.close p, ⟨r, p + 1⟩) := by
  rw [scanEntries]
  split
  · simp_all
  · rename_i h'
    rw [h] at h'
    cases h'
    rfl

theorem scanEntries_first {entries : Entries} (h : skipBlanks cs o = ⟨'"' :: r, p⟩)
    (hentry : scanned (scanEntry p r (p + 1)) = (entries, e)) :
    scanned (scanEntries true cs o) = (entries, e) := by
  rw [scanEntries]
  split
  · simp_all
  · rename_i h'
    rw [h] at h'
    cases h'
    cases hentry
    rfl

theorem scanEntries_comma {entries : Entries} (h : skipBlanks cs o = ⟨',' :: r, p⟩)
    (h' : skipBlanks r (p + 1) = ⟨'"' :: s, q⟩)
    (hentry : scanned (scanEntry p s (q + 1)) = (entries, e)) :
    scanned (scanEntries false cs o) = (entries, e) := by
  rw [scanEntries]
  split
  · simp_all
  · rename_i hblank
    rw [h] at hblank
    cases hblank
    rw [if_neg (by decide), if_neg Bool.false_ne_true, if_pos rfl]
    split
    · simp_all
    · rename_i hblank'
      rw [h'] at hblank'
      cases hblank'
      cases hentry
      rfl

theorem scanValue_string {k : String} {w : Within cs.length}
    (h : scanText cs (o + 1) = .ok (.ok k, w)) :
    scanned (scanValue '"' cs o) = (.string (.ok k) o w.val.offset, w.val) := by
  rw [scanValue]
  show scanned (scanStringValue cs o) = _
  rw [scanStringValue, h]
  rfl

theorem scanValue_positive {r : Except Fault Number} (hc : isDigit c = true)
    (h : scanNumber false (c :: cs) o = .ok (r, e)) :
    scanned (scanValue c cs o) = (.number r o e.offset, e) := by
  have hword : c ≠ 'n' ∧ c ≠ 't' ∧ c ≠ 'f' ∧ c ≠ '-' := by
    refine ⟨?_, ?_, ?_, ?_⟩ <;> rintro rfl <;> cases hc
  rw [scanValue, if_neg hword.1, if_neg hword.2.1, if_neg hword.2.2.1, if_neg hword.2.2.2, if_pos hc,
    scanPositive]
  split
  · rename_i h'
    rw [h] at h'
    cases h'
    rfl
  · simp_all

theorem scanValue_negative {r : Except Fault Number}
    (h : scanNumber true cs (o + 1) = .ok (r, e)) :
    scanned (scanValue '-' cs o) = (.number r o e.offset, e) := by
  rw [scanValue]
  show scanned (scanNegative cs o) = _
  rw [scanNegative]
  split
  · rename_i h'
    rw [h] at h'
    cases h'
    rfl
  · simp_all

theorem scanValue_array {items : Items} (h : scanned (scanItems true cs (o + 1)) = (items, e)) :
    scanned (scanValue '[' cs o) = (.array o items, e) := by
  cases h
  rw [scanValue]
  rfl

theorem scanValue_object {entries : Entries}
    (h : scanned (scanEntries true cs (o + 1)) = (entries, e)) :
    scanned (scanValue '{' cs o) = (.object o entries, e) := by
  cases h
  rw [scanValue]
  rfl

end

/-! ## After blanks and commas -/

theorem skipBlanks_comma {bs : List Char} (hbs : Blank bs) (bs' cs : List Char) (o : Nat) :
    skipBlanks (bs ++ ',' :: bs' ++ cs) o = ⟨',' :: (bs' ++ cs), o + bs.length⟩ := by
  rw [List.append_assoc, skipBlanks_append hbs, List.cons_append, skipBlanks_cons (by decide)]

theorem skipBlanks_blank {bs : List Char} {c : Char} (hbs : Blank bs) (hc : isBlank c = false)
    (cs : List Char) (o : Nat) :
    skipBlanks (bs ++ c :: cs) o = ⟨c :: cs, o + bs.length⟩ := by
  rw [skipBlanks_append hbs, skipBlanks_cons hc]

theorem place_comma (bs bs' : List Char) (o : Nat) :
    o + (bs ++ ',' :: bs').length = o + bs.length + 1 + bs'.length := by
  rw [List.length_append, List.length_cons]
  omega

theorem scanItems_lead {first : Bool} {ls r : List Char} {c : Char} {o : Nat} {t : Tree}
    {e e' : Cursor} {items : Items} (hlead : Lead first ls) (hblank : isBlank c = false)
    (hc : c ≠ ']') (hvalue : scanned (scanValue c r (o + ls.length)) = (t, e))
    (hrest : scanned (scanItems false e.rest e.offset) = (items, e')) :
    scanned (scanItems first (ls ++ c :: r) o) = (.item (o + ls.length) t items, e') := by
  cases hlead with
  | first hbs => exact scanItems_first (skipBlanks_blank hbs hblank _ _) hc hvalue hrest
  | comma hbs hbs' =>
    rw [place_comma] at hvalue ⊢
    exact scanItems_comma (skipBlanks_comma hbs _ _ _) (skipBlanks_blank hbs' hblank _ _) hc
      hvalue hrest

theorem scanEntries_lead {first : Bool} {ls : List Char} (hlead : Lead first ls) (r : List Char)
    (o : Nat) : ∃ p, ∀ {entries : Entries} {e : Cursor},
      scanned (scanEntry p r (o + ls.length + 1)) = (entries, e) →
      scanned (scanEntries first (ls ++ '"' :: r) o) = (entries, e) := by
  cases hlead with
  | first hbs => exact ⟨_, scanEntries_first (skipBlanks_blank hbs (by decide) _ _)⟩
  | @comma bs bs' hbs hbs' =>
    rw [place_comma]
    exact ⟨o + bs.length, scanEntries_comma (skipBlanks_comma hbs _ _ _)
      (skipBlanks_blank hbs' (by decide) _ _)⟩

/-! ## Trees without faults -/

mutual

/-- The tree has no faults, and this value. -/
inductive Denotes : Tree → Value → Prop
  | null {p q : Nat} : Denotes (.null p q) .null
  | bool {b : Bool} {p q : Nat} : Denotes (.bool b p q) (.bool b)
  | number {n : Number} {p q : Nat} : Denotes (.number (.ok n) p q) (.number n)
  | string {s : String} {p q : Nat} : Denotes (.string (.ok s) p q) (.string s)
  | array {p : Nat} {items : Items} {vs : List Value} :
    DenotesItems items vs → Denotes (.array p items) (.array vs)
  | object {p : Nat} {entries : Entries} {es : List (String × Value)} :
    DenotesEntries entries es → Denotes (.object p entries) (.object es)

/-- The rest of an array has no faults, and these items. -/
inductive DenotesItems : Items → List Value → Prop
  | close {p : Nat} : DenotesItems (.close p) []
  | item {p : Nat} {t : Tree} {v : Value} {items : Items} {vs : List Value} :
    Denotes t v → DenotesItems items vs → DenotesItems (.item p t items) (v :: vs)

/-- The rest of an object has no faults, and these entries. -/
inductive DenotesEntries : Entries → List (String × Value) → Prop
  | close {p : Nat} : DenotesEntries (.close p) []
  | entry {p q : Nat} {k : String} {t : Tree} {v : Value} {entries : Entries}
      {es : List (String × Value)} :
    Denotes t v → DenotesEntries entries es →
      DenotesEntries (.entry p (.ok k) q t entries) ((k, v) :: es)

end

/-! ## Scanning what is spelled -/

theorem scanValue_number {c : Char} {cs rest : List Char} {n : Number}
    (h : SpellsNumber (c :: cs) n) (hrest : Delimited rest) (o : Nat) : ∃ p,
      scanned (scanValue c (cs ++ rest) o) = (.number (.ok n) o p, ⟨rest, p⟩) := by
  cases h with
  | @positive _ m _ hm hpos hread =>
    obtain ⟨p, hscan⟩ := scanNumber_spells hm hread hrest o
    obtain ⟨d, r, htext, hd⟩ := hm.head
    cases htext
    rw [hpos] at hscan
    exact ⟨p, scanValue_positive hd hscan⟩
  | @negative _ m _ hm hneg hread =>
    obtain ⟨p, hscan⟩ := scanNumber_spells hm hread hrest (o + 1)
    rw [hneg] at hscan
    exact ⟨p, scanValue_negative hscan⟩

mutual

/-- **Values.** A text that spells a value is scanned up to its end, and gives a
    tree of this value. -/
theorem scanValue_spells : ∀ {v : Value} {c : Char} {cs : List Char}, Spells (c :: cs) v →
    ∀ {rest : List Char}, Delimited rest → ∀ o : Nat, ∃ t p,
      scanned (scanValue c (cs ++ rest) o) = (t, ⟨rest, p⟩) ∧ Denotes t v
  | .null, _, _, .null, rest, _, o => by
    refine ⟨.null o (o + 4), o + 4, ?_, .null⟩
    rw [scanValue]
    rfl
  | .bool _, _, _, .yes, rest, _, o => by
    refine ⟨.bool true o (o + 4), o + 4, ?_, .bool⟩
    rw [scanValue]
    rfl
  | .bool _, _, _, .no, rest, _, o => by
    refine ⟨.bool false o (o + 5), o + 5, ?_, .bool⟩
    rw [scanValue]
    rfl
  | .number _, _, _, .number h, rest, hrest, o => by
    obtain ⟨p, hscan⟩ := scanValue_number h hrest o
    exact ⟨_, p, hscan, .number⟩
  | .string _, _, _, .string h, rest, _, o => by
    obtain ⟨p, hp, hscan⟩ := scanText_spells h rest (o + 1)
    rw [List.append_assoc]
    exact ⟨_, p, scanValue_string hscan, .string⟩
  | .array vs, _, _, .array h, rest, _, o => by
    obtain ⟨items, p, hscan, hitems⟩ := scanItems_spells h rest (o + 1)
    exact ⟨_, p, scanValue_array hscan, .array hitems⟩
  | .object es, _, _, .object h, rest, _, o => by
    obtain ⟨entries, p, hscan, hentries⟩ := scanEntries_spells h rest (o + 1)
    exact ⟨_, p, scanValue_object hscan, .object hentries⟩

theorem scanItems_spells : ∀ {vs : List Value} {first : Bool} {cs : List Char},
    SpellsItems first cs vs → ∀ (rest : List Char) (o : Nat),
      ∃ items p, scanned (scanItems first (cs ++ rest) o) = (items, ⟨rest, p⟩) ∧
        DenotesItems items vs
  | [], _, _, .close hbs, rest, o => by
    rw [List.append_assoc]
    exact ⟨_, _, scanItems_close (skipBlanks_blank hbs (by decide) rest o), .close⟩
  | v :: vs, _, _, @SpellsItems.item _ ls _ ds _ _ hlead hv hvs, rest, o => by
    obtain ⟨c, r, rfl, hblank, hc⟩ := hv.head
    obtain ⟨t, p, hvalue, ht⟩ := scanValue_spells hv (hvs.delimited rest) (o + ls.length)
    obtain ⟨items, q, hrest, hitems⟩ := scanItems_spells hvs rest p
    rw [List.append_assoc, List.append_assoc, List.cons_append]
    exact ⟨_, q, scanItems_lead hlead hblank hc hvalue hrest, .item ht hitems⟩

theorem scanEntries_spells : ∀ {es : List (String × Value)} {first : Bool} {cs : List Char},
    SpellsEntries first cs es → ∀ (rest : List Char) (o : Nat),
      ∃ entries p, scanned (scanEntries first (cs ++ rest) o) = (entries, ⟨rest, p⟩) ∧
        DenotesEntries entries es
  | [], _, _, .close hbs, rest, o => by
    rw [List.append_assoc]
    exact ⟨_, _, scanEntries_close (skipBlanks_blank hbs (by decide) rest o), .close⟩
  | (k, v) :: es, _, _, @SpellsEntries.entry first ls ks bs bs' _ ds _ _ _ hlead hks hbs hbs' hv hes,
      rest, o => by
    obtain ⟨c, r, rfl, hblank, -⟩ := hv.head
    -- `after` is all that follows the colon
    obtain ⟨after, hafter⟩ : ∃ after, after = bs' ++ c :: (r ++ (ds ++ rest)) := ⟨_, rfl⟩
    have htext : ls ++ '"' :: (ks ++ '"' :: (bs ++ ':' :: (bs' ++ c :: r ++ ds))) ++ rest =
        ls ++ '"' :: (ks ++ '"' :: (bs ++ ':' :: after)) := by
      simp [hafter]
    obtain ⟨lead, hentries⟩ := scanEntries_lead hlead (ks ++ '"' :: (bs ++ ':' :: after)) o
    obtain ⟨p, hp, hkey⟩ := scanText_spells hks (bs ++ ':' :: after) (o + ls.length + 1)
    have hcolon := skipBlanks_blank hbs (by decide : isBlank ':' = false) after p
    have hlast := skipBlanks_blank hbs' hblank (r ++ (ds ++ rest)) (p + bs.length + 1)
    rw [← hafter] at hlast
    obtain ⟨t, p', hvalue, ht⟩ := scanValue_spells hv (hes.delimited rest)
      (p + bs.length + 1 + bs'.length)
    obtain ⟨entries, q, hrest, hdenotes⟩ := scanEntries_spells hes rest p'
    rw [htext]
    exact ⟨_, q, hentries (scanEntry_eq hkey hcolon hlast hvalue hrest), .entry ht hdenotes⟩

end

/-- **Texts.** A text that spells a value has a tree of this value, and nothing but
    blanks after it. -/
theorem ofText_spells {text : String} {v : Value} (h : SpellsText text.toList v) :
    ∃ t e, Tree.ofText text = (t, e) ∧ Blank e.rest ∧ Denotes t v := by
  obtain ⟨bs, cs, bs', hbs, hv, hbs', htext⟩ := h.parts
  obtain ⟨c, r, rfl, hblank, -⟩ := hv.head
  have hend : Delimited [] := by simp [Delimited]
  have hdelimited : Delimited bs' := by simpa using delimited_blank hbs' hend
  obtain ⟨t, p, hscan, ht⟩ := scanValue_spells hv hdelimited bs.length
  refine ⟨t, ⟨bs', p⟩, ?_, hbs', ht⟩
  rw [Tree.ofText, htext, List.cons_append, skipBlanks_blank hbs hblank, Nat.zero_add]
  exact hscan

end TreeDoc.Json

namespace TreeDoc.Decode

open Json

/-! ## Reading trees without faults -/

mutual

theorem read_of_denotes : ∀ {t : Tree} {v : Value}, Denotes t v → ∀ {levels : Nat},
    v.depth ≤ levels → Tree.read levels t = .ok v
  | _, _, .null, _, _ => by rw [Tree.read]
  | _, _, .bool, _, _ => by rw [Tree.read]
  | _, _, .number, _, _ => by rw [Tree.read]; rfl
  | _, _, .string, _, _ => by rw [Tree.read]; rfl
  | _, _, .array h, levels, hdepth => by
    rw [Value.depth] at hdepth
    cases levels with
    | zero => omega
    | succ n =>
      rw [Tree.read, readItems_of_denotes h (by omega)]
      rfl
  | _, _, .object h, levels, hdepth => by
    rw [Value.depth] at hdepth
    cases levels with
    | zero => omega
    | succ n =>
      rw [Tree.read, readEntries_of_denotes h (by omega)]
      rfl

theorem readItems_of_denotes : ∀ {items : Items} {vs : List Value}, DenotesItems items vs →
    ∀ {levels i : Nat}, itemsDepth vs ≤ levels → readItems levels i items = .ok vs
  | _, _, .close, _, _, _ => by rw [readItems]
  | _, _, .item ht h, _, _, hdepth => by
    rw [itemsDepth] at hdepth
    rw [readItems, read_of_denotes ht (by omega), readItems_of_denotes h (by omega)]
    rfl

theorem readEntries_of_denotes : ∀ {entries : Entries} {es : List (String × Value)},
    DenotesEntries entries es → ∀ {levels : Nat}, entriesDepth es ≤ levels →
      readEntries levels entries = .ok es
  | _, _, .close, _, _ => by rw [readEntries]
  | _, _, .entry ht h, _, hdepth => by
    rw [entriesDepth] at hdepth
    rw [readEntries, read_of_denotes ht (by omega), readEntries_of_denotes h (by omega)]
    rfl

end

section
variable {ε ε' α β : Type}

theorem bind_eq_ok {x : Except ε α} {f : α → Except ε β} {b : β} :
    x >>= f = .ok b ↔ ∃ a, x = .ok a ∧ f a = .ok b := by
  cases x with
  | error e => exact ⟨nofun, fun ⟨_, h, _⟩ => nomatch h⟩
  | ok a => exact ⟨fun h => ⟨a, rfl, h⟩, fun ⟨_, ha, h⟩ => by cases ha; exact h⟩

theorem map_eq_ok {x : Except ε α} {f : α → β} {b : β} :
    x.map f = .ok b ↔ ∃ a, x = .ok a ∧ f a = b := by
  cases x <;> simp [Except.map]

theorem mapError_eq_ok {x : Except ε α} {f : ε → ε'} {a : α} : x.mapError f = .ok a ↔ x = .ok a := by
  cases x with
  | ok b => exact ⟨fun h => by cases h; rfl, fun h => by cases h; rfl⟩
  | error e => exact ⟨nofun, nofun⟩

end

mutual

theorem denotes_of_read : ∀ {t : Tree} {v : Value} {levels : Nat}, Tree.read levels t = .ok v →
    Denotes t v ∧ v.depth ≤ levels
  | .null _ _, v, levels, h => by
    rw [Tree.read] at h
    cases h
    exact ⟨.null, Nat.zero_le _⟩
  | .bool b _ _, v, levels, h => by
    rw [Tree.read] at h
    cases h
    exact ⟨.bool, Nat.zero_le _⟩
  | .number r _ _, v, levels, h => by
    rw [Tree.read, map_eq_ok] at h
    obtain ⟨n, hn, rfl⟩ := h
    rw [mapError_eq_ok.1 hn]
    exact ⟨.number, Nat.zero_le _⟩
  | .string r _ _, v, levels, h => by
    rw [Tree.read, map_eq_ok] at h
    obtain ⟨s, hs, rfl⟩ := h
    rw [mapError_eq_ok.1 hs]
    exact ⟨.string, Nat.zero_le _⟩
  | .array start items, v, levels, h => by
    cases levels with
    | zero =>
      rw [Tree.read] at h
      cases h
    | succ n =>
      rw [Tree.read] at h
      obtain ⟨vs, hvs, rfl⟩ := map_eq_ok.1 h
      obtain ⟨hitems, hdepth⟩ := denotes_of_readItems hvs
      exact ⟨.array hitems, by rw [Value.depth]; omega⟩
  | .object start entries, v, levels, h => by
    cases levels with
    | zero =>
      rw [Tree.read] at h
      cases h
    | succ n =>
      rw [Tree.read] at h
      obtain ⟨es, hes, rfl⟩ := map_eq_ok.1 h
      obtain ⟨hentries, hdepth⟩ := denotes_of_readEntries hes
      exact ⟨.object hentries, by rw [Value.depth]; omega⟩
  | .broken _ _ _, v, levels, h => by
    rw [Tree.read] at h
    cases h

theorem denotes_of_readItems : ∀ {items : Items} {vs : List Value} {levels i : Nat},
    readItems levels i items = .ok vs → DenotesItems items vs ∧ itemsDepth vs ≤ levels
  | .close _, vs, levels, i, h => by
    rw [readItems] at h
    cases h
    exact ⟨.close, Nat.zero_le _⟩
  | .item _ t rest, vs, levels, i, h => by
    rw [readItems] at h
    obtain ⟨v, hv, h⟩ := bind_eq_ok.1 h
    obtain ⟨ws, hws, h⟩ := bind_eq_ok.1 h
    cases h
    obtain ⟨ht, hdepth⟩ := denotes_of_read (mapError_eq_ok.1 hv)
    obtain ⟨hitems, hdepths⟩ := denotes_of_readItems hws
    exact ⟨.item ht hitems, by rw [itemsDepth]; omega⟩
  | .finished _, _, _, _, h | .stray _, _, _, _, h | .dangling _, _, _, _, h
  | .cut _, _, _, _, h => by
    rw [readItems] at h <;> simp_all

theorem denotes_of_readEntries : ∀ {entries : Entries} {es : List (String × Value)} {levels : Nat},
    readEntries levels entries = .ok es → DenotesEntries entries es ∧ entriesDepth es ≤ levels
  | .close _, es, levels, h => by
    rw [readEntries] at h
    cases h
    exact ⟨.close, Nat.zero_le _⟩
  | .entry _ (.ok k) _ t rest, es, levels, h => by
    rw [readEntries] at h
    obtain ⟨v, hv, h⟩ := bind_eq_ok.1 h
    obtain ⟨fs, hfs, h⟩ := bind_eq_ok.1 h
    cases h
    obtain ⟨ht, hdepth⟩ := denotes_of_read (mapError_eq_ok.1 hv)
    obtain ⟨hentries, hdepths⟩ := denotes_of_readEntries hfs
    exact ⟨.entry ht hentries, by rw [entriesDepth]; omega⟩
  | .entry _ (.error _) _ _ _, _, _, h | .colonless _ (.error _) _ _, _, _, h
  | .colonless _ (.ok _) _ _, _, _, h | .finished _, _, _, h | .stray _, _, _, h
  | .dangling _ _, _, _, h | .cut _ _, _, _, h | .keyless _ _, _, _, h
  | .brokenKey _ _ _, _, _, h => by
    rw [readEntries] at h <;> simp_all

end

/-- A value is read from a tree if the tree has no faults and the value is not too
    deep, and only then. -/
theorem read_eq_ok_iff {t : Tree} {v : Value} {levels : Nat} :
    Tree.read levels t = .ok v ↔ Denotes t v ∧ v.depth ≤ levels :=
  ⟨denotes_of_read, fun ⟨h, hdepth⟩ => read_of_denotes h hdepth⟩

theorem denotes_unique {t : Tree} {v w : Value} (hv : Denotes t v) (hw : Denotes t w) : v = w := by
  have hreadv := read_of_denotes hv (Nat.le_max_left v.depth w.depth)
  have hreadw := read_of_denotes hw (Nat.le_max_right v.depth w.depth)
  exact Except.ok.inj (hreadv.symm.trans hreadw)

/-- **A text spells one value only.** -/
theorem spellsText_unique {text : String} {v w : Value} (hv : SpellsText text.toList v)
    (hw : SpellsText text.toList w) : v = w := by
  obtain ⟨t, e, htext, -, ht⟩ := ofText_spells hv
  obtain ⟨t', e', htext', -, ht'⟩ := ofText_spells hw
  cases htext.symm.trans htext'
  exact denotes_unique ht ht'

theorem finished_of_blank {e : Cursor} (h : Blank e.rest) : finished e = .ok () := by
  have hskip := skipBlanks_append h [] e.offset
  rw [List.append_nil] at hskip
  rw [finished, hskip]
  rfl

/-- **Reading.** A text that spells a value is read as this value, every object key
    once, if the value is not too deep; if it is, nothing is read. -/
theorem readText_spells_iff {text : String} {v w : Value} (h : SpellsText text.toList v) :
    readText text = .ok w ↔ v.depth ≤ maxLevels ∧ w = v.merged := by
  obtain ⟨t, e, htext, hblank, ht⟩ := ofText_spells h
  rw [readText, readFirst, htext, bind_eq_ok]
  constructor
  · rintro ⟨x, hx, hfinished⟩
    obtain ⟨v', hv', rfl⟩ := map_eq_ok.1 hx
    obtain ⟨ht', hdepth⟩ := read_eq_ok_iff.1 hv'
    obtain rfl := denotes_unique ht ht'
    rw [finished_of_blank hblank] at hfinished
    cases hfinished
    exact ⟨hdepth, rfl⟩
  · rintro ⟨hdepth, rfl⟩
    refine ⟨_, map_eq_ok.2 ⟨v, read_eq_ok_iff.2 ⟨ht, hdepth⟩, rfl⟩, ?_⟩
    rw [finished_of_blank hblank]
    rfl

theorem readText_of_spells {text : String} {v : Value} (h : Spells text.toList v)
    (hdepth : v.depth ≤ maxLevels) : readText text = .ok v.merged :=
  (readText_spells_iff h.text).2 ⟨hdepth, rfl⟩

end TreeDoc.Decode
