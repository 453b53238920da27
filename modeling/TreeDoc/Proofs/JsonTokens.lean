/-
  Strings and numbers in JSON texts.

  A string or a number may be written in more than one way: a character by itself,
  by a short escape or by its UTF-16 units, a number with a fraction and an exponent
  or without. Here is what may be written and what it stands for, and that the
  scanner reads it so.

  * `SpellsChar`, `SpellsChars`: what may stand between quotes, and the characters
    that it stands for;
  * `scanText_spells`: the scanner reads these characters;
  * `spellsChars_inQuotes`: what is written between quotes spells the same string;
  * `SpellsNumeral`, `SpellsNumber`: numerals and the numbers they denote;
  * `scanNumber_spells`: the scanner reads this number, if what follows cannot
    belong to the numeral;
  * `spellsNumber_int`: an integer of at most 64 bits is spelled by its decimal
    digits.
-/
import TreeDoc.Json.Scan
import TreeDoc.Json.Writer

namespace TreeDoc.Json

/-! ## Characters of a string -/

/-- The text stands for the character between quotes. -/
inductive SpellsChar : List Char → Char → Prop
  | plain {c : Char} : c ≠ '"' → c ≠ '\\' → ¬c < ' ' → SpellsChar [c] c
  | escape {e c : Char} : shortEscape? e = some c → SpellsChar ['\\', e] c
  | unit {a b c d : Char} {n : Nat} :
    hexUnit? a b c d = some n → isLead n = false → isTrail n = false →
      SpellsChar ['\\', 'u', a, b, c, d] (Char.ofNat n)
  /-- A character beyond the first plane is written by two units. -/
  | pair {a b c d a' b' c' d' : Char} {n n' : Nat} :
    hexUnit? a b c d = some n → isLead n = true →
    hexUnit? a' b' c' d' = some n' → isTrail n' = true →
      SpellsChar ['\\', 'u', a, b, c, d, '\\', 'u', a', b', c', d']
        (Char.ofNat ((n - 0xD800) * 0x400 + (n' - 0xDC00) + 0x10000))

/-- The text stands for the characters between quotes. -/
inductive SpellsChars : List Char → List Char → Prop
  | nil : SpellsChars [] []
  | cons {text texts : List Char} {c : Char} {cs : List Char} :
    SpellsChar text c → SpellsChars texts cs → SpellsChars (text ++ texts) (c :: cs)

theorem isLead_eq_false_of_isTrail {n : Nat} (h : isTrail n = true) : isLead n = false := by
  simp only [isTrail, Bool.and_eq_true, decide_eq_true_eq] at h
  simp only [isLead, Bool.and_eq_false_iff, decide_eq_false_iff_not]
  omega

/-- **One character.** The scanner turns what is written for a character into
    pieces that are read as this character, whatever comes after it. -/
theorem SpellsChar.scanString {text : List Char} {c : Char} (h : SpellsChar text c)
    (cs : List Char) (o : Nat) : ∃ ps p,
      scanString (text ++ cs) o = (ps ++ (scanString cs p).1, (scanString cs p).2) ∧
      ∀ close tail, readPieces close (ps ++ tail) = (readPieces close tail).map (c :: ·) := by
  cases h with
  | plain hquote hbackslash hcontrol =>
    refine ⟨[(.plain c, o + c.utf8Size)], o + c.utf8Size, ?_, fun _ _ => rfl⟩
    simp [Json.scanString, hbackslash, hcontrol]
  | @escape e _ hescape =>
    refine ⟨[(.escaped c, o + 2)], o + 2, ?_, fun _ _ => rfl⟩
    have hu : e ≠ 'u' := by
      rintro rfl
      cases hescape
    simp [Json.scanString, hu, hescape]
  | @unit _ _ _ _ n hunit hlead htrail =>
    refine ⟨[(.unit n, o + 6)], o + 6, by simp [Json.scanString, hunit], fun close tail => ?_⟩
    rw [List.singleton_append, readPieces.eq_def]
    simp [hlead, htrail]
  | @pair _ _ _ _ _ _ _ _ n n' hunit hlead hunit' htrail =>
    refine ⟨[(.unit n, o + 6), (.unit n', o + 12)], o + 12,
      by simp [Json.scanString, hunit, hunit'], fun close tail => ?_⟩
    have hfirst : isTrail n = false := by
      cases ht : isTrail n with
      | false => rfl
      | true => rw [isLead_eq_false_of_isTrail ht] at hlead; cases hlead
    rw [List.cons_append, List.singleton_append, readPieces.eq_def]
    simp [hfirst, hlead, htrail]

theorem SpellsChars.scanString {text cs : List Char} (h : SpellsChars text cs) (rest : List Char)
    (o : Nat) : ∃ ps p, scanString (text ++ '"' :: rest) o = (ps, .ok ⟨rest, p⟩) ∧
      readPieces (.ok ⟨rest, p⟩) ps = .ok cs := by
  induction h generalizing o with
  | nil => exact ⟨[], o + 1, rfl, rfl⟩
  | cons hc _ ih =>
    obtain ⟨ps, p, hscan, hread⟩ := hc.scanString (_ ++ '"' :: rest) o
    obtain ⟨qs, q, hscans, hreads⟩ := ih p
    rw [hscans] at hscan
    refine ⟨ps ++ qs, q, by rw [List.append_assoc, hscan], ?_⟩
    rw [hread, hreads]
    rfl

/-- **Strings.** What may be written for a string between quotes is read as this
    string. -/
theorem scanText_spells {text : List Char} {s : String} (h : SpellsChars text s.toList)
    (rest : List Char) (o : Nat) :
    ∃ p hp, scanText (text ++ '"' :: rest) o = .ok (.ok s, ⟨⟨rest, p⟩, hp⟩) := by
  obtain ⟨ps, p, hscan, hread⟩ := h.scanString rest o
  have hstring : readString ps (.ok ⟨rest, p⟩) = .ok s := by
    rw [readString, hread]
    simp [Except.map]
  refine ⟨p, scanString_length_le hscan, ?_⟩
  unfold scanText
  split
  · rename_i h
    rw [hscan] at h
    cases h
    rw [hstring]
  · rename_i h
    rw [hscan] at h
    cases h

/-! ## Strings as they are written -/

/-- What stands between the quotes. -/
def inQuotes (cs : List Char) : List Char := cs.flatMap fun c => (escapedChar c).toList

theorem escaped_toList (s : String) :
    (escaped s).toList = '"' :: (inQuotes s.toList ++ ['"']) := by
  rw [escaped, String.toList_append, String.toList_append, String.toList_join, List.flatMap_map]
  rfl

theorem hexUnit?_low : ∀ n < 16, hexUnit? '0' '0' '0' (Nat.digitChar n) = some n := by decide

theorem hexUnit?_high : ∀ n < 16, hexUnit? '0' '0' '1' (Nat.digitChar n) = some (16 + n) := by
  decide

theorem hex_low : ∀ n < 16, (Text.hex n).toList = [Nat.digitChar n] := by
  have h : ∀ n < 16, Nat.toDigits 16 n = [Nat.digitChar n] := by decide
  intro n hn
  rw [Text.hex, String.toList_ofList, h n hn]

theorem hex_high : ∀ n < 16, (Text.hex (16 + n)).toList = ['1', Nat.digitChar n] := by
  have h : ∀ n < 16, Nat.toDigits 16 (16 + n) = ['1', Nat.digitChar n] := by decide
  intro n hn
  rw [Text.hex, String.toList_ofList, h n hn]

theorem spellsChar_unit {c a b : Char} (h : c.toNat < 32)
    (hunit : hexUnit? '0' '0' a b = some c.toNat) : SpellsChar ['\\', 'u', '0', '0', a, b] c := by
  have htrail : isTrail c.toNat = false := by
    rw [isTrail, Bool.and_eq_false_iff]
    exact Or.inl (decide_eq_false (by omega))
  have hlead : isLead c.toNat = false := by
    rw [isLead, Bool.and_eq_false_iff]
    exact Or.inl (decide_eq_false (by omega))
  simpa using SpellsChar.unit hunit hlead htrail

/-- However a character is written, it stands for itself. -/
theorem spellsChar_escapedChar (c : Char) : SpellsChar (escapedChar c).toList c := by
  unfold escapedChar
  split
  · exact .escape rfl
  · exact .escape rfl
  · exact .escape rfl
  · exact .escape rfl
  · exact .escape rfl
  · exact .escape rfl
  · exact .escape rfl
  · rename_i hquote hbackslash _ _ _ _ _
    split
    · rename_i hlow
      have hn : c.toNat < 16 := hlow
      rw [String.toList_append, hex_low _ hn]
      show SpellsChar ['\\', 'u', '0', '0', '0', Nat.digitChar c.toNat] c
      exact spellsChar_unit (by omega) (hexUnit?_low _ hn)
    · split
      · rename_i hlow hhigh
        have hlow : ¬c.toNat < 16 := hlow
        have hhigh : c.toNat < 32 := hhigh
        obtain ⟨n, hn⟩ := Nat.exists_eq_add_of_le (Nat.le_of_not_lt hlow)
        rw [String.toList_append, hn, hex_high n (by omega)]
        show SpellsChar ['\\', 'u', '0', '0', '1', Nat.digitChar n] c
        refine spellsChar_unit hhigh ?_
        rw [hexUnit?_high n (by omega), hn]
      · rename_i hhigh
        simpa using SpellsChar.plain hquote hbackslash hhigh

theorem spellsChars_inQuotes (cs : List Char) : SpellsChars (inQuotes cs) cs := by
  induction cs with
  | nil => exact .nil
  | cons c cs ih => exact .cons (spellsChar_escapedChar c) ih

/-! ## Numerals -/

/-- The characters are decimal digits, and at least one. -/
structure Digits (cs : List Char) : Prop where
  nonempty : cs ≠ []
  digit : ∀ c ∈ cs, isDigit c = true

/-- The values of digits. -/
def digitValues (cs : List Char) : List Nat := cs.map fun c => c.toNat - '0'.toNat

/-- The digits of an integer: no zero stands before other digits. -/
structure Whole (cs : List Char) : Prop extends Digits cs where
  lone : cs.head? = some '0' → cs = ['0']

/-- The text is a point and the digits of a fraction, or empty if there is
    none. -/
inductive SpellsFraction : List Char → Option (List Nat) → Prop
  | absent : SpellsFraction [] none
  | present {ds : List Char} : Digits ds → SpellsFraction ('.' :: ds) (some (digitValues ds))

/-- The text is the sign of an exponent, which is positive without one. -/
inductive SpellsSign : List Char → Bool → Prop
  | absent : SpellsSign [] false
  | plus : SpellsSign ['+'] false
  | minus : SpellsSign ['-'] true

/-- The text is an exponent with its mark, or empty if there is none. -/
inductive SpellsExponent : List Char → Option Exponent → Prop
  | absent : SpellsExponent [] none
  | present {mark : Char} {ss ds : List Char} {negative : Bool} :
    mark = 'e' ∨ mark = 'E' → SpellsSign ss negative → Digits ds →
      SpellsExponent (mark :: (ss ++ ds)) (some ⟨negative, digitValues ds⟩)

/-- The text is the numeral without its sign. -/
inductive SpellsNumeral : List Char → Numeral → Prop
  | intro {negative : Bool} {ws fs es : List Char} {fraction : Option (List Nat)}
      {exponent : Option Exponent} :
    Whole ws → SpellsFraction fs fraction → SpellsExponent es exponent →
      SpellsNumeral (ws ++ (fs ++ es)) ⟨negative, digitValues ws, fraction, exponent⟩

/-- The text is a numeral that denotes the number. -/
inductive SpellsNumber : List Char → Number → Prop
  | positive {cs : List Char} {n : Numeral} {x : Number} :
    SpellsNumeral cs n → n.negative = false → n.read 0 0 = .ok x → SpellsNumber cs x
  | negative {cs : List Char} {n : Numeral} {x : Number} :
    SpellsNumeral cs n → n.negative = true → n.read 0 0 = .ok x → SpellsNumber ('-' :: cs) x

/-- What may follow a value: nothing, a blank, a comma or a closing bracket. -/
def Delimited (rest : List Char) : Prop :=
  ∀ c ∈ rest.head?, isBlank c = true ∨ c = ',' ∨ c = ']' ∨ c = '}'

theorem Delimited.head {rest : List Char} (h : Delimited rest) :
    ∀ c ∈ rest.head?, isDigit c = false ∧ c ≠ '.' ∧ c ≠ 'e' ∧ c ≠ 'E' := by
  intro c hc
  rcases h c hc with hblank | rfl | rfl | rfl
  · simp only [isBlank, Bool.or_eq_true, decide_eq_true_eq] at hblank
    rcases hblank with ((rfl | rfl) | rfl) | rfl <;> decide
  all_goals decide

theorem scanDigits_append {ds rest : List Char} (hds : ∀ c ∈ ds, isDigit c = true)
    (hrest : ∀ c ∈ rest.head?, isDigit c = false) (o : Nat) :
    scanDigits (ds ++ rest) o = (digitValues ds, ⟨rest, o + ds.length⟩) := by
  induction ds generalizing o with
  | nil =>
    cases rest with
    | nil => rfl
    | cons c rest => simp [scanDigits, hrest c rfl, digitValues]
  | cons d ds ih =>
    obtain ⟨hd, hds⟩ := List.forall_mem_cons.1 hds
    rw [List.cons_append, scanDigits, if_pos hd, ih hds]
    simp [digitValues]
    omega

theorem digitValues_ne_nil {ds : List Char} (h : Digits ds) : digitValues ds ≠ [] := by
  simpa [digitValues] using h.nonempty

theorem eq_zero_of_isDigit {c : Char} (h : isDigit c = true) (hz : c.toNat - '0'.toNat = 0) :
    c = '0' := by
  simp only [isDigit, Bool.and_eq_true, decide_eq_true_eq] at h
  have hle : '0'.toNat ≤ c.toNat := h.1
  exact Char.toNat_inj.mp (by omega)

theorem scanWhole_append {ws rest : List Char} (h : Whole ws)
    (hrest : ∀ c ∈ rest.head?, isDigit c = false) (o : Nat) :
    scanWhole (ws ++ rest) o = .ok (digitValues ws, ⟨rest, o + ws.length⟩) := by
  rw [scanWhole, scanDigits_append h.digit hrest]
  obtain ⟨w, ws, rfl⟩ := List.exists_cons_of_ne_nil h.nonempty
  cases ws with
  | nil => cases hw : w.toNat - '0'.toNat <;> simp [digitValues]
  | cons w' ws =>
    -- a zero would stand alone
    cases hw : w.toNat - '0'.toNat with
    | zero =>
      have hzero : w = '0' := eq_zero_of_isDigit (h.digit w (by simp)) hw
      cases h.lone (by rw [hzero]; rfl)
    | succ n =>
      simp only [digitValues, List.map_cons, hw]

theorem scanFraction_append {fs rest : List Char} {fraction : Option (List Nat)}
    (h : SpellsFraction fs fraction)
    (hrest : ∀ c ∈ rest.head?, isDigit c = false ∧ c ≠ '.') (o : Nat) :
    ∃ p, scanFraction (fs ++ rest) o = .ok (fraction, ⟨rest, p⟩) := by
  cases h with
  | absent =>
    refine ⟨o, ?_⟩
    cases rest with
    | nil => rfl
    | cons c rest => simp [scanFraction, (hrest c rfl).2]
  | @present ds hds =>
    refine ⟨o + 1 + ds.length, ?_⟩
    rw [List.cons_append, scanFraction, scanDigits_append hds.digit fun c hc => (hrest c hc).1]
    cases hv : digitValues ds with
    | nil => exact absurd hv (digitValues_ne_nil hds)
    | cons v vs => rfl

theorem scanSign_append {ss ds rest : List Char} {negative : Bool} (h : SpellsSign ss negative)
    (hds : Digits ds) (o : Nat) :
    scanSign (ss ++ (ds ++ rest)) o = (negative, ⟨ds ++ rest, o + ss.length⟩) := by
  cases h with
  | absent =>
    obtain ⟨d, ds, rfl⟩ := List.exists_cons_of_ne_nil hds.nonempty
    have hd := hds.digit d (by simp)
    have hplus : d ≠ '+' := by rintro rfl; cases hd
    have hminus : d ≠ '-' := by rintro rfl; cases hd
    simp [scanSign, hplus, hminus]
  | plus => rfl
  | minus => rfl

theorem scanExponent_append {es rest : List Char} {exponent : Option Exponent}
    (h : SpellsExponent es exponent)
    (hrest : ∀ c ∈ rest.head?, isDigit c = false ∧ c ≠ 'e' ∧ c ≠ 'E') (o : Nat) :
    ∃ p q, scanExponent (es ++ rest) o = .ok (exponent, p, ⟨rest, q⟩) := by
  cases h with
  | absent =>
    refine ⟨o, o, ?_⟩
    cases rest with
    | nil => rfl
    | cons c rest => simp [scanExponent, hrest c rfl]
  | @present _ ss ds _ hmark hss hds =>
    refine ⟨o + 1 + ss.length, o + 1 + ss.length + ds.length, ?_⟩
    rw [List.cons_append, scanExponent, if_pos (by simpa using hmark), List.append_assoc, scanPower,
      scanSign_append hss hds]
    simp only
    rw [scanDigits_append hds.digit fun c hc => (hrest c hc).1]
    cases hv : digitValues ds with
    | nil => exact absurd hv (digitValues_ne_nil hds)
    | cons v vs => rfl

theorem Numeral.finish_offset {n : Numeral} {x : Number} {q : Nat} {significand : Nat}
    {exponent : Int} (h : Numeral.read.finish n q significand exponent = .ok x) (q' : Nat) :
    Numeral.read.finish n q' significand exponent = .ok x := by
  rw [Numeral.read.finish] at h ⊢
  split
  · rename_i hscaled
    rwa [hscaled] at h
  · rename_i hscaled
    rw [hscaled] at h
    cases h

/-- Where a numeral stands matters to its faults only. -/
theorem Numeral.read_offsets {n : Numeral} {x : Number} {p q : Nat} (h : n.read p q = .ok x)
    (p' q' : Nat) : n.read p' q' = .ok x := by
  rcases n with ⟨negative, whole, fraction, exponent⟩
  rw [Numeral.read] at h ⊢
  simp only at h ⊢
  generalize collect 0 whole = collected at h ⊢
  obtain ⟨significand, unread⟩ := collected
  cases exponent with
  | none =>
    cases unread with
    | nil =>
      cases fraction with
      | none => exact h
      | some fs => exact Numeral.finish_offset h q'
    | cons d ds => exact Numeral.finish_offset h q'
  | some e =>
    cases unread
    all_goals
      simp only at h ⊢
      cases hvalue : exponentValue 0 0 e.digits with
      | ok value =>
        rw [hvalue] at h
        exact Numeral.finish_offset h q'
      | error count =>
        rw [hvalue] at h
        simp only at h ⊢
        split at h
        · cases h
        · rename_i hzero
          rw [if_neg hzero]
          exact h

/-- A numeral is scanned up to its end, if what follows cannot belong to it. -/
theorem scanNumber_numeral {cs rest : List Char} {n : Numeral} (h : SpellsNumeral cs n)
    (hrest : Delimited rest) (o : Nat) :
    ∃ q p, scanNumber n.negative (cs ++ rest) o = .ok (n.read q p, ⟨rest, p⟩) := by
  obtain @⟨negative, ws, fs, es, fraction, exponent, hws, hfs, hes⟩ := h
  have hend := hrest.head
  -- an exponent, or what follows, begins neither with a digit nor with a point
  have hafter : ∀ c ∈ (es ++ rest).head?, isDigit c = false ∧ c ≠ '.' := by
    intro c hc
    cases hes with
    | absent => exact ⟨(hend c hc).1, (hend c hc).2.1⟩
    | present hmark _ _ =>
      cases hc
      rcases hmark with rfl | rfl <;> decide
  have hdigits : ∀ c ∈ (fs ++ (es ++ rest)).head?, isDigit c = false := by
    intro c hc
    cases hfs with
    | absent => exact (hafter c hc).1
    | present _ =>
      cases hc
      decide
  obtain ⟨p, hfraction⟩ := scanFraction_append hfs hafter (o + ws.length)
  obtain ⟨q, r, hexponent⟩ := scanExponent_append hes
    (fun c hc => ⟨(hend c hc).1, (hend c hc).2.2⟩) p
  refine ⟨q, r, ?_⟩
  rw [scanNumber, List.append_assoc, List.append_assoc, scanWhole_append hws hdigits]
  simp only [hfraction, hexponent]

/-- **Numbers.** A numeral is read as the number that it denotes, if what follows
    cannot belong to it. -/
theorem scanNumber_spells {cs rest : List Char} {n : Numeral} {x : Number}
    (h : SpellsNumeral cs n) (hread : n.read 0 0 = .ok x) (hrest : Delimited rest) (o : Nat) :
    ∃ p, scanNumber n.negative (cs ++ rest) o = .ok (.ok x, ⟨rest, p⟩) := by
  obtain ⟨q, p, hscan⟩ := scanNumber_numeral h hrest o
  exact ⟨p, by rw [hscan, Numeral.read_offsets hread q p]⟩

/-! ## Integers -/

/-- Digits are collected as long as their value is within 64 bits. -/
theorem collect_digitValues {cs : List Char} {s : Nat}
    (h : Nat.ofDigitChars 10 cs s ≤ maxSignificand) :
    collect s (digitValues cs) = (Nat.ofDigitChars 10 cs s, []) := by
  induction cs generalizing s with
  | nil => rfl
  | cons c cs ih =>
    rw [Nat.ofDigitChars_cons] at h ⊢
    have hle : 10 * s + (c.toNat - '0'.toNat) ≤ maxSignificand := by
      rw [Nat.ofDigitChars_eq_ofDigitChars_zero] at h
      have hpower : 1 * (10 * s + (c.toNat - '0'.toNat)) ≤
          10 ^ cs.length * (10 * s + (c.toNat - '0'.toNat)) :=
        Nat.mul_le_mul_right _ (Nat.pow_pos (by decide))
      omega
    rw [digitValues, List.map_cons, collect, Nat.mul_comm s 10, if_pos hle]
    exact ih h

theorem head?_toDigits {n : Nat} (h : (Nat.toDigits 10 n).head? = some '0') : n = 0 := by
  induction n using Nat.strongRecOn with
  | ind n ih =>
    rw [Nat.toDigits_eq_if (by decide)] at h
    split at h
    · rename_i hn
      exact Nat.digitChar_eq_zero.1 (Option.some.inj h)
    · rename_i hn
      obtain ⟨d, ds, hds⟩ := List.exists_cons_of_ne_nil (@Nat.toDigits_ne_nil (n / 10) 10)
      have hzero := ih (n / 10) (by omega) (by rwa [hds] at h ⊢)
      omega

theorem whole_toDigits (n : Nat) : Whole (Nat.toDigits 10 n) where
  nonempty := Nat.toDigits_ne_nil
  digit := fun _ hc => Nat.isDigit_of_mem_toDigits (by decide) (by decide) hc
  lone := by
    intro h
    rw [head?_toDigits h]
    rfl

theorem spellsNumeral_whole {ds : List Char} (h : Whole ds) (negative : Bool) :
    SpellsNumeral ds ⟨negative, digitValues ds, none, none⟩ := by
  have h : SpellsNumeral (ds ++ ([] ++ [])) ⟨negative, digitValues ds, none, none⟩ :=
    .intro h .absent .absent
  simpa using h

theorem read_digitValues {n : Nat} (h : n ≤ maxSignificand) (negative : Bool) (p q : Nat) :
    Numeral.read ⟨negative, digitValues (Nat.toDigits 10 n), none, none⟩ p q =
      .ok (integer negative n) := by
  have hvalue : Nat.ofDigitChars 10 (Nat.toDigits 10 n) 0 = n := Nat.ofDigitChars_ten_toDigits
  rw [Numeral.read, collect_digitValues (by rwa [hvalue]), hvalue]

theorem toString_ofNat (n : Nat) : (toString (Int.ofNat n)).toList = Nat.toDigits 10 n :=
  Nat.toList_repr

theorem toString_negSucc (n : Nat) :
    (toString (Int.negSucc n)).toList = '-' :: Nat.toDigits 10 (n + 1) := by
  show ("-" ++ (n + 1).repr).toList = _
  rw [String.toList_append, Nat.toList_repr]
  rfl

/-- **Integers.** The decimal digits of an integer of at most 64 bits, with or
    without a sign, denote this integer. -/
theorem spellsNumber_int {n : Int} (hlow : -(Nat.pow 2 63 : Int) ≤ n) (hhigh : n ≤ maxSignificand) :
    SpellsNumber (toString n).toList (.int n) := by
  cases n with
  | ofNat n =>
    have hn : n ≤ maxSignificand := Int.ofNat_le.1 hhigh
    rw [toString_ofNat]
    exact .positive (spellsNumeral_whole (whole_toDigits n) false) rfl
      (read_digitValues hn false 0 0)
  | negSucc n =>
    have hn : n + 1 ≤ Nat.pow 2 63 := Int.ofNat_le.1 (Int.neg_le_neg_iff.1 hlow)
    have hint : integer true (n + 1) = .int (Int.negSucc n) := by
      rw [integer, if_pos rfl, if_pos ⟨Nat.le_add_left 1 n, hn⟩]
      rfl
    rw [toString_negSucc, ← hint]
    exact .negative (spellsNumeral_whole (whole_toDigits (n + 1)) true) rfl
      (read_digitValues (Nat.le_trans hn (by decide)) true 0 0)

end TreeDoc.Json
