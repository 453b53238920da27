/-
  Integer literals and the texts they are read from.

  An integer of any number of digits may stand where a literal is expected. It stays an
  integer as long as it fits in 64 bits with a sign, and becomes a double if not.

  * `SpellsInteger`, `toString_of_spells`: integers as they are spelled, and written back;
  * `TokenTree`: the tree of a token in a text, or of the value that it spells;
  * `token_number`: what an integer token is read as;
  * `decodeLiteral_integer`: which literal that is;
  * `Leads.read`: in a file that is read, everything that is expected on the way has been
    read as well;
  * `integer_literals_exact`: integer tokens in files and documents.
-/
import TreeDoc.Proofs.Conservation
import TreeDoc.Proofs.Nesting

namespace TreeDoc.Json

/-! ## Integers as they are spelled -/

/-- The text is an integer: digits without a leading zero, after a minus if there is one. -/
inductive SpellsInteger : List Char → Int → Prop
  | plain {ds : List Char} : Whole ds → SpellsInteger ds (Nat.ofDigitChars 10 ds 0)
  | negated {ds : List Char} : Whole ds →
    SpellsInteger ('-' :: ds) (-(Nat.ofDigitChars 10 ds 0 : Int))

theorem digitValue_lt {c : Char} (h : isDigit c = true) : c.toNat - '0'.toNat < 10 := by
  simp only [isDigit, Bool.and_eq_true, decide_eq_true_eq] at h
  have hhigh : c.toNat ≤ 57 := h.2
  have hzero : '0'.toNat = 48 := rfl
  omega

theorem toDigits_digitValue {c : Char} (h : isDigit c = true) :
    Nat.toDigits 10 (c.toNat - '0'.toNat) = [c] := by
  have hlow : 48 ≤ c.toNat := by
    simp only [isDigit, Bool.and_eq_true, decide_eq_true_eq] at h
    exact h.1
  have hchar : ∀ k < 10, Nat.digitChar k = Char.ofNat (48 + k) := by decide
  have hzero : '0'.toNat = 48 := rfl
  rw [Nat.toDigits_of_lt_base (digitValue_lt h), hchar _ (digitValue_lt h), hzero,
    Nat.add_sub_cancel' hlow, Char.ofNat_toNat]

/-- Digits after a positive number are its last decimal digits. -/
theorem toDigits_ofDigitChars {cs : List Char} (hcs : ∀ c ∈ cs, isDigit c = true) {s : Nat}
    (hs : 0 < s) : Nat.toDigits 10 (Nat.ofDigitChars 10 cs s) = Nat.toDigits 10 s ++ cs := by
  induction cs generalizing s with
  | nil => rw [Nat.ofDigitChars_nil, List.append_nil]
  | cons c cs ih =>
    obtain ⟨hc, hcs⟩ := List.forall_mem_cons.1 hcs
    rw [Nat.ofDigitChars_cons, ih hcs (by omega),
      ← Nat.toDigits_append_toDigits (by decide) hs (digitValue_lt hc), toDigits_digitValue hc,
      List.append_assoc, List.singleton_append]

/-- Digits without a leading zero are the decimal digits of their value. -/
theorem toDigits_of_whole {ds : List Char} (h : Whole ds) :
    Nat.toDigits 10 (Nat.ofDigitChars 10 ds 0) = ds := by
  obtain ⟨c, cs, rfl⟩ := List.exists_cons_of_ne_nil h.nonempty
  obtain ⟨hc, hcs⟩ := List.forall_mem_cons.1 h.digit
  by_cases hzero : c.toNat - '0'.toNat = 0
  · obtain rfl := eq_zero_of_isDigit hc hzero
    rw [h.lone rfl]
    rfl
  · rw [Nat.ofDigitChars_cons, Nat.mul_zero, Nat.zero_add,
      toDigits_ofDigitChars hcs (Nat.pos_of_ne_zero hzero), toDigits_digitValue hc,
      List.singleton_append]

/-- **Integers are written as they are spelled**, unless it is minus zero. -/
theorem toString_of_spells {t : String} {n : Int} (h : SpellsInteger t.toList n)
    (hzero : t ≠ "-0") : toString n = t := by
  refine String.toList_injective ?_
  generalize hcs : t.toList = cs at h
  cases h with
  | plain hds => exact (toString_ofNat _).trans (toDigits_of_whole hds)
  | @negated ds hds =>
    have hdigits := toDigits_of_whole hds
    cases hm : Nat.ofDigitChars 10 ds 0 with
    | zero =>
      rw [hm] at hdigits
      refine absurd (String.toList_injective ?_) hzero
      rw [hcs, ← hdigits]
      rfl
    | succ k =>
      rw [hm] at hdigits
      exact (toString_negSucc k).trans (congrArg _ hdigits)

/-- Every integer is spelled by its text. -/
theorem spellsInteger_toString (n : Int) : SpellsInteger (toString n).toList n := by
  have hvalue : ∀ k, Nat.ofDigitChars 10 (Nat.toDigits 10 k) 0 = k := fun _ =>
    Nat.ofDigitChars_ten_toDigits
  cases n with
  | ofNat k =>
    have h := SpellsInteger.plain (whole_toDigits k)
    rw [hvalue] at h
    rw [toString_ofNat]
    exact h
  | negSucc k =>
    have h := SpellsInteger.negated (whole_toDigits (k + 1))
    rw [hvalue] at h
    rw [toString_negSucc]
    exact h

/-! ## What integers are read as -/

/-- If all digits are collected, their value is within 64 bits. -/
theorem le_of_collect {cs : List Char} {s w : Nat} (hs : s ≤ maxSignificand)
    (h : collect s (digitValues cs) = (w, [])) : Nat.ofDigitChars 10 cs s ≤ maxSignificand := by
  induction cs generalizing s with
  | nil => exact hs
  | cons c cs ih =>
    rw [digitValues, List.map_cons, collect] at h
    rw [Nat.ofDigitChars_cons, Nat.mul_comm]
    split at h
    · rename_i hle
      exact ih hle h
    · cases h

/-- Digits that go beyond 64 bits are read as a double, if at all. -/
theorem read_large {negative : Bool} {ds : List Char} {q p : Nat} {x : Number}
    (hlarge : maxSignificand < Nat.ofDigitChars 10 ds 0)
    (h : Numeral.read ⟨negative, digitValues ds, none, none⟩ q p = .ok x) : ∃ y, x = .float y := by
  rw [Numeral.read] at h
  cases hcollect : collect 0 (digitValues ds) with
  | mk whole unread =>
    cases unread with
    | nil => exact absurd (le_of_collect (Nat.zero_le _) hcollect) (Nat.not_le_of_gt hlarge)
    | cons d unread =>
      rw [hcollect] at h
      simp only [Numeral.read.finish] at h
      split at h
      · cases h
        exact ⟨_, rfl⟩
      · cases h

/-- The integer fits in 64 bits with a sign. -/
def FitsInt64 (n : Int) : Prop := -(Nat.pow 2 63 : Int) ≤ n ∧ n < Nat.pow 2 63

theorem fitsInt64_iff {n : Int} :
    FitsInt64 n ↔ -9223372036854775808 ≤ n ∧ n < 9223372036854775808 := Iff.rfl

/-- What a numeral without fraction and exponent is read as. -/
theorem read_integer {negative : Bool} {ds : List Char} {n : Int} {q p : Nat}
    (hn : n = if negative then -(Nat.ofDigitChars 10 ds 0 : Int) else Nat.ofDigitChars 10 ds 0)
    (hzero : negative = true → n ≠ 0) :
    (FitsInt64 n → Numeral.read ⟨negative, digitValues ds, none, none⟩ q p = .ok (.int n)) ∧
    ∀ x, Numeral.read ⟨negative, digitValues ds, none, none⟩ q p = .ok x →
      x = .int n ∨ ¬ FitsInt64 n ∧ ∃ y, x = .float y := by
  have hmax : maxSignificand = 18446744073709551615 := rfl
  by_cases hlarge : Nat.ofDigitChars 10 ds 0 ≤ maxSignificand
  · have hread : Numeral.read ⟨negative, digitValues ds, none, none⟩ q p =
        .ok (integer negative (Nat.ofDigitChars 10 ds 0)) := by
      rw [Numeral.read, collect_digitValues hlarge]
    rw [hread]
    cases negative with
    | false =>
      rw [hn]
      exact ⟨fun _ => rfl, fun x hx => .inl (Except.ok.inj hx).symm⟩
    | true =>
      have hnonzero := hzero rfl
      simp only [if_true] at hn
      rw [integer, if_pos rfl]
      split
      · rw [hn]
        exact ⟨fun _ => rfl, fun x hx => .inl (Except.ok.inj hx).symm⟩
      · rename_i hsmall
        have hout : ¬ FitsInt64 n := by
          rw [fitsInt64_iff]
          simp only [Nat.pow_eq] at hsmall
          omega
        exact ⟨fun hfits => absurd hfits hout, fun x hx =>
          .inr ⟨hout, _, (Except.ok.inj hx).symm⟩⟩
  · have hout : ¬ FitsInt64 n := by
      rw [fitsInt64_iff]
      split at hn <;> omega
    exact ⟨fun hfits => absurd hfits hout, fun x hx =>
      .inr ⟨hout, read_large (Nat.lt_of_not_le hlarge) hx⟩⟩

/-- The tree of a token: as it is scanned in a text, or of the value that it spells. -/
inductive TokenTree (t : String) : Tree → Prop
  | scanned {c : Char} {cs rest : List Char} {o : Nat} : t.toList = c :: cs → Delimited rest →
    TokenTree t (scanValue c (cs ++ rest) o).1
  | value {v : Value} : Spells t.toList v → TokenTree t (Tree.ofValue v)

/-- An integer is scanned as a numeral without fraction and exponent. -/
theorem scanValue_integer {c : Char} {cs rest : List Char} {n : Int}
    (h : SpellsInteger (c :: cs) n) (hrest : Delimited rest) (o : Nat) :
    ∃ negative ds q p b,
      (scanValue c (cs ++ rest) o).1 =
        .number (Numeral.read ⟨negative, digitValues ds, none, none⟩ q p) o b ∧
      (n = if negative then -(Nat.ofDigitChars 10 ds 0 : Int) else Nat.ofDigitChars 10 ds 0) ∧
      (negative = true → c = '-') := by
  cases h with
  | plain hds =>
    obtain ⟨q, p, hscan⟩ := scanNumber_numeral (spellsNumeral_whole hds false) hrest o
    have hvalue := scanValue_positive (hds.digit c List.mem_cons_self) hscan
    exact ⟨false, c :: cs, q, p, p, congrArg Prod.fst hvalue, rfl, fun h => absurd h (by decide)⟩
  | negated hds =>
    obtain ⟨q, p, hscan⟩ := scanNumber_numeral (spellsNumeral_whole hds true) hrest (o + 1)
    exact ⟨true, cs, q, p, p, congrArg Prod.fst (scanValue_negative hscan), rfl, fun _ => rfl⟩

/-- **Integer tokens.** An integer token that fits in 64 bits with a sign is read as this
    integer. Any other is read as it or as a double, if at all. -/
theorem token_number {t : String} {n : Int} {u : Tree} (ht : SpellsInteger t.toList n)
    (hzero : t ≠ "-0") (hu : TokenTree t u) :
    ∃ r a b, u = .number r a b ∧ (FitsInt64 n → r = .ok (.int n)) ∧
      ∀ x, r = .ok x → x = .int n ∨ ¬ FitsInt64 n ∧ ∃ y, x = .float y := by
  have hscanned : ∀ {c : Char} {cs rest : List Char} {o : Nat}, t.toList = c :: cs →
      Delimited rest → ∃ r a b, (scanValue c (cs ++ rest) o).1 = .number r a b ∧
        (FitsInt64 n → r = .ok (.int n)) ∧
        ∀ x, r = .ok x → x = .int n ∨ ¬ FitsInt64 n ∧ ∃ y, x = .float y := by
    intro c cs rest o hcs hrest
    rw [hcs] at ht
    obtain ⟨negative, ds, q, p, b, hscan, hn, hminus⟩ := scanValue_integer ht hrest o
    refine ⟨_, o, b, hscan, read_integer hn fun hneg h0 => ?_⟩
    -- a token with a minus is not the text of zero
    have htext := toString_of_spells (hcs ▸ ht) hzero
    rw [h0] at htext
    rw [← htext, hminus hneg] at hcs
    exact absurd (List.cons.inj hcs).1 (by decide)
  cases hu with
  | scanned hcs hrest => exact hscanned hcs hrest
  | value hv =>
    obtain ⟨c, cs, hcs, -, -⟩ := hv.head
    rw [hcs] at hv
    have hend : Delimited [] := by simp [Delimited]
    obtain ⟨tree, p, hscan, hdenotes⟩ := scanValue_spells hv hend 0
    obtain ⟨r, a, b, htree, hread⟩ := hscanned hcs hend
    have htree : tree = .number r a b := (congrArg Prod.fst hscan).symm.trans htree
    subst htree
    cases hdenotes with
    | number => exact ⟨_, 0, 0, by rw [Tree.ofValue], hread⟩

end TreeDoc.Json

namespace TreeDoc.Decode

open Json Program

/-! ## Integer literals -/

/-- A number that can be read is a literal in any source. -/
theorem decodeLiteral_number {src : Source} {r : Except Fault Number} {a b : Nat} {l : Literal} :
    decodeLiteral src (.number r a b) = .ok l ↔ literal? (.number r a b) = some l := by
  cases r with
  | error f =>
    constructor <;> intro h
    · cases src <;> cases h
    · cases h
  | ok x =>
    -- a text reads the number first, which does not fail
    cases hl : literal? (.number (.ok x) a b) with
    | none =>
      have hfails : decodeLiteral src (.number (.ok x) a b) =
          .error { cause := .noVariant "Literal" } := by
        cases src with
        | text => simp only [decodeLiteral, hl]; rfl
        | value | buffered => simp only [decodeLiteral, hl]
      rw [hfails]
      constructor <;> intro h <;> cases h
    | some l' =>
      have hreads : decodeLiteral src (.number (.ok x) a b) = .ok l' := by
        cases src <;> simp only [decodeLiteral, hl] <;> rfl
      rw [hreads, Except.ok.injEq, Option.some.injEq]

theorem fitsInt64_iff_le {n : Int} :
    FitsInt64 n ↔ Int64.minValue.toInt ≤ n ∧ n ≤ Int64.maxValue.toInt := by
  have hmin : Int64.minValue.toInt = -9223372036854775808 := by decide
  have hmax : Int64.maxValue.toInt = 9223372036854775807 := by decide
  rw [fitsInt64_iff, hmin, hmax]
  omega

theorem literal?_int {n : Int} (a b : Nat) (h : FitsInt64 n) :
    literal? (.number (.ok (.int n)) a b) = some (.int (Int64.ofInt n)) := by
  rw [literal?, if_pos (fitsInt64_iff_le.1 h)]

theorem literal?_large {n : Int} (a b : Nat) (h : ¬ FitsInt64 n) :
    ∃ x, literal? (.number (.ok (.int n)) a b) = some (.float x) := by
  refine ⟨n.toNat.toUInt64.toFloat, ?_⟩
  rw [literal?, if_neg fun hfits => h (fitsInt64_iff_le.2 hfits)]

theorem toInt_ofInt {n : Int} (h : FitsInt64 n) : (Int64.ofInt n).toInt = n :=
  Int64.toInt_ofInt_of_le h.1 h.2

/-- **Integer literals.** An integer token is read as the integer that it spells if and only
    if this fits in 64 bits with a sign, and as a double if it does not and is read. -/
theorem decodeLiteral_integer {t : String} {n : Int} {u : Tree} (ht : SpellsInteger t.toList n)
    (hzero : t ≠ "-0") (hu : TokenTree t u) (src : Source) :
    (FitsInt64 n → decode src u .literal = .ok (.int (Int64.ofInt n))) ∧
    (¬ FitsInt64 n → ∀ l, decode src u .literal = .ok l → ∃ x, l = .float x) := by
  obtain ⟨r, a, b, rfl, hfits, hread⟩ := token_number ht hzero hu
  refine ⟨fun h => ?_, fun h l hl => ?_⟩
  · obtain rfl := hfits h
    exact decodeLiteral_number.2 (literal?_int a b h)
  · have hl := decodeLiteral_number.1 hl
    cases r with
    | error f => cases hl
    | ok x =>
      obtain rfl | ⟨-, y, rfl⟩ := hread x rfl
      · obtain ⟨y, hy⟩ := literal?_large a b h
        exact ⟨y, Option.some.inj (hl.symm.trans hy)⟩
      · exact ⟨y, (Option.some.inj hl).symm⟩

/-! ## What is read on the way -/

/-- Of what has parts only attributes are not made of what is read from them. -/
theorem Part.isComposite {s s' : Shape} {t u : Tree} {step : Step}
    (h : Part s t step (.shape s') u) (hs' : s' ≠ .text) : s.isComposite = true := by
  cases h with
  | item | element | entry => rfl
  | attr => exact absurd rfl hs'
  | nodeElement _ hfields => cases s <;> first | rfl | cases hfields
  | nodeEntry _ _ hfields => cases s <;> first | rfl | cases hfields

theorem Part.not_text {e : Expectation} {t u : Tree} {step : Step} : ¬ Part .text t step e u := by
  intro h
  cases h with
  | firstTag htags => cases htags
  | tagEntry htags _ => cases htags
  | nodeElement _ hfields _ _ _ => cases hfields
  | nodeEntry _ _ hfields _ _ _ => cases hfields

/-- **What is expected is read.** If a tree is read, then so is every part of it that is
    expected, and its constructs are those of the tree or stand in them. -/
theorem Leads.read {s s' : Shape} {t u : Tree} {way : Path} {src : Source} {a : s.Carrier}
    (hway : Leads (.shape s) t way (.shape s') u) (hs' : s' ≠ .text)
    (h : decode src t s = .ok a) :
    ∃ src' b, decode src' u s' = .ok b ∧ ∀ d ∈ s'.constructs b, ∃ c ∈ s.constructs a,
      Relation.ReflTransGen Construct.Holds c d := by
  induction way generalizing s t src with
  | nil =>
    cases hway
    exact ⟨src, a, h, fun d hd => ⟨d, hd, .refl⟩⟩
  | cons step way ih =>
    cases hway with
    | @into _ _ t' _ _ _ e' _ hpart hrest =>
    cases e' with
    | tag tags => cases hrest
    | shape s₁ =>
      have hs₁ : s₁ ≠ .text := by
        rintro rfl
        cases hrest with
        | here => exact hs' rfl
        | into hpart _ => exact hpart.not_text
      obtain ⟨src₁, cs, hopened⟩ := decode_opened (hpart.isComposite hs₁) h
      obtain ⟨b₁, hb₁, hmem⟩ := hopened.kept hpart
      obtain ⟨src', b, hb, hconstructs⟩ := ih hrest hb₁
      refine ⟨src', b, hb, fun d hd => ?_⟩
      obtain ⟨c, hc, hcd⟩ := hconstructs d hd
      have hc : c ∈ constructsOf cs := List.mem_flatMap.2 ⟨⟨s₁, b₁⟩, hmem, hc⟩
      obtain hlist | ⟨c', hself, hcontents⟩ := hopened.made.constructs
      · exact ⟨c, by rwa [hlist], hcd⟩
      · refine ⟨c', by rw [hself]; exact List.mem_singleton_self c', .head ?_ hcd⟩
        rwa [Construct.Holds, hcontents]

/-! ## Where literals stand -/

theorem expr_of_literal : ∀ w ∈ exprVariants, ∀ (vs : Values w.layout.fields) (l : Literal),
    ⟨.literal, l⟩ ∈ Values.contents _ vs → ∃ d : TypedLiteral, d.value = l ∧
      w.layout.build vs = .literal d := by
  simp [exprVariants, functionCallLayout, actionCallLayout, literalExprLayout,
    typedLiteralLayout, slotLayout, Values.contents, Field.contents]

/-- A literal is read as the value of a literal expression, or of a structure that holds
    nothing else. -/
theorem Part.read_literal {s : Shape} {t u : Tree} {step : Step} {src : Source} {a : s.Carrier}
    (hpart : Part s t step (.shape .literal) u) (hs : s = .expr ∨ s = .record .typedLiteral)
    (h : decode src t s = .ok a) :
    ∃ src' l, decode src' u .literal = .ok l.value ∧
      (s = .expr ∧ .expr (.literal l) ∈ s.constructs a ∨
        s = .record .typedLiteral ∧ .record .typedLiteral l ∈ s.constructs a) := by
  obtain ⟨src', cs, hopened⟩ := decode_opened (hpart.isComposite nofun) h
  obtain ⟨l, hl, hmem⟩ := hopened.kept hpart
  have hmade := hopened.made
  clear hopened
  obtain rfl | rfl := hs
  · cases hmade with
    | expr hw vs =>
      obtain ⟨d, rfl, hd⟩ := expr_of_literal _ hw vs l hmem
      exact ⟨src', d, hl, .inl ⟨rfl, by rw [hd]; exact List.mem_singleton_self _⟩⟩
  · cases hmade with
    | record vs =>
      obtain rfl : l = (typedLiteralLayout.build vs).value := by
        simpa [Record.layout, typedLiteralLayout, Values.contents, Field.contents] using hmem
      exact ⟨src', _, hl, .inr ⟨rfl, List.mem_singleton_self _⟩⟩

end TreeDoc.Decode

namespace TreeDoc.Program

theorem holds_typedLiteral {c : Construct} {l : TypedLiteral}
    (h : c.Holds (.record .typedLiteral l)) : ∃ d, c = .record .constant d ∧ d.value = l := by
  cases c with
  | record r a => cases r <;> simp [Construct.Holds, Construct.contents] at h ⊢; exact h.symm
  | stmt s => cases s <;> simp [Construct.Holds, Construct.contents, Stmt.contents] at h
  | expr e => simp [Construct.Holds, Construct.contents] at h

theorem holds_constant {c : Construct} {d : ConstantDef}
    (h : c.Holds (.record .constant d)) : ∃ f, c = .record .file f ∧ d ∈ f.constants := by
  cases c with
  | record r a => cases r <;> simp [Construct.Holds, Construct.contents] at h ⊢; exact h
  | stmt s => cases s <;> simp [Construct.Holds, Construct.contents, Stmt.contents] at h
  | expr e => simp [Construct.Holds, Construct.contents] at h

theorem not_holds_file {c : Construct} {f : File} : ¬ c.Holds (.record .file f) := by
  intro h
  cases c with
  | record r a => cases r <;> simp [Construct.Holds, Construct.contents] at h
  | stmt s => cases s <;> simp [Construct.Holds, Construct.contents, Stmt.contents] at h
  | expr e => simp [Construct.Holds, Construct.contents] at h

/-- Only constants hold a literal as a structure. -/
theorem File.Has.constant {f : File} {l : TypedLiteral} (h : f.Has (.record .typedLiteral l)) :
    ∃ d ∈ f.constants, d.value = l := by
  rcases h.cases_tail with heq | ⟨c, hc, hl⟩
  · cases heq
  obtain ⟨d, rfl, hd⟩ := holds_typedLiteral hl
  rcases hc.cases_tail with heq | ⟨c, hc, hl⟩
  · cases heq
  obtain ⟨f', rfl, hmem⟩ := holds_constant hl
  rcases hc.cases_tail with heq | ⟨c, -, hl⟩
  · cases heq
    exact ⟨d, hmem, hd⟩
  · exact absurd hl not_holds_file

end TreeDoc.Program

namespace TreeDoc

open Decode Document Json Model Program
open Files (FileSystem)

/-! ## Files and documents -/

theorem constantNode_mem_root {f : File} {d : ConstantDef} (h : d ∈ f.constants) (st : Style) :
    constantNode d ∈ (document st f).root := by
  have hordered : TopLevel.constant d ∈ f.ordered := by
    simpa [File.ordered, File.topLevel] using h
  exact List.mem_append_right _ (List.mem_map.2 ⟨_, hordered, rfl⟩)

theorem literalNode_mem_nodes {f : File} {l : TypedLiteral} {st : Style}
    (h : Element.expr (.literal l) ∈ reachedFrom st f) : literalNode l ∈ (document st f).nodes := by
  refine (heads_sublist_nodes st f).subset (List.mem_flatMap.2 ⟨_, h, ?_⟩)
  simp [heads, Element.isBlock, elementNodes, exprNode]

/-- The literal stands in the file as what a shape describes: as an expression, or as the
    value of a constant. -/
inductive LiteralAt (f : File) (l : TypedLiteral) : Shape → Prop
  | expr : f.Has (.expr (.literal l)) → LiteralAt f l .expr
  | constant {d : ConstantDef} : d ∈ f.constants → d.value = l →
    LiteralAt f l (.record .typedLiteral)

/-- The literal has this text when it is written out, in its node, and in the node of a
    constant whose value it is. -/
structure WrittenAs (l : TypedLiteral) (t : String) : Prop where
  source : (Expr.literal l).source = t
  node : Assoc.get? "basic-literal-value" (literalNode l).attrs = some (.text t)
  constant (d : ConstantDef) : d.value = l →
    Assoc.get? "constant-value" (constantNode d).attrs = some (.text t)

theorem writtenAs_of_text {l : TypedLiteral} {i : Int64} (h : l.value = .int i) :
    WrittenAs l (toString i.toInt) where
  source := by
    rw [Expr.source, h]
    rfl
  node := by
    show some (Scalar.text l.value.text) = _
    rw [h]
    rfl
  constant d hd := by
    show some (Scalar.text d.value.value.text) = _
    rw [hd, h]
    rfl

/-- What is read where a literal is expected stands in the file. -/
theorem literal_of_loadFile {fs : FileSystem} {path : String} {pointer : Option String} {f : File}
    {whole node u : Tree} {way : Path} {step : Step} {s : Shape}
    (hload : loadFile fs path pointer = .ok f)
    (hwhole : loadedTree fs path pointer = some whole)
    (hway : Leads (.shape (.record .file)) whole way (.shape s) node)
    (hs : s = .expr ∨ s = .record .typedLiteral) (hpart : Part s node step (.shape .literal) u) :
    ∃ src l, decode src u .literal = .ok l.value ∧ LiteralAt f l s := by
  obtain ⟨src, t, ht, hdecode, -⟩ := decode_of_loadFile hload
  obtain rfl : t = whole := Option.some.inj (ht.symm.trans hwhole)
  have hnottext : s ≠ .text := by rcases hs with rfl | rfl <;> nofun
  obtain ⟨src₁, a, ha, hconstructs⟩ := hway.read hnottext hdecode
  -- the constructs of the node stand in the file
  have hhas : ∀ d ∈ s.constructs a, f.Has d := by
    intro d hd
    obtain ⟨c, hc, hcd⟩ := hconstructs d hd
    rw [constructs_record] at hc
    obtain rfl := List.mem_singleton.1 hc
    exact hcd
  obtain ⟨src', l, hl, ⟨rfl, hmem⟩ | ⟨rfl, hmem⟩⟩ := hpart.read_literal hs ha
  · exact ⟨src', l, hl, .expr (hhas _ hmem)⟩
  · obtain ⟨d, hd, hvalue⟩ := (hhas _ hmem).constant
    exact ⟨src', l, hl, .constant hd hvalue⟩

/-- **Integer literals keep their text.** Let an integer token other than `-0` stand where a
    literal is expected. It is read as the integer that it spells if and only if this fits in
    64 bits with a sign, and as a double if it does not and is read. So it is in every file
    that is loaded, for a literal expression and for the value of a constant. If the integer
    fits, the literal is written as the token was, in its text and in every document: the
    node of a constant stands at the root, that of an expression wherever the document
    reaches it. -/
theorem integer_literals_exact {t : String} {n : Int} (ht : SpellsInteger t.toList n)
    (hzero : t ≠ "-0") {u : Tree} (hu : TokenTree t u) :
    (∀ src, (∃ i : Int64, i.toInt = n ∧ decode src u .literal = .ok (.int i)) ↔ FitsInt64 n) ∧
    (∀ src l, ¬ FitsInt64 n → decode src u .literal = .ok l → ∃ x, l = .float x) ∧
    ∀ {fs : FileSystem} {path : String} {pointer : Option String} {f : File} {whole node : Tree}
      {way : Path} {step : Step} {s : Shape}, loadFile fs path pointer = .ok f →
      loadedTree fs path pointer = some whole →
      Leads (.shape (.record .file)) whole way (.shape s) node →
      s = .expr ∨ s = .record .typedLiteral → Part s node step (.shape .literal) u →
      ∃ l, LiteralAt f l s ∧ ((∃ i : Int64, i.toInt = n ∧ l.value = .int i) ↔ FitsInt64 n) ∧
        (¬ FitsInt64 n → ∃ x, l.value = .float x) ∧ (FitsInt64 n → WrittenAs l t) ∧
        ∀ st : Style, (.expr (.literal l) ∈ reachedFrom st f →
          literalNode l ∈ (document st f).nodes) ∧
          ∀ d ∈ f.constants, d.value = l → constantNode d ∈ (document st f).root := by
  have hint : ∀ src, FitsInt64 n → decode src u .literal = .ok (.int (Int64.ofInt n)) :=
    fun src => (decodeLiteral_integer ht hzero hu src).1
  have hfloat : ∀ src l, ¬ FitsInt64 n → decode src u .literal = .ok l → ∃ x, l = .float x :=
    fun src l hlarge => (decodeLiteral_integer ht hzero hu src).2 hlarge l
  have hiff : ∀ src l, decode src u .literal = .ok l →
      ((∃ i : Int64, i.toInt = n ∧ l = .int i) ↔ FitsInt64 n) := by
    intro src l hl
    refine ⟨?_, fun hfits => ⟨_, toInt_ofInt hfits, ?_⟩⟩
    · rintro ⟨i, -, rfl⟩
      by_contra hlarge
      obtain ⟨x, hx⟩ := hfloat src _ hlarge hl
      cases hx
    · exact Except.ok.inj (hl.symm.trans (hint src hfits))
  refine ⟨fun src => ⟨?_, fun hfits => ⟨_, toInt_ofInt hfits, hint src hfits⟩⟩, hfloat, ?_⟩
  · rintro ⟨i, hi, hl⟩
    exact (hiff src _ hl).1 ⟨i, hi, rfl⟩
  · intro fs path pointer f whole node way step s hload hwhole hway hs hpart
    obtain ⟨src, l, hl, hat⟩ := literal_of_loadFile hload hwhole hway hs hpart
    refine ⟨l, hat, hiff src _ hl, fun hlarge => hfloat src _ hlarge hl, fun hfits => ?_,
      fun st => ⟨literalNode_mem_nodes, fun d hd _ => constantNode_mem_root hd st⟩⟩
    have hvalue := Except.ok.inj (hl.symm.trans (hint src hfits))
    have hwritten := writtenAs_of_text hvalue
    rwa [toInt_ofInt hfits, toString_of_spells ht hzero] at hwritten

/-- A file with the least integer of 64 bits as the value of a constant. -/
def leastFile : File where
  packageName := "p"
  imports := []
  constants := [⟨"c", "int", ⟨"int", .int Int64.minValue⟩, 0⟩]
  services := []
  functions := []
  connectors := []
  structs := []
  typeConverters := []
  mainInvoker := none

/-- The integer as a value. -/
def leastNumber : Value := .number (.int (-9223372036854775808))

/-- The literal as an object. -/
def leastLiteral : Value := .object [("type", .string "int"), ("value", leastNumber)]

/-- The file as an object. -/
def leastValue : Value :=
  .object [("package_name", .string "p"), ("constants", .array [.object [("name", .string "c"),
    ("type", .string "int"), ("value", leastLiteral)]])]

/-- A folder with the text of the file. -/
def leastFolder : FileSystem := .ofFolder [("least.json", .file (some leastValue.compact))]

theorem least_loads : loadFile leastFolder "least.json" (some "") = .ok leastFile ∧
    loadedTree leastFolder "least.json" (some "") = some (Tree.ofValue leastValue) := by
  have hread : leastFolder.read "least.json" = .ok leastValue.compact := rfl
  have htext : SpellsText leastValue.compact.toList leastValue := (compact_spells rfl).text
  have hdistinct : leastValue.distinct = true := by decide
  have hfirst : readFirst leastValue.compact = .ok leastValue := by
    rw [readFirst, (HasValue.of_spells htext (by decide) hdistinct).read, Except.map,
      Value.merged_eq_self hdistinct]
  refine ⟨(loadFile_value_iff hread hfirst rfl).2 rfl, ?_⟩
  simp only [loadedTree, hread, hfirst, Except.toOption, Option.bind_some]
  rfl

theorem least_kept :
    SpellsInteger "-9223372036854775808".toList (-(Nat.pow 2 63 : Int)) ∧
    TokenTree "-9223372036854775808" (Tree.ofValue leastNumber) ∧
    loadFile leastFolder "least.json" (some "") = .ok leastFile ∧
    ∃ l, LiteralAt leastFile l (.record .typedLiteral) ∧ WrittenAs l "-9223372036854775808" := by
  have htext : toString (-9223372036854775808 : Int) = "-9223372036854775808" := by decide
  have hspells : SpellsInteger "-9223372036854775808".toList (-9223372036854775808) :=
    htext ▸ spellsInteger_toString _
  have hnumber : Spells (toString (-9223372036854775808 : Int)).toList leastNumber :=
    @spells_number (.int (-9223372036854775808)) rfl
  have htoken : TokenTree "-9223372036854775808" (Tree.ofValue leastNumber) :=
    .value (htext ▸ hnumber)
  have hway : Leads (.shape (.record .file)) (Tree.ofValue leastValue)
      [.key "constants", .index 0, .key "value"] (.shape (.record .typedLiteral))
      (Tree.ofValue leastLiteral) :=
    .into (.entry rfl rfl rfl) (.into (.item rfl) (.into (.entry rfl rfl rfl) .here))
  have hpart : Part (.record .typedLiteral) (Tree.ofValue leastLiteral) (.key "value")
      (.shape .literal) (Tree.ofValue leastNumber) := .entry rfl rfl rfl
  obtain ⟨hload, hwhole⟩ := least_loads
  obtain ⟨-, -, hfile⟩ := integer_literals_exact hspells (by decide) htoken
  obtain ⟨l, hat, -, -, hwritten, -⟩ := hfile hload hwhole hway (.inr rfl) hpart
  exact ⟨hspells, htoken, hload, l, hat, hwritten ⟨by decide, by decide⟩⟩

end TreeDoc
