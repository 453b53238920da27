/-
  Written values are read back.

  * `Value.integral`: the values of which this is shown, without doubles;
  * `spells_array`, `spells_object`: items and entries, separated by commas and
    blanks and set between brackets;
  * `compact_spells`, `prettyAt_spells`: both ways of writing spell the value.
-/
import TreeDoc.Proofs.JsonReader
import Mathlib.Data.List.Forall2

namespace TreeDoc.Json

/-! ## Values without doubles -/

/-- The number is an integer of at most 64 bits. -/
def Number.integral : Number → Bool
  | .int n => -(Nat.pow 2 63 : Int) ≤ n && n ≤ maxSignificand
  | .float _ => false

mutual

/-- All numbers in the value are integers of at most 64 bits. -/
def Value.integral : Value → Bool
  | .number n => n.integral
  | .array items => integralItems items
  | .object entries => integralEntries entries
  | _ => true

/-- All numbers in the items are integers of at most 64 bits. -/
def integralItems : List Value → Bool
  | [] => true
  | v :: vs => v.integral && integralItems vs

/-- All numbers in the entries are integers of at most 64 bits. -/
def integralEntries : List (String × Value) → Bool
  | [] => true
  | (_, v) :: es => v.integral && integralEntries es

end

/-! ## Items and entries between brackets -/

/-- The text spells the key and the value of an entry. -/
def SpellsEntry (text : List Char) (entry : String × Value) : Prop :=
  ∃ bs cs, text = '"' :: (inQuotes entry.1.toList ++ '"' :: ':' :: (bs ++ cs)) ∧ Blank bs ∧
    Spells cs entry.2

theorem separated_toList (sep s : String) (ss : List String) :
    (Text.separated sep (s :: ss)).toList =
      s.toList ++ ss.flatMap fun t => sep.toList ++ t.toList := by
  induction ss generalizing s with
  | nil => simp [Text.separated]
  | cons t ts ih => simp [Text.separated, ih t]

theorem lead_comma {bs : List Char} (h : Blank bs) : Lead false (',' :: bs) := .comma blank_nil h

-- Both ways of writing are cases of this: `gap` stands before the first item and
-- after every comma, and `gap'` before the closing bracket.
section
variable {gap gap' : String} (hgap : Blank gap.toList) (hgap' : Blank gap'.toList)
include hgap hgap'

theorem spells_items {ss : List String} {vs : List Value}
    (h : List.Forall₂ (fun s v => Spells s.toList v) ss vs) :
    SpellsItems false (ss.flatMap (fun t => ("," ++ gap).toList ++ t.toList) ++
      (gap'.toList ++ [']'])) vs := by
  induction h with
  | nil => exact .close hgap'
  | cons hs _ ih => simpa using SpellsItems.item (lead_comma hgap) hs ih

theorem spells_array {ss : List String} {vs : List Value}
    (h : List.Forall₂ (fun s v => Spells s.toList v) ss vs) :
    Spells ("[" ++ gap ++ Text.separated ("," ++ gap) ss ++ gap' ++ "]").toList (.array vs) := by
  have hitems : SpellsItems true
      (gap.toList ++ (Text.separated ("," ++ gap) ss).toList ++ (gap'.toList ++ [']'])) vs := by
    cases h with
    | nil =>
      have hblank : Blank (gap.toList ++ gap'.toList) := List.forall_mem_append.2 ⟨hgap, hgap'⟩
      simpa [Text.separated] using SpellsItems.close hblank
    | cons hs hss =>
      rw [separated_toList]
      simpa using SpellsItems.item (.first hgap) hs (spells_items hgap hgap' hss)
  simpa using Spells.array hitems

theorem spells_entries {ss : List String} {es : List (String × Value)}
    (h : List.Forall₂ (fun s e => SpellsEntry s.toList e) ss es) :
    SpellsEntries false (ss.flatMap (fun t => ("," ++ gap).toList ++ t.toList) ++
      (gap'.toList ++ ['}'])) es := by
  induction h with
  | nil => exact .close hgap'
  | cons hs _ ih =>
    obtain ⟨bs, cs, htext, hbs, hcs⟩ := hs
    simpa [htext] using SpellsEntries.entry (lead_comma hgap) (spellsChars_inQuotes _) blank_nil hbs hcs ih

theorem spells_object {ss : List String} {es : List (String × Value)}
    (h : List.Forall₂ (fun s e => SpellsEntry s.toList e) ss es) :
    Spells ("\x7b" ++ gap ++ Text.separated ("," ++ gap) ss ++ gap' ++ "\x7d").toList
      (.object es) := by
  have hentries : SpellsEntries true
      (gap.toList ++ (Text.separated ("," ++ gap) ss).toList ++ (gap'.toList ++ ['}'])) es := by
    cases h with
    | nil =>
      have hblank : Blank (gap.toList ++ gap'.toList) := List.forall_mem_append.2 ⟨hgap, hgap'⟩
      simpa [Text.separated] using SpellsEntries.close hblank
    | cons hs hss =>
      obtain ⟨bs, cs, htext, hbs, hcs⟩ := hs
      rw [separated_toList, htext]
      simpa using SpellsEntries.entry (.first hgap) (spellsChars_inQuotes _) blank_nil hbs
        hcs (spells_entries hgap hgap' hss)
  simpa using Spells.object hentries

end

/-! ## On one line -/

theorem spells_escaped (s : String) : Spells (escaped s).toList (.string s) := by
  rw [escaped_toList]
  exact .string (spellsChars_inQuotes _)

theorem spells_number {n : Number} (h : n.integral = true) : Spells n.write.toList (.number n) := by
  cases n with
  | int n =>
    simp only [Number.integral, Bool.and_eq_true, decide_eq_true_eq] at h
    exact .number (spellsNumber_int h.1 h.2)
  | float x => cases h

theorem spells_bool (b : Bool) : Spells (if b then "true" else "false").toList (.bool b) := by
  cases b with
  | true => exact .yes
  | false => exact .no

theorem spells_entry {colon text : String} {bs : List Char} {v : Value} (k : String)
    (hcolon : colon.toList = ':' :: bs) (hbs : Blank bs) (h : Spells text.toList v) :
    SpellsEntry (escaped k ++ colon ++ text).toList (k, v) := by
  refine ⟨bs, text.toList, ?_, hbs, h⟩
  simp [escaped_toList, hcolon]

mutual

theorem compact_spells : ∀ {v : Value}, v.integral = true → Spells v.compact.toList v
  | .null, _ => by
    rw [Value.compact]
    exact .null
  | .bool b, _ => by
    rw [Value.compact]
    exact spells_bool b
  | .number n, h => by
    rw [Value.integral] at h
    rw [Value.compact]
    exact spells_number h
  | .string s, _ => by
    rw [Value.compact]
    exact spells_escaped s
  | .array items, h => by
    rw [Value.integral] at h
    rw [Value.compact]
    simpa using @spells_array "" "" blank_nil blank_nil _ _ (compactItems_spell h)
  | .object entries, h => by
    rw [Value.integral] at h
    rw [Value.compact]
    simpa using @spells_object "" "" blank_nil blank_nil _ _ (compactEntries_spell h)

theorem compactItems_spell : ∀ {vs : List Value}, integralItems vs = true →
    List.Forall₂ (fun s v => Spells s.toList v) (compactItems vs) vs
  | [], _ => by
    rw [compactItems]
    exact .nil
  | v :: vs, h => by
    rw [integralItems, Bool.and_eq_true] at h
    rw [compactItems]
    exact .cons (compact_spells h.1) (compactItems_spell h.2)

theorem compactEntries_spell : ∀ {es : List (String × Value)}, integralEntries es = true →
    List.Forall₂ (fun s e => SpellsEntry s.toList e) (compactEntries es) es
  | [], _ => by
    rw [compactEntries]
    exact .nil
  | (k, v) :: es, h => by
    rw [integralEntries, Bool.and_eq_true] at h
    rw [compactEntries]
    exact .cons (spells_entry k rfl blank_nil (compact_spells h.1)) (compactEntries_spell h.2)

end

/-! ## Indented -/

theorem blank_newline (level : Nat) : Blank (newline level).toList := by
  intro c hc
  rw [newline, String.toList_append] at hc
  rcases List.mem_append.1 hc with h | h
  · rw [List.mem_singleton.1 h]
    rfl
  · rw [String.toList_ofList] at h
    rw [List.eq_of_mem_replicate h]
    rfl

theorem spells_indented_array (level : Nat) {ss : List String} {vs : List Value}
    (h : List.Forall₂ (fun s v => Spells s.toList v) ss vs) :
    Spells (indented level "[" "]" ss).toList (.array vs) := by
  cases h with
  | nil => simpa [indented] using Spells.array (.close blank_nil)
  | cons hs hss =>
    exact spells_array (blank_newline (level + 1)) (blank_newline level) (.cons hs hss)

theorem spells_indented_object (level : Nat) {ss : List String} {es : List (String × Value)}
    (h : List.Forall₂ (fun s e => SpellsEntry s.toList e) ss es) :
    Spells (indented level "\x7b" "\x7d" ss).toList (.object es) := by
  cases h with
  | nil => simpa [indented] using Spells.object (.close blank_nil)
  | cons hs hss =>
    exact spells_object (blank_newline (level + 1)) (blank_newline level) (.cons hs hss)

mutual

theorem prettyAt_spells (level : Nat) : ∀ {v : Value}, v.integral = true →
    Spells (v.prettyAt level).toList v
  | .null, _ => by
    rw [Value.prettyAt]
    exact .null
  | .bool b, _ => by
    rw [Value.prettyAt]
    exact spells_bool b
  | .number n, h => by
    rw [Value.integral] at h
    rw [Value.prettyAt]
    exact spells_number h
  | .string s, _ => by
    rw [Value.prettyAt]
    exact spells_escaped s
  | .array items, h => by
    rw [Value.integral] at h
    rw [Value.prettyAt]
    exact spells_indented_array level (prettyItems_spell (level + 1) h)
  | .object entries, h => by
    rw [Value.integral] at h
    rw [Value.prettyAt]
    exact spells_indented_object level (prettyEntries_spell (level + 1) h)

theorem prettyItems_spell (level : Nat) : ∀ {vs : List Value}, integralItems vs = true →
    List.Forall₂ (fun s v => Spells s.toList v) (prettyItems level vs) vs
  | [], _ => by
    rw [prettyItems]
    exact .nil
  | v :: vs, h => by
    rw [integralItems, Bool.and_eq_true] at h
    rw [prettyItems]
    exact .cons (prettyAt_spells level h.1) (prettyItems_spell level h.2)

theorem prettyEntries_spell (level : Nat) : ∀ {es : List (String × Value)},
    integralEntries es = true →
      List.Forall₂ (fun s e => SpellsEntry s.toList e) (prettyEntries level es) es
  | [], _ => by
    rw [prettyEntries]
    exact .nil
  | (k, v) :: es, h => by
    have hblank : Blank [' '] := by simp [Blank, isBlank]
    rw [integralEntries, Bool.and_eq_true] at h
    rw [prettyEntries]
    exact .cons (spells_entry k rfl hblank (prettyAt_spells level h.1))
      (prettyEntries_spell level h.2)

end

end TreeDoc.Json
