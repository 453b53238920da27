/-
  Line breaks in source text.

  Source text is meant to be one line. It is made of texts of the program, which stand in
  it as they are, and of what is written around them. The content of a string is not one
  of these texts, as it is quoted.

  * `Graphic`: texts without control characters, and so without line breaks;
  * `graphic_quoted`, `graphic_write`: quoted texts and numbers are graphic;
  * `Expr.rawTexts`, `Stmt.rawTexts`: the texts that are written as they are;
  * `Woven`: a text made of raw texts, each of them once and in order, with graphic text
    around them;
  * `Expr.woven`, `Stmt.woven`: source text is woven of its raw texts;
  * `line_breaks_raw`: so it has their line breaks, and no others.
-/
import Mathlib.Algebra.GroupWithZero.Nat
import Mathlib.Tactic.SplitIfs
import TreeDoc.Program.Source

namespace TreeDoc.Text

/-! ## Texts without control characters -/

/-- No character of the text is a control character: none comes before the blank. -/
def Graphic (s : String) : Prop := ∀ c ∈ s.toList, ' ' ≤ c

-- by the characters of the text, and not by all characters that there are
instance (s : String) : Decidable (Graphic s) :=
  decidable_of_iff (s.toList.all (' '.toNat ≤ ·.toNat) = true) <| by
    simp only [List.all_eq_true, decide_eq_true_eq]
    rfl

section
variable {s t : String}

theorem Graphic.append (hs : Graphic s) (ht : Graphic t) : Graphic (s ++ t) := by
  intro c hc
  rw [String.toList_append, List.mem_append] at hc
  rcases hc with hc | hc
  · exact hs c hc
  · exact ht c hc

theorem Graphic.enclosed (hs : Graphic s) {opening closing : String} (ho : Graphic opening)
    (hc : Graphic closing) : Graphic (opening ++ s ++ closing) := (ho.append hs).append hc

theorem graphic_ofList {cs : List Char} (h : ∀ c ∈ cs, ' ' ≤ c) : Graphic (String.ofList cs) := by
  intro c hc
  rw [String.toList_ofList] at hc
  exact h c hc

theorem graphic_join {ss : List String} (h : ∀ s ∈ ss, Graphic s) : Graphic (String.join ss) := by
  intro c hc
  rw [String.toList_join, List.mem_flatMap] at hc
  obtain ⟨s, hs, hc⟩ := hc
  exact h s hs c hc

end

theorem graphic_digitChar : ∀ n < 16, ' ' ≤ Nat.digitChar n := by decide

theorem graphic_digits {b : Nat} (hb : 1 < b) (hb' : b ≤ 16) (n : Nat) :
    ∀ c ∈ Nat.toDigits b n, ' ' ≤ c := by
  induction n using Nat.strongRecOn with
  | ind n ih =>
    intro c hc
    rw [Nat.toDigits_eq_if hb] at hc
    split_ifs at hc with hn
    · obtain rfl := List.mem_singleton.1 hc
      exact graphic_digitChar n (by omega)
    · rcases List.mem_append.1 hc with hc | hc
      · exact ih (n / b) (Nat.div_lt_self (by omega) hb) c hc
      · obtain rfl := List.mem_singleton.1 hc
        exact graphic_digitChar _ (Nat.lt_of_lt_of_le (Nat.mod_lt n (by omega)) hb')

/-! ## Quoted texts -/

theorem graphic_quotedChar (c : Char) : Graphic (quotedChar c) := by
  unfold quotedChar
  split
  · decide
  · decide
  · decide
  · decide
  · decide
  · decide
  · split_ifs with hplain
    · exact (graphic_ofList (graphic_digits (by decide) (by decide) _)).enclosed (by decide)
        (by decide)
    · intro d hd
      obtain rfl : d = c := by simpa using hd
      rw [Bool.or_eq_true, not_or, decide_eq_true_eq] at hplain
      exact Char.not_lt.1 hplain.1

/-- **A quoted text is graphic**, whatever stands between the quotes. -/
theorem graphic_quoted (s : String) : Graphic (quoted s) := by
  refine Graphic.enclosed (graphic_join fun t ht => ?_) (by decide) (by decide)
  obtain ⟨c, -, rfl⟩ := List.mem_map.1 ht
  exact graphic_quotedChar c

end TreeDoc.Text

/-! ## Numbers -/

namespace TreeDoc.Decimal

open Text

theorem graphic_nat (n : Nat) : Graphic (toString n) := by
  intro c hc
  have hdigits : (toString n).toList = Nat.toDigits 10 n := Nat.toList_repr
  exact graphic_digits (by decide) (by decide) n c (hdigits ▸ hc)

theorem graphic_int : ∀ n : Int, Graphic (toString n)
  | .ofNat n => graphic_nat n
  | .negSucc n => Graphic.append (s := "-") (by decide) (graphic_nat (n + 1))

theorem graphic_dropTrailingZeros {cs : List Char} (h : ∀ c ∈ cs, ' ' ≤ c) :
    ∀ c ∈ dropTrailingZeros cs, ' ' ≤ c := by
  intro c hc
  have hmem : c ∈ cs.reverse := (List.dropWhile_sublist _).subset (List.mem_reverse.1 hc)
  exact h c (List.mem_reverse.1 hmem)

theorem graphic_shortest (b : Binary) : ∀ c ∈ b.shortest.digits, ' ' ≤ c :=
  graphic_dropTrailingZeros (graphic_digits (by decide) (by decide) _)

section
variable {d : Digits} (h : ∀ c ∈ d.digits, ' ' ≤ c)
include h

theorem graphic_take (n : Nat) : Graphic (String.ofList (d.digits.take n)) :=
  graphic_ofList fun c hc => h c (List.mem_of_mem_take hc)

theorem graphic_drop (n : Nat) : Graphic (String.ofList (d.digits.drop n)) :=
  graphic_ofList fun c hc => h c (List.mem_of_mem_drop hc)

theorem graphic_inFull : Graphic d.inFull := by
  have hzeros : ∀ n, ∀ c ∈ List.replicate n '0', ' ' ≤ c := by
    intro n c hc
    rw [List.eq_of_mem_replicate hc]
    decide
  unfold Digits.inFull
  split_ifs
  · refine Graphic.append (by decide) (graphic_ofList fun c hc => ?_)
    exact (List.mem_append.1 hc).elim (hzeros _ c) (h c)
  · refine Graphic.append (graphic_ofList fun c hc => ?_) (by decide)
    exact (List.mem_append.1 hc).elim (h c) (hzeros _ c)
  · exact ((graphic_take h _).append (by decide)).append (graphic_drop h _)

theorem graphic_withExponent {plus : String} (hplus : Graphic plus) :
    Graphic (d.withExponent plus) := by
  unfold Digits.withExponent
  refine (((graphic_take h 1).append ?_).append ?_).append (graphic_int _)
  · split
    · decide
    · exact Graphic.append (by decide) (graphic_drop h 1)
  · split_ifs
    · exact Graphic.append (by decide) hplus
    · decide

end

theorem graphic_write {f : Notation} (hplus : Graphic f.plus) (x : Float) :
    Graphic (f.write x) := by
  have hsign : Graphic (if signBit x then "-" else "") := by
    split_ifs
    · decide
    · decide
  unfold Notation.write
  generalize signBit x = sign at hsign ⊢
  dsimp only
  split
  · decide
  split
  · exact hsign.append (by decide)
  split
  · exact hsign.append (by decide)
  refine hsign.append ?_
  split
  · exact graphic_inFull (graphic_shortest _)
  · exact graphic_withExponent (graphic_shortest _) hplus

end TreeDoc.Decimal

namespace TreeDoc.Program

open Text

/-! ## Raw texts -/

mutual

/-- The texts that an expression is written with as they are, in order. A literal has none:
    its type is not written, and a string is quoted. -/
def Expr.rawTexts : Expr → List String
  | .functionCall name package args => package.toList ++ [name] ++ rawTextsOf args
  | .actionCall name connector package args =>
    package.toList ++ [connector] ++ [name] ++ rawTextsOf args
  | .literal _ => []
  | .binary _ lhs rhs => lhs.rawTexts ++ rhs.rawTexts
  | .unary _ operand => operand.rawTexts
  | .variable name => [name]
  | .cast type operand => type :: operand.rawTexts
  | .array args => rawTextsOf args
  | .map args => rawTextsOf args
  | .template content => [content]
  | .creation type => [type]
  | .access name index => name :: index.rawTexts
  | .keyValue key value => key.rawTexts ++ value.rawTexts
  | .structInit type args => type :: rawTextsOf args
  | .fieldAccess name fields => name :: fields
  | .resourceCall name args => name :: rawTextsOf args
  | .location _ => []

/-- The raw texts of expressions. -/
def rawTextsOf : List Expr → List String
  | [] => []
  | e :: es => e.rawTexts ++ rawTextsOf es

end

mutual

/-- The texts that a statement is written with as they are, in order. -/
def Stmt.rawTexts : Stmt → List String
  | .block statements => stmtRawTexts statements
  | .assign lhs rhs => rawTextsOf lhs ++ rhs.rawTexts
  | .comment text => [text]
  | .ifElse condition thenBody elseBody =>
    condition.rawTexts ++ thenBody.rawTexts ++ optionRawTexts elseBody
  | .whileLoop condition body => condition.rawTexts ++ optionRawTexts body
  | .functionCall name package args => (Expr.functionCall name package args).rawTexts
  | .actionCall name connector package args =>
    (Expr.actionCall name connector package args).rawTexts
  | .reply value => value.rawTexts
  | .returning values => rawTextsOf values

/-- The raw texts of statements. -/
def stmtRawTexts : List Stmt → List String
  | [] => []
  | s :: ss => s.rawTexts ++ stmtRawTexts ss

/-- The raw texts of a branch or body, if there is one. -/
def optionRawTexts : Option Stmt → List String
  | none => []
  | some s => s.rawTexts

end

/-! ## Texts woven of raw texts -/

/-- The text is made of raw texts, each of them once and in order, and of graphic text. -/
inductive Woven : String → List String → Prop
  | graphic {s : String} : Graphic s → Woven s []
  | raw (s : String) : Woven s [s]
  | append {s t : String} {ss ts : List String} : Woven s ss → Woven t ts →
      Woven (s ++ t) (ss ++ ts)

namespace Woven

variable {s t : String} {ss ts : List String}

theorem followed (h : Woven s ss) (ht : Graphic t) : Woven (s ++ t) ss := by
  simpa using h.append (.graphic ht)

theorem preceded (ht : Graphic t) (h : Woven s ss) : Woven (t ++ s) ss :=
  (Woven.graphic ht).append h

theorem enclosed (h : Woven s ss) {opening closing : String} (ho : Graphic opening)
    (hc : Graphic closing) : Woven (opening ++ s ++ closing) ss := (h.preceded ho).followed hc

/-- **Woven text has the control characters of its raw texts**, each as often as they have
    it together. -/
theorem count (h : Woven s ss) {c : Char} (hc : c < ' ') :
    s.toList.count c = (ss.map fun t => t.toList.count c).sum := by
  induction h with
  | graphic hs => exact List.count_eq_zero.2 fun hmem => absurd hc (Char.not_lt.2 (hs c hmem))
  | raw s => simp
  | append _ _ ihs iht => simp [List.count_append, ihs, iht]

end Woven

/-! ## Source text -/

theorem BinaryOp.graphic_symbol (op : BinaryOp) : Graphic op.symbol := by
  cases op <;> decide

theorem UnaryOp.graphic_symbol (op : UnaryOp) : Graphic op.symbol := by
  cases op <;> decide

theorem Literal.graphic_source (l : Literal) : Graphic l.source := by
  cases l with
  | bool b => cases b <;> decide
  | int n => exact Decimal.graphic_int n.toInt
  | float x => exact Decimal.graphic_write (by decide) x
  | string s => exact graphic_quoted s
  | null => decide

theorem Slot.graphic_source (s : Slot) : Graphic s.source := by
  have hstorage : Graphic s.storage.source := by
    cases s.storage <;> decide
  exact ((hstorage.append (by decide)).append (Decimal.graphic_nat _)).append (by decide)

theorem woven_qualified (package : Option String) (name : String) :
    Woven (qualified package name) (package.toList ++ [name]) := by
  cases package with
  | none => exact .raw name
  | some p => exact ((Woven.raw p).followed (by decide)).append (.raw name)

theorem woven_fields : ∀ fields : List String,
    Woven (String.join (fields.map ("." ++ ·))) fields
  | [] => .graphic (by decide)
  | f :: fields => by
    rw [List.map_cons, String.join_cons]
    exact ((Woven.raw f).preceded (by decide)).append (woven_fields fields)

theorem woven_grouped {e : Expr} {text : String} {ts : List String} (tooWeak : Nat → Bool)
    (h : Woven text ts) : Woven (grouped tooWeak e text) ts := by
  unfold grouped
  split
  · split_ifs
    · exact h.enclosed (by decide) (by decide)
    · exact h
  · exact h

mutual

/-- **The source text of an expression is woven of its raw texts.** -/
theorem Expr.woven : ∀ e : Expr, Woven e.source e.rawTexts
  | .functionCall name package args => by
    rw [Expr.source, Expr.rawTexts]
    exact (((woven_qualified package name).followed (by decide)).append
      (woven_sources args)).followed (by decide)
  | .actionCall name connector package args => by
    rw [Expr.source, Expr.rawTexts]
    have hhead : Woven (qualified package connector ++ "." ++ name)
        (package.toList ++ [connector] ++ [name]) :=
      ((woven_qualified package connector).followed (by decide)).append (.raw name)
    exact ((hhead.followed (by decide)).append (woven_sources args)).followed (by decide)
  | .literal l => by
    rw [Expr.source, Expr.rawTexts]
    exact .graphic l.value.graphic_source
  | .binary op lhs rhs => by
    rw [Expr.source, Expr.rawTexts]
    have hlhs : Woven (grouped (· < op.precedence) lhs lhs.source ++ " ") lhs.rawTexts :=
      (woven_grouped _ lhs.woven).followed (by decide)
    have hrhs : Woven (grouped (· ≤ op.precedence) rhs rhs.source) rhs.rawTexts :=
      woven_grouped _ rhs.woven
    exact ((hlhs.followed op.graphic_symbol).followed (by decide)).append hrhs
  | .unary op operand => by
    rw [Expr.source, Expr.rawTexts]
    exact (woven_grouped _ operand.woven).preceded op.graphic_symbol
  | .variable name => by
    rw [Expr.source, Expr.rawTexts]
    exact .raw name
  | .cast type operand => by
    rw [Expr.source, Expr.rawTexts]
    exact ((Woven.raw type).enclosed (by decide) (by decide)).append
      (woven_grouped _ operand.woven)
  | .array args => by
    rw [Expr.source, Expr.rawTexts]
    exact (woven_sources args).enclosed (by decide) (by decide)
  | .map args => by
    rw [Expr.source, Expr.rawTexts]
    exact (woven_sources args).enclosed (by decide) (by decide)
  | .template content => by
    rw [Expr.source, Expr.rawTexts]
    exact (Woven.raw content).enclosed (by decide) (by decide)
  | .creation type => by
    rw [Expr.source, Expr.rawTexts]
    exact (Woven.raw type).preceded (by decide)
  | .access name index => by
    rw [Expr.source, Expr.rawTexts]
    exact (((Woven.raw name).followed (by decide)).append index.woven).followed (by decide)
  | .keyValue key value => by
    rw [Expr.source, Expr.rawTexts]
    exact (key.woven.followed (by decide)).append value.woven
  | .structInit type args => by
    rw [Expr.source, Expr.rawTexts]
    exact (((Woven.raw type).followed (by decide)).append (woven_sources args)).followed
      (by decide)
  | .fieldAccess name fields => by
    rw [Expr.source, Expr.rawTexts]
    exact (Woven.raw name).append (woven_fields fields)
  | .resourceCall name args => by
    rw [Expr.source, Expr.rawTexts]
    exact (((Woven.raw name).followed (by decide)).append (woven_sources args)).followed
      (by decide)
  | .location slot => by
    rw [Expr.source, Expr.rawTexts]
    exact .graphic slot.graphic_source

theorem woven_sources : ∀ es : List Expr, Woven (commaSeparated (sources es)) (rawTextsOf es)
  | [] => .graphic (by decide)
  | [e] => by
    rw [rawTextsOf, rawTextsOf, List.append_nil]
    exact e.woven
  | e :: e' :: es => by
    rw [rawTextsOf]
    exact (e.woven.followed (by decide)).append (woven_sources (e' :: es))

end

mutual

/-- **The source text of a statement is woven of its raw texts.** -/
theorem Stmt.woven : ∀ s : Stmt, Woven s.source s.rawTexts
  | .block [] => by
    rw [Stmt.source, Stmt.rawTexts, stmtRawTexts]
    exact .graphic (by decide)
  | .block (s :: ss) => by
    rw [Stmt.source, Stmt.rawTexts]
    · exact (woven_stmtSources (s :: ss)).enclosed (by decide) (by decide)
    · simp
  | .assign lhs rhs => by
    rw [Stmt.source, Stmt.rawTexts]
    exact (((woven_sources lhs).followed (by decide)).append rhs.woven).followed (by decide)
  | .comment text => by
    rw [Stmt.source, Stmt.rawTexts]
    exact .raw text
  | .ifElse condition thenBody elseBody => by
    rw [Stmt.source, Stmt.rawTexts]
    have hhead : Woven ("if (" ++ condition.source ++ ") ") condition.rawTexts :=
      condition.woven.enclosed (by decide) (by decide)
    exact (hhead.append thenBody.woven).append (woven_elseSource elseBody)
  | .whileLoop condition body => by
    rw [Stmt.source, Stmt.rawTexts]
    exact (condition.woven.enclosed (by decide) (by decide)).append (woven_bodySource body)
  | .functionCall name package args => by
    rw [Stmt.source, Stmt.rawTexts]
    exact (Expr.woven _).followed (by decide)
  | .actionCall name connector package args => by
    rw [Stmt.source, Stmt.rawTexts]
    exact (Expr.woven _).followed (by decide)
  | .reply value => by
    rw [Stmt.source, Stmt.rawTexts]
    exact value.woven.enclosed (by decide) (by decide)
  | .returning [] => by
    rw [Stmt.source, Stmt.rawTexts, rawTextsOf]
    exact .graphic (by decide)
  | .returning (e :: es) => by
    rw [Stmt.source, Stmt.rawTexts]
    · exact (woven_sources (e :: es)).enclosed (by decide) (by decide)
    · simp

theorem woven_stmtSources : ∀ ss : List Stmt, Woven (String.join (stmtSources ss)) (stmtRawTexts ss)
  | [] => .graphic (by decide)
  | s :: ss => by
    rw [stmtSources, stmtRawTexts, String.join_cons]
    exact (s.woven.followed (by decide)).append (woven_stmtSources ss)

theorem woven_elseSource (o : Option Stmt) : Woven (elseSource o) (optionRawTexts o) := by
  cases o with
  | none => exact .graphic (by decide)
  | some s =>
    rw [elseSource, optionRawTexts]
    exact s.woven.preceded (by decide)

theorem woven_bodySource (o : Option Stmt) : Woven (bodySource o) (optionRawTexts o) := by
  cases o with
  | none => exact .graphic (by decide)
  | some s =>
    rw [bodySource, optionRawTexts]
    exact s.woven

end

/-! ## Line breaks -/

/-- The number of line feeds in a text. -/
def lineFeeds (s : String) : Nat := s.toList.count '\n'

/-- The number of carriage returns in a text. -/
def carriageReturns (s : String) : Nat := s.toList.count '\r'

/-- The text is a single line. -/
def isLine (s : String) : Bool := lineFeeds s = 0 && carriageReturns s = 0

section
variable {s : String} {ts : List String}

theorem Woven.lineFeeds (h : Woven s ts) : lineFeeds s = (ts.map Program.lineFeeds).sum :=
  h.count (by decide)

theorem Woven.carriageReturns (h : Woven s ts) :
    carriageReturns s = (ts.map Program.carriageReturns).sum := h.count (by decide)

theorem Woven.isLine (h : Woven s ts) : isLine s = ts.all Program.isLine := by
  rw [Bool.eq_iff_iff, List.all_eq_true]
  simp only [Program.isLine, Bool.and_eq_true, decide_eq_true_eq, h.lineFeeds, h.carriageReturns,
    List.sum_eq_zero_iff_forall_eq_nat, List.forall_mem_map]
  constructor
  · rintro ⟨hfeeds, hreturns⟩ t ht
    exact ⟨hfeeds t ht, hreturns t ht⟩
  · intro hlines
    exact ⟨fun t ht => (hlines t ht).1, fun t ht => (hlines t ht).2⟩

end

/-- **Line breaks come from raw texts only.** The source text of an expression or statement
    has as many line feeds, and as many carriage returns, as its raw texts together. A
    literal has none of either, whatever string it is. So the source text is a single line
    if and only if every raw text in it is. -/
theorem line_breaks_raw :
    (∀ e : Expr, lineFeeds e.source = (e.rawTexts.map lineFeeds).sum ∧
      carriageReturns e.source = (e.rawTexts.map carriageReturns).sum) ∧
    (∀ s : Stmt, lineFeeds s.source = (s.rawTexts.map lineFeeds).sum ∧
      carriageReturns s.source = (s.rawTexts.map carriageReturns).sum) ∧
    (∀ l : TypedLiteral, lineFeeds (Expr.literal l).source = 0 ∧
      carriageReturns (Expr.literal l).source = 0) ∧
    (∀ e : Expr, isLine e.source = e.rawTexts.all isLine) ∧
    ∀ s : Stmt, isLine s.source = s.rawTexts.all isLine := by
  refine ⟨fun e => ⟨e.woven.lineFeeds, e.woven.carriageReturns⟩,
    fun s => ⟨s.woven.lineFeeds, s.woven.carriageReturns⟩, fun l => ?_,
    fun e => e.woven.isLine, fun s => s.woven.isLine⟩
  have hliteral : Woven (Expr.literal l).source [] := (Expr.literal l).woven
  exact ⟨hliteral.lineFeeds, hliteral.carriageReturns⟩

/-- A comment is copied, and a string is not. -/
example : lineFeeds (Stmt.block [.comment "// a\n// b", .reply (.string "\n")]).source = 1 := by
  decide

end TreeDoc.Program
