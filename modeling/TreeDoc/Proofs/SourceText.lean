/-
  Expressions read back from their source text.

  * `Expr.Plain`: expressions of names, whole numbers, texts, operators, casts, calls,
    arrays, maps and accesses;
  * `Spelled`: a text is read as tokens, and these spell an expression;
  * `spelled_grouped`: an operand is spelled as tightly as its place asks for, because it
    is put in parentheses if it does not bind tightly enough itself;
  * `Plain.spelled`: so the text of a plain expression spells it;
  * `source_reads_back`: the text is read back, by a reader that follows the table of
    precedences.
-/
import TreeDoc.Proofs.SourceReader

namespace TreeDoc.Program

/-- The expression that a text spells. -/
def Expr.read? (s : String) : Option Expr := (lex s.toList).bind readTokens?

/-- **Plain expressions**: all names in them are names, and whole numbers are not
    negative. -/
inductive Expr.Plain : Expr → Prop
  | reference {name : String} : isName name = true → Plain (.variable name)
  | int {n : Int64} : 0 ≤ n → Plain (.int n)
  | string (s : String) : Plain (.string s)
  | binary {lhs rhs : Expr} (op : BinaryOp) : Plain lhs → Plain rhs → Plain (.binary op lhs rhs)
  | unary {operand : Expr} (op : UnaryOp) : Plain operand → Plain (.unary op operand)
  | functionCall {name : String} {package : Option String} {args : List Expr} :
      isName name = true → (∀ p ∈ package, isName p = true) → (∀ e ∈ args, Plain e) →
      Plain (.functionCall name package args)
  | actionCall {name connector : String} {package : Option String} {args : List Expr} :
      isName name = true → isName connector = true → (∀ p ∈ package, isName p = true) →
      (∀ e ∈ args, Plain e) → Plain (.actionCall name connector package args)
  | array {args : List Expr} : (∀ e ∈ args, Plain e) → Plain (.array args)
  | map {args : List Expr} : (∀ e ∈ args, Plain e) → Plain (.map args)
  | cast {type : String} {operand : Expr} : isName type = true → Plain operand →
      Plain (.cast type operand)
  | access {name : String} {index : Expr} : isName name = true → Plain index →
      Plain (.access name index)

/-! ## Parts of texts -/

section
variable {cs : List Char} {ts : List Token} {name : String} {package : Option String}

theorem Lexes.qualified (hname : isName name = true) (hpackage : ∀ p ∈ package, isName p = true) :
    Lexes (qualified package name).toList (qualifiedTokens package name) := by
  cases package with
  | none => exact Lexes.name hname
  | some p =>
    have htext : (Program.qualified (some p) name).toList = p.toList ++ ':' :: name.toList := by
      simp [Program.qualified]
    rw [htext]
    exact (Lexes.name (hpackage p rfl)).append (Mark.ends .colon _)
      ((Lexes.name hname).mark_cons .colon)

end

/-! ## Texts that spell expressions -/

/-- The text is read as tokens that spell the expression at a level. -/
def Spelled (p : Nat) (cs : List Char) (e : Expr) : Prop := ∃ ts, Lexes cs ts ∧ Spells p ts e

/-- The level at which an expression is spelled without parentheses. -/
def Expr.level : Expr → Nat
  | .binary op _ _ => op.precedence
  | _ => operandLevel

section
variable {p q : Nat} {cs : List Char} {e : Expr} {args : List Expr}

theorem Spelled.mono (h : Spelled q cs e) (hpq : p ≤ q) : Spelled p cs e := by
  obtain ⟨ts, hlexes, hspells⟩ := h
  exact ⟨ts, hlexes, hspells.mono hpq⟩

/-- **Operands** that do not bind tightly enough for their place are put in parentheses. -/
theorem spelled_grouped {tooWeak : Nat → Bool} (h : Spelled e.level e.source.toList e)
    (hq : q ≤ operandLevel)
    (hweak : ∀ op : BinaryOp, tooWeak op.precedence = false → q ≤ op.precedence) :
    Spelled q (grouped tooWeak e e.source).toList e := by
  cases e with
  | binary op lhs rhs =>
    by_cases htight : tooWeak op.precedence = true
    · obtain ⟨ts, hlexes, hspells⟩ := h
      have htext : (grouped tooWeak (.binary op lhs rhs) (Expr.binary op lhs rhs).source).toList =
          '(' :: ((Expr.binary op lhs rhs).source.toList ++ [')']) := by
        simp [grouped, htight]
      rw [htext]
      exact ⟨_, hlexes.enclosed .openParen .closeParen,
        .group (hspells.mono (Nat.zero_le _))⟩
    · have htext : grouped tooWeak (.binary op lhs rhs) (Expr.binary op lhs rhs).source =
          (Expr.binary op lhs rhs).source := by
        simp [grouped, htight]
      rw [htext]
      exact h.mono (hweak op (by simpa using htight))
  | _ => exact h.mono hq

theorem spelled_operand (h : Spelled e.level e.source.toList e) :
    Spelled operandLevel (grouped (fun _ => true) e e.source).toList e :=
  spelled_grouped h (Nat.le_refl _) fun _ hfalse => absurd hfalse (by simp)

theorem spelled_items (h : ∀ e ∈ args, Spelled 0 e.source.toList e) :
    ∃ ts, Lexes (commaSeparated (sources args)).toList ts ∧ SpellsItems ts args := by
  induction args with
  | nil => exact ⟨[], Lexes.nil, spellsItems_nil⟩
  | cons e args ih =>
    obtain ⟨⟨ts, hlexes, hspells⟩, hargs⟩ := List.forall_mem_cons.1 h
    obtain ⟨ts', hlexes', hitems⟩ := ih hargs
    cases args with
    | nil => exact ⟨ts, hlexes, spellsItems_singleton hspells⟩
    | cons e' args =>
      have htext : (commaSeparated (sources (e :: e' :: args))).toList =
          e.source.toList ++ ',' :: ' ' :: (commaSeparated (sources (e' :: args))).toList := by
        simp [commaSeparated, sources, Text.separated]
      rw [htext]
      exact ⟨_, hlexes.append (Mark.ends .comma _)
        (hlexes'.blank_cons.mark_cons .comma),
        spellsItems_cons hspells (by simp) hitems⟩

/-- A call is what it invokes, and its arguments in parentheses. -/
theorem spelled_call {head : List Char} (f : Callee) (hhead : Lexes head f.tokens)
    (h : ∀ e ∈ args, Spelled 0 e.source.toList e) :
    Spelled p (head ++ '(' :: ((commaSeparated (sources args)).toList ++ [')'])) (f.call args) := by
  obtain ⟨ts, hlexes, items, hitems, rfl, rfl⟩ := spelled_items h
  exact ⟨_, hhead.append (Mark.ends .openParen _)
    (hlexes.enclosed .openParen .closeParen), .call f hitems⟩

theorem toInt_of_nonneg {n : Int64} (hn : 0 ≤ n) : n.toInt = (n.toNatClampNeg : Int) := by
  have hnonneg : 0 ≤ n.toInt := by simpa using Int64.le_iff_toInt_le.1 hn
  exact (Int.toNat_of_nonneg hnonneg).symm

theorem source_int {n : Int64} (hn : 0 ≤ n) : (Expr.int n).source = toString n.toNatClampNeg := by
  rw [Expr.int, Expr.source, Literal.source, Literal.text, toInt_of_nonneg hn]
  · rfl
  · simp

theorem spelled_int {n : Int64} (hn : 0 ≤ n) : Spelled p (Expr.int n).source.toList (.int n) := by
  have hvalue := toInt_of_nonneg hn
  have hlt : n.toNatClampNeg < Nat.pow 2 63 := by
    have hmax := n.toInt_lt
    have hpow : Nat.pow 2 63 = 9223372036854775808 := rfl
    omega
  have hspells := Spells.int (p := p) hlt
  rw [Int64.ofNat_toNatClampNeg n hn] at hspells
  rw [source_int hn]
  exact ⟨_, Lexes.number _, hspells⟩

/-- **The text of a plain expression spells it.** -/
theorem Expr.Plain.spelled (h : e.Plain) : Spelled e.level e.source.toList e := by
  induction h with
  | reference hname => exact ⟨_, Lexes.name hname, .reference _⟩
  | int hn => exact spelled_int hn
  | string s => exact ⟨_, Lexes.quoted s, .string s⟩
  | @binary lhs rhs op _ _ ihl ihr =>
    have hlhs : Spelled op.precedence (grouped (· < op.precedence) lhs lhs.source).toList lhs :=
      spelled_grouped ihl (Nat.le_of_lt op.precedence_lt) fun op' hop' => by simpa using hop'
    have hrhs : Spelled (op.precedence + 1)
        (grouped (· ≤ op.precedence) rhs rhs.source).toList rhs :=
      spelled_grouped ihr op.precedence_lt fun op' hop' =>
        Nat.succ_le_of_lt (by simpa using hop')
    obtain ⟨ts, hlexes, hspells⟩ := hlhs
    obtain ⟨ts', hlexes', hspells'⟩ := hrhs
    refine ⟨ts ++ .operator op.symbol :: ts', ?_, .binary op (Nat.le_refl _) hspells hspells'⟩
    have hboth := hlexes.append (ends_blank _) (hlexes'.spaced_append op.symbol_mem_operators)
    simpa [Expr.source] using hboth
  | unary op _ ih =>
    obtain ⟨ts, hlexes, hspells⟩ := spelled_operand ih
    refine ⟨.operator op.symbol :: ts, ?_, .unary op hspells⟩
    simpa [Expr.source] using hlexes.unary_append op
  | @functionCall name package args hname hpackage _ ih =>
    have hcall : Spelled operandLevel _ ((Callee.function package name).call args) :=
      spelled_call _ (Lexes.qualified hname hpackage) fun e he => (ih e he).mono (Nat.zero_le _)
    simpa [Expr.source, Expr.level, Callee.call] using hcall
  | @actionCall name connector package args hname hconnector hpackage _ ih =>
    have hhead : Lexes ((qualified package connector).toList ++ '.' :: name.toList)
        (Callee.action package connector name).tokens :=
      (Lexes.qualified hconnector hpackage).append (Mark.ends .dot _)
        ((Lexes.name hname).mark_cons .dot)
    have hcall : Spelled operandLevel _ ((Callee.action package connector name).call args) :=
      spelled_call _ hhead fun e he => (ih e he).mono (Nat.zero_le _)
    simpa [Expr.source, Expr.level, Callee.call] using hcall
  | array _ ih =>
    obtain ⟨ts, hlexes, items, hitems, rfl, rfl⟩ :=
      spelled_items fun e he => (ih e he).mono (Nat.zero_le _)
    refine ⟨_, ?_, .array hitems⟩
    simpa [Expr.source, Mark.char] using hlexes.enclosed .openBracket .closeBracket
  | map _ ih =>
    obtain ⟨ts, hlexes, items, hitems, rfl, rfl⟩ :=
      spelled_items fun e he => (ih e he).mono (Nat.zero_le _)
    refine ⟨_, ?_, .map hitems⟩
    simpa [Expr.source, Mark.char] using hlexes.enclosed .openBrace .closeBrace
  | @cast type operand htype _ ih =>
    obtain ⟨ts, hlexes, hspells⟩ := spelled_operand ih
    refine ⟨_, ?_, .cast type hspells⟩
    have hoperand := hlexes.blank_cons.mark_cons .closeParen
    have htyped := (Lexes.name htype).append (Mark.ends .closeParen _) hoperand
    simpa [Expr.source, Mark.char] using htyped.mark_cons .openParen
  | @access name index hname _ ih =>
    obtain ⟨ts, hlexes, hspells⟩ := ih
    refine ⟨_, ?_, .access name (hspells.mono (Nat.zero_le _))⟩
    have hindex := hlexes.enclosed .openBracket .closeBracket
    simpa [Expr.source, Mark.char] using
      (Lexes.name hname).append (Mark.ends .openBracket _) hindex

/-- A text that spells an expression is read. -/
theorem Spelled.read {s : String} (h : Spelled p s.toList e) : Expr.read? s = some e := by
  obtain ⟨ts, hlexes, hspells⟩ := h
  have hlex : lex (s.toList ++ []) = (lex []).map (ts ++ ·) := hlexes.reads (by simp [Ends])
  rw [List.append_nil, lex] at hlex
  rw [Expr.read?, hlex, Option.map_some, Option.bind_some, List.append_nil]
  exact readTokens?_eq_some.2 (hspells.mono (Nat.zero_le p))

end

/-- **Expressions are read back from their texts.** The reader reads an expression from a
    text if and only if the tokens of the text spell it: binary operators bind as their
    precedence says and to the left, unary operators and casts bind more tightly, and
    parentheses may stand around every binary expression. It reads every plain
    expression from its text, and every plain binary one also from its text in
    parentheses. So plain expressions with the same text are the same. -/
theorem source_reads_back :
    (∀ s e, Expr.read? s = some e ↔ ∃ ts, lex s.toList = some ts ∧ Spells 0 ts e) ∧
    (∀ e : Expr, e.Plain → Expr.read? e.source = some e) ∧
    (∀ op lhs rhs, (Expr.binary op lhs rhs).Plain →
      Expr.read? ("(" ++ (Expr.binary op lhs rhs).source ++ ")") = some (.binary op lhs rhs)) ∧
    ∀ e e' : Expr, e.Plain → e'.Plain → e.source = e'.source → e = e' := by
  have hback : ∀ e : Expr, e.Plain → Expr.read? e.source = some e := fun e h => h.spelled.read
  refine ⟨fun s e => ?_, hback, fun op lhs rhs h => ?_, fun e e' he he' heq => ?_⟩
  · rw [Expr.read?, Option.bind_eq_some_iff]
    simp only [readTokens?_eq_some]
  · exact (spelled_operand h.spelled).read
  · exact Option.some.inj ((hback e he).symm.trans (heq ▸ hback e' he'))

/-- An expression with operators of several precedences, a cast, a call and a text. -/
def mixedExpr : Expr :=
  .binary .subtract
    (.binary .multiply (.binary .add (.variable "a") (.variable "b"))
      (.unary .negate (.access "c" (.int 0))))
    (.binary .subtract (.functionCall "g" (some "f") [.string "\"\n", .array [.int 1]])
      (.cast "t" (.map [])))

/-- Parentheses stand where they are needed, and the expression is read back. -/
theorem mixedExpr_reads_back :
    mixedExpr.Plain ∧
    mixedExpr.source = "(a + b) * -c[0] - (f:g(\"\\\"\\n\", [1]) - (t) \x7b\x7d)" ∧
    Expr.read? mixedExpr.source = some mixedExpr := by
  have hplain : mixedExpr.Plain := by
    have hcall : (Expr.functionCall "g" (some "f") [.string "\"\n", .array [.int 1]]).Plain := by
      refine .functionCall (by decide) (by simp [isName]; decide) ?_
      simp only [List.forall_mem_cons, List.not_mem_nil, false_implies, implies_true, and_true]
      exact ⟨.string _, .array (by simpa using .int (by decide))⟩
    exact .binary _ (.binary _ (.binary _ (.reference (by decide)) (.reference (by decide)))
      (.unary _ (.access (by decide) (.int (by decide)))))
      (.binary _ hcall (.cast (by decide) (.map (by simp))))
  exact ⟨hplain, rfl, source_reads_back.2.1 mixedExpr hplain⟩

end TreeDoc.Program
