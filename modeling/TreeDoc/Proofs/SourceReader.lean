/-
  Expressions read from tokens.

  * `Spells p ts e`: the grammar. Binary operators bind as their precedence says and to
    the left, operands bind more tightly than all of them, and parentheses may stand
    around every binary expression;
  * `readOperand`, `readExpr`, `climb`: a reader by precedence climbing. An operand is
    extended by the operators that follow as long as these bind tightly enough;
  * `sound`: what is read is spelled by the tokens;
  * `Spells.readExpr_append`: what tokens spell is read, whatever follows;
  * `readTokens?_eq_some`: so the reader and the grammar agree, and
  * `Spells.unique`: tokens spell one expression only.
-/
import Mathlib.Data.List.Basic
import TreeDoc.Proofs.SourceTokens

namespace TreeDoc.Program

/-! ## Calls -/

/-- What a call invokes. -/
inductive Callee where
  | function (package : Option String) (name : String)
  | action (package : Option String) (connector name : String)
deriving Repr, DecidableEq

/-- The call with its arguments. -/
def Callee.call : Callee → List Expr → Expr
  | function package name, args => .functionCall name package args
  | action package connector name, args => .actionCall name connector package args

/-- The tokens of a name behind its package, if it has one. -/
def qualifiedTokens (package : Option String) (name : String) : List Token :=
  match package with
  | some p => [.name p, .mark .colon, .name name]
  | none => [.name name]

/-- The tokens in front of the arguments. -/
def Callee.tokens : Callee → List Token
  | function package name => qualifiedTokens package name
  | action package connector name =>
    qualifiedTokens package connector ++ [.mark .dot, .name name]

/-- What a call invokes, and what follows its opening parenthesis. -/
def callee? : List Token → Option (Callee × List Token)
  | .name p :: .mark .colon :: .name c :: .mark .dot :: .name n :: .mark .openParen :: ts =>
    some (.action (some p) c n, ts)
  | .name p :: .mark .colon :: .name n :: .mark .openParen :: ts =>
    some (.function (some p) n, ts)
  | .name c :: .mark .dot :: .name n :: .mark .openParen :: ts => some (.action none c n, ts)
  | .name n :: .mark .openParen :: ts => some (.function none n, ts)
  | _ => none

theorem callee?_eq_some {ts rest : List Token} {f : Callee} :
    callee? ts = some (f, rest) ↔ ts = f.tokens ++ .mark .openParen :: rest := by
  constructor
  · intro h
    unfold callee? at h
    split at h <;> cases h <;> rfl
  · rintro rfl
    rcases f with ⟨_ | p, n⟩ | ⟨_ | p, c, n⟩ <;> rfl

/-! ## The grammar -/

/-- How tightly operands bind: more than every binary operator. -/
def operandLevel : Nat := 7

theorem BinaryOp.precedence_lt (op : BinaryOp) : op.precedence < operandLevel := by
  cases op <;> decide

/-- Tokens with commas between them. -/
def commaTokens (tss : List (List Token)) : List Token := [Token.mark .comma].intercalate tss

/-- **The tokens spell the expression**, which binds at least as tightly as the level
    says. -/
inductive Spells : Nat → List Token → Expr → Prop
  | reference {p : Nat} (name : String) : Spells p [.name name] (.variable name)
  | int {p n : Nat} : n < Nat.pow 2 63 → Spells p [.number n] (.int (Int64.ofNat n))
  | string {p : Nat} (s : String) : Spells p [.quoted s] (.string s)
  | unary {p : Nat} {ts : List Token} {e : Expr} (op : UnaryOp) :
      Spells operandLevel ts e → Spells p (.operator op.symbol :: ts) (.unary op e)
  | cast {p : Nat} {ts : List Token} {e : Expr} (type : String) :
      Spells operandLevel ts e →
      Spells p (.mark .openParen :: .name type :: .mark .closeParen :: ts) (.cast type e)
  | group {p : Nat} {ts : List Token} {op : BinaryOp} {lhs rhs : Expr} :
      Spells 0 ts (.binary op lhs rhs) →
      Spells p (.mark .openParen :: (ts ++ [.mark .closeParen])) (.binary op lhs rhs)
  | call {p : Nat} {items : List (List Token × Expr)} (f : Callee) :
      (∀ x ∈ items, Spells 0 x.1 x.2) →
      Spells p (f.tokens ++ .mark .openParen ::
        (commaTokens (items.map Prod.fst) ++ [.mark .closeParen])) (f.call (items.map Prod.snd))
  | array {p : Nat} {items : List (List Token × Expr)} : (∀ x ∈ items, Spells 0 x.1 x.2) →
      Spells p (.mark .openBracket :: (commaTokens (items.map Prod.fst) ++ [.mark .closeBracket]))
        (.array (items.map Prod.snd))
  | map {p : Nat} {items : List (List Token × Expr)} : (∀ x ∈ items, Spells 0 x.1 x.2) →
      Spells p (.mark .openBrace :: (commaTokens (items.map Prod.fst) ++ [.mark .closeBrace]))
        (.map (items.map Prod.snd))
  | access {p : Nat} {ts : List Token} {e : Expr} (name : String) : Spells 0 ts e →
      Spells p (.name name :: .mark .openBracket :: (ts ++ [.mark .closeBracket])) (.access name e)
  | binary {p : Nat} {ts ts' : List Token} {lhs rhs : Expr} (op : BinaryOp) :
      p ≤ op.precedence → Spells op.precedence ts lhs → Spells (op.precedence + 1) ts' rhs →
      Spells p (ts ++ .operator op.symbol :: ts') (.binary op lhs rhs)

/-! ## The reader -/

/-- The next token, if it is a binary operator that binds at least as tightly as the
    level says, and what follows it. -/
def nextOp? (p : Nat) : List Token → Option (BinaryOp × List Token)
  | .operator s :: ts =>
    (BinaryOp.ofSymbol? s).bind fun op => if p ≤ op.precedence then some (op, ts) else none
  | _ => none

/-- What has been read, if a mark follows, and what follows the mark. -/
def closing? (m : Mark) : Expr × List Token → Option (Expr × List Token)
  | (e, .mark m' :: ts) => if m' = m then some (e, ts) else none
  | _ => none

/-- The expression is binary. -/
def Expr.isBinary : Expr → Bool
  | .binary .. => true
  | _ => false

mutual

/-- An operand, and the tokens after it. The number bounds the calls. -/
def readOperand : Nat → List Token → Option (Expr × List Token)
  | 0, _ => none
  | n + 1, ts =>
    match ts with
    | .number i :: ts => if i < Nat.pow 2 63 then some (.int (Int64.ofNat i), ts) else none
    | .quoted s :: ts => some (.string s, ts)
    | .operator s :: ts =>
      (UnaryOp.ofSymbol? s).bind fun op => (readOperand n ts).map (Prod.map (.unary op) id)
    | .mark .openParen :: .name type :: .mark .closeParen :: ts =>
      (readOperand n ts).map (Prod.map (.cast type) id)
    | .mark .openParen :: ts =>
      ((readExpr n 0 ts).bind (closing? .closeParen)).filter fun r => r.1.isBinary
    | .mark .openBracket :: ts => (readItems n .closeBracket ts).map (Prod.map .array id)
    | .mark .openBrace :: ts => (readItems n .closeBrace ts).map (Prod.map .map id)
    | .name name :: ts =>
      match callee? (.name name :: ts), ts with
      | some (f, ts), _ => (readItems n .closeParen ts).map (Prod.map f.call id)
      | none, .mark .openBracket :: ts =>
        ((readExpr n 0 ts).bind (closing? .closeBracket)).map (Prod.map (.access name) id)
      | none, ts => some (.variable name, ts)
    | _ => none

/-- An expression that binds at least as tightly as the level says. -/
def readExpr : Nat → Nat → List Token → Option (Expr × List Token)
  | 0, _, _ => none
  | n + 1, p, ts => (readOperand n ts).bind fun r => climb n p r.1 r.2

/-- A left operand, extended by the operators that follow. -/
def climb : Nat → Nat → Expr → List Token → Option (Expr × List Token)
  | 0, _, _, _ => none
  | n + 1, p, lhs, ts =>
    match nextOp? p ts with
    | some (op, ts) =>
      (readExpr n (op.precedence + 1) ts).bind fun r => climb n p (.binary op lhs r.1) r.2
    | none => some (lhs, ts)

/-- Expressions with commas between them, up to a closing mark. -/
def readItems : Nat → Mark → List Token → Option (List Expr × List Token)
  | 0, _, _ => none
  | n + 1, close, ts =>
    if ts.head? = some (.mark close) then some ([], ts.tail) else readMore n close ts

/-- One or more expressions with commas between them, up to a closing mark. -/
def readMore : Nat → Mark → List Token → Option (List Expr × List Token)
  | 0, _, _ => none
  | n + 1, close, ts =>
    (readExpr n 0 ts).bind fun r =>
      match r with
      | (e, .mark m :: ts) =>
        if m = close then some ([e], ts)
        else if m = .comma then (readMore n close ts).map (Prod.map (e :: ·) id)
        else none
      | _ => none

end

/-- The expression that all tokens together spell. -/
def readTokens? (ts : List Token) : Option Expr :=
  match readExpr (2 * ts.length + 1) 0 ts with
  | some (e, []) => some e
  | _ => none

/-! ## What is read is spelled -/

section
variable {p q : Nat} {ts rest : List Token} {e e' : Expr} {m : Mark} {op : BinaryOp}

theorem nextOp?_eq_some :
    nextOp? p ts = some (op, rest) ↔ ts = .operator op.symbol :: rest ∧ p ≤ op.precedence := by
  constructor
  · intro h
    unfold nextOp? at h
    split at h
    · obtain ⟨op', hsymbol, h⟩ := Option.bind_eq_some_iff.1 h
      split_ifs at h with hp
      obtain ⟨rfl, rfl⟩ := Prod.mk.inj (Option.some.inj h)
      exact ⟨by rw [BinaryOp.ofSymbol?_eq_some.1 hsymbol], hp⟩
    · cases h
  · rintro ⟨rfl, hp⟩
    rw [nextOp?, BinaryOp.ofSymbol?_eq_some.2 rfl, Option.bind_some, if_pos hp]

theorem nextOp?_eq_none :
    nextOp? p ts = none ↔ ∀ op : BinaryOp, ts.head? = some (.operator op.symbol) →
      op.precedence < p := by
  constructor
  · intro h op hhead
    obtain ⟨rest, rfl⟩ := List.head?_eq_some_iff.1 hhead
    by_contra hp
    rw [nextOp?_eq_some.2 ⟨rfl, Nat.le_of_not_lt hp⟩] at h
    cases h
  · intro h
    rw [Option.eq_none_iff_forall_ne_some]
    rintro ⟨op, rest⟩ hsome
    obtain ⟨rfl, hp⟩ := nextOp?_eq_some.1 hsome
    exact absurd (h op rfl) (Nat.not_lt.2 hp)

theorem closing?_eq_some :
    closing? m (e, ts) = some (e', rest) ↔ e' = e ∧ ts = .mark m :: rest := by
  constructor
  · intro h
    unfold closing? at h
    split at h
    · next heq =>
      obtain ⟨rfl, rfl⟩ := Prod.mk.inj heq
      split_ifs at h with hm
      obtain ⟨rfl, rfl⟩ := Prod.mk.inj (Option.some.inj h)
      exact ⟨rfl, by rw [hm]⟩
    · cases h
  · rintro ⟨rfl, rfl⟩
    rw [closing?, if_pos rfl]

theorem Spells.mono (h : Spells q ts e) (hpq : p ≤ q) : Spells p ts e := by
  cases h with
  | reference name => exact .reference name
  | int hn => exact .int hn
  | string s => exact .string s
  | unary op h => exact .unary op h
  | cast type h => exact .cast type h
  | group h => exact .group h
  | call f h => exact .call f h
  | array h => exact .array h
  | map h => exact .map h
  | access name h => exact .access name h
  | binary op hq hl hr => exact .binary op (Nat.le_trans hpq hq) hl hr

/-- The tokens spell expressions with commas between them. -/
def SpellsItems (ts : List Token) (es : List Expr) : Prop :=
  ∃ items : List (List Token × Expr), (∀ x ∈ items, Spells 0 x.1 x.2) ∧
    commaTokens (items.map Prod.fst) = ts ∧ items.map Prod.snd = es

theorem commaTokens_cons {tss : List (List Token)} (h : tss ≠ []) (ts : List Token) :
    commaTokens (ts :: tss) = ts ++ .mark .comma :: commaTokens tss := by
  obtain ⟨ts', tss', rfl⟩ := List.exists_cons_of_ne_nil h
  simp [commaTokens, List.intercalate_cons_cons]

theorem spellsItems_nil : SpellsItems [] [] := ⟨[], by simp, rfl, rfl⟩

theorem spellsItems_singleton (h : Spells 0 ts e) : SpellsItems ts [e] :=
  ⟨[(ts, e)], by simpa using h, by simp [commaTokens], rfl⟩

theorem spellsItems_cons {ts' : List Token} {es : List Expr} (h : Spells 0 ts e) (hne : es ≠ [])
    (h' : SpellsItems ts' es) : SpellsItems (ts ++ .mark .comma :: ts') (e :: es) := by
  obtain ⟨items, hitems, rfl, rfl⟩ := h'
  refine ⟨(ts, e) :: items, List.forall_mem_cons.2 ⟨h, hitems⟩, ?_, rfl⟩
  exact commaTokens_cons (by simpa using hne) ts

/-- What the reader reads with a bound is spelled by the tokens that it takes. An
    expression goes on until an operator does not bind tightly enough. -/
structure Sound (n : Nat) : Prop where
  operand : ∀ {ts e rest}, readOperand n ts = some (e, rest) →
    ∃ ts', ts = ts' ++ rest ∧ Spells operandLevel ts' e
  expr : ∀ {p ts e rest}, p ≤ operandLevel → readExpr n p ts = some (e, rest) →
    ∃ ts', ts = ts' ++ rest ∧ Spells p ts' e ∧ nextOp? p rest = none
  climbs : ∀ {p q lhs ts e rest before}, Spells q before lhs → p ≤ q → nextOp? (q + 1) ts = none →
    climb n p lhs ts = some (e, rest) →
    ∃ ts', ts = ts' ++ rest ∧ Spells p (before ++ ts') e ∧ nextOp? p rest = none
  items : ∀ {close ts es rest}, readItems n close ts = some (es, rest) →
    ∃ ts', ts = ts' ++ .mark close :: rest ∧ SpellsItems ts' es
  more : ∀ {close ts es rest}, readMore n close ts = some (es, rest) →
    ∃ ts', ts = ts' ++ .mark close :: rest ∧ SpellsItems ts' es ∧ es ≠ []

end

section
variable {n p q : Nat} {ts rest before : List Token} {e lhs : Expr} {es : List Expr} {close : Mark}

/-- What is read in one go and then changed. -/
theorem of_map_read {α β γ : Type} {f : α → β} {r : Option (α × γ)} {b : β} {rest : γ}
    (h : r.map (Prod.map f id) = some (b, rest)) : ∃ a, r = some (a, rest) ∧ b = f a := by
  obtain ⟨⟨a, rest'⟩, rfl, heq⟩ := Option.map_eq_some_iff.1 h
  obtain ⟨rfl, rfl⟩ := Prod.mk.inj heq
  exact ⟨a, rfl, rfl⟩

theorem Sound.closed (hn : Sound n) (h : (readExpr n 0 ts).bind (closing? close) = some (e, rest)) :
    ∃ ts', ts = ts' ++ .mark close :: rest ∧ Spells 0 ts' e := by
  obtain ⟨⟨e', ts₁⟩, he, hclose⟩ := Option.bind_eq_some_iff.1 h
  obtain ⟨rfl, rfl⟩ := closing?_eq_some.1 hclose
  obtain ⟨ts', hts, hspells, -⟩ := hn.expr (Nat.zero_le _) he
  exact ⟨ts', hts, hspells⟩

theorem Sound.succ_operand (hn : Sound n) (h : readOperand (n + 1) ts = some (e, rest)) :
    ∃ ts', ts = ts' ++ rest ∧ Spells operandLevel ts' e := by
  unfold readOperand at h
  split at h
  · next i ts =>
    split_ifs at h with hi
    obtain ⟨rfl, rfl⟩ := Prod.mk.inj (Option.some.inj h)
    exact ⟨[.number i], rfl, .int hi⟩
  · next s ts =>
    obtain ⟨rfl, rfl⟩ := Prod.mk.inj (Option.some.inj h)
    exact ⟨[.quoted s], rfl, .string s⟩
  · next s ts =>
    obtain ⟨op, hop, hread⟩ := Option.bind_eq_some_iff.1 h
    obtain rfl := UnaryOp.ofSymbol?_eq_some.1 hop
    obtain ⟨e', he', rfl⟩ := of_map_read hread
    obtain ⟨ts', rfl, hspells⟩ := hn.operand he'
    exact ⟨.operator op.symbol :: ts', rfl, .unary op hspells⟩
  · next type ts =>
    obtain ⟨e', he', rfl⟩ := of_map_read h
    obtain ⟨ts', rfl, hspells⟩ := hn.operand he'
    exact ⟨_, rfl, .cast type hspells⟩
  · next ts _ =>
    obtain ⟨hread, hbinary⟩ := Option.filter_eq_some_iff.1 h
    obtain ⟨ts', rfl, hspells⟩ := hn.closed hread
    cases e with
    | binary op lhs rhs =>
      exact ⟨.mark .openParen :: (ts' ++ [.mark .closeParen]), by simp, .group hspells⟩
    | _ => cases hbinary
  · next ts =>
    obtain ⟨es, hes, rfl⟩ := of_map_read h
    obtain ⟨ts', rfl, items, hitems, rfl, rfl⟩ := hn.items hes
    exact ⟨_, by simp, .array hitems⟩
  · next ts =>
    obtain ⟨es, hes, rfl⟩ := of_map_read h
    obtain ⟨ts', rfl, items, hitems, rfl, rfl⟩ := hn.items hes
    exact ⟨_, by simp, .map hitems⟩
  · next name ts =>
    split at h
    · next f ts₁ hf =>
      obtain ⟨es, hes, rfl⟩ := of_map_read h
      obtain ⟨ts', rfl, items, hitems, rfl, rfl⟩ := hn.items hes
      rw [callee?_eq_some.1 hf]
      exact ⟨_, by simp, .call f hitems⟩
    · obtain ⟨e', he', rfl⟩ := of_map_read h
      obtain ⟨ts', rfl, hspells⟩ := hn.closed he'
      exact ⟨_, by simp, .access name hspells⟩
    · obtain ⟨rfl, rfl⟩ := Prod.mk.inj (Option.some.inj h)
      exact ⟨[.name name], rfl, .reference name⟩
  · cases h

theorem Sound.succ_expr (hn : Sound n) (hp : p ≤ operandLevel)
    (h : readExpr (n + 1) p ts = some (e, rest)) :
    ∃ ts', ts = ts' ++ rest ∧ Spells p ts' e ∧ nextOp? p rest = none := by
  rw [readExpr] at h
  obtain ⟨⟨lhs, ts₁⟩, hlhs, hclimb⟩ := Option.bind_eq_some_iff.1 h
  obtain ⟨before, rfl, hbefore⟩ := hn.operand hlhs
  have hnone : nextOp? (operandLevel + 1) ts₁ = none :=
    nextOp?_eq_none.2 fun op _ => Nat.lt_succ_of_lt op.precedence_lt
  obtain ⟨ts', rfl, hspells, hrest⟩ := hn.climbs hbefore hp hnone hclimb
  exact ⟨before ++ ts', by rw [List.append_assoc], hspells, hrest⟩

theorem Sound.succ_climbs (hn : Sound n) (hlhs : Spells q before lhs) (hpq : p ≤ q)
    (hq : nextOp? (q + 1) ts = none) (h : climb (n + 1) p lhs ts = some (e, rest)) :
    ∃ ts', ts = ts' ++ rest ∧ Spells p (before ++ ts') e ∧ nextOp? p rest = none := by
  rw [climb] at h
  split at h
  · next op ts₁ hnext =>
    obtain ⟨rfl, hp⟩ := nextOp?_eq_some.1 hnext
    have hop : op.precedence ≤ q := Nat.lt_succ_iff.1 (nextOp?_eq_none.1 hq op rfl)
    obtain ⟨⟨rhs, ts₂⟩, hrhs, hclimb⟩ := Option.bind_eq_some_iff.1 h
    obtain ⟨right, rfl, hright, hafter⟩ := hn.expr op.precedence_lt hrhs
    -- what has been read so far binds as tightly as the operator
    have hboth := Spells.binary op (Nat.le_refl _) (hlhs.mono hop) hright
    obtain ⟨ts', rfl, hspells, hrest⟩ := hn.climbs hboth hp hafter hclimb
    refine ⟨.operator op.symbol :: right ++ ts', by simp, by simpa using hspells, hrest⟩
  · next hnext =>
    obtain ⟨rfl, rfl⟩ := Prod.mk.inj (Option.some.inj h)
    exact ⟨[], rfl, by simpa using hlhs.mono hpq, hnext⟩

theorem Sound.succ_items (hn : Sound n) (h : readItems (n + 1) close ts = some (es, rest)) :
    ∃ ts', ts = ts' ++ .mark close :: rest ∧ SpellsItems ts' es := by
  rw [readItems] at h
  split_ifs at h with hclose
  · obtain ⟨ts, rfl⟩ := List.head?_eq_some_iff.1 hclose
    obtain ⟨rfl, rfl⟩ := Prod.mk.inj (Option.some.inj h)
    exact ⟨[], rfl, spellsItems_nil⟩
  · obtain ⟨ts', hts, hitems, -⟩ := hn.more h
    exact ⟨ts', hts, hitems⟩

theorem Sound.succ_more (hn : Sound n) (h : readMore (n + 1) close ts = some (es, rest)) :
    ∃ ts', ts = ts' ++ .mark close :: rest ∧ SpellsItems ts' es ∧ es ≠ [] := by
  rw [readMore] at h
  obtain ⟨⟨e, ts₁⟩, he, hafter⟩ := Option.bind_eq_some_iff.1 h
  obtain ⟨first, rfl, hfirst, -⟩ := hn.expr (Nat.zero_le _) he
  split at hafter
  · next heq =>
    obtain ⟨rfl, rfl⟩ := Prod.mk.inj heq
    split_ifs at hafter with hclose hcomma
    · obtain ⟨rfl, rfl⟩ := Prod.mk.inj (Option.some.inj hafter)
      subst hclose
      exact ⟨first, rfl, spellsItems_singleton hfirst, by simp⟩
    · obtain ⟨⟨es', rest'⟩, hmore, heq⟩ := Option.map_eq_some_iff.1 hafter
      obtain ⟨rfl, rfl⟩ := Prod.mk.inj heq
      obtain ⟨ts', rfl, hitems, hne⟩ := hn.more hmore
      subst hcomma
      exact ⟨first ++ .mark .comma :: ts', by simp, spellsItems_cons hfirst hne hitems, by simp⟩
  · cases hafter

end

theorem sound (n : Nat) : Sound n := by
  induction n with
  | zero => constructor <;> simp [readOperand, readExpr, climb, readItems, readMore]
  | succ n ih => exact ⟨ih.succ_operand, ih.succ_expr, ih.succ_climbs, ih.succ_items, ih.succ_more⟩

/-! ## What is spelled is read -/

section
variable {n k p q : Nat} {ts rest : List Token} {e : Expr} {close : Mark}

/-- No operand goes on with the tokens. -/
def Apart (rest : List Token) : Prop :=
  ∀ m ∈ [Mark.openParen, .openBracket, .colon, .dot], rest.head? ≠ some (.mark m)

theorem Spells.ne_nil (h : Spells q ts e) : ts ≠ [] := by
  cases h <;> simp

theorem Spells.head (h : Spells q ts e) {m : Mark}
    (hm : m ∈ [Mark.closeParen, .closeBracket, .closeBrace]) : ts.head? ≠ some (.mark m) := by
  have hopen : ∀ m' ∈ [Mark.openParen, .openBracket, .openBrace], m' ≠ m := by
    rintro m' hm' rfl
    cases m' <;> simp at hm hm'
  induction h with
  | call f _ _ => rcases f with ⟨_ | _, _⟩ | ⟨_ | _, _, _⟩ <;> simp [Callee.tokens, qualifiedTokens]
  | @binary p ts ts' lhs rhs op _ _ _ ih _ =>
    cases ts with
    | nil => simp
    | cons t ts => exact ih
  | _ => simp [hopen]

/-- **An operand is read**, whatever follows. -/
def ReadsOperand (ts : List Token) (e : Expr) : Prop :=
  ∀ {n rest}, 2 * ts.length ≤ n → Apart rest → readOperand n (ts ++ rest) = some (e, rest)

/-- **An expression is read**, whatever follows, and extended by the operators there, if
    they bind no more tightly than it does. -/
def ReadsExpr (q : Nat) (ts : List Token) (e : Expr) : Prop :=
  ∀ {n k p rest r}, p ≤ q → Apart rest → nextOp? (q + 1) rest = none → 0 < k →
    (∀ m, k ≤ m → climb m p e rest = some r) → k + 2 * ts.length ≤ n →
    readExpr n p (ts ++ rest) = some r

theorem ReadsOperand.readsExpr (hne : ts ≠ []) (h : ReadsOperand ts e) : ReadsExpr q ts e := by
  intro n k p rest r _ hrest _ hk hclimb hn
  have hlength := List.length_pos_of_ne_nil hne
  obtain ⟨n, rfl⟩ := Nat.exists_eq_add_one.2 (by omega : 0 < n)
  rw [readExpr, h (by omega) hrest, Option.bind_some]
  exact hclimb n (by omega)

theorem climb_of_none (hk : 1 ≤ n) (h : nextOp? p rest = none) :
    climb n p e rest = some (e, rest) := by
  obtain ⟨n, rfl⟩ := Nat.exists_eq_add_one.2 (by omega : 0 < n)
  rw [climb, h]

/-- An expression is read to its end, where no operator binds tightly enough. -/
theorem ReadsExpr.readExpr_append (h : ReadsExpr q ts e) (hpq : p ≤ q) (hrest : Apart rest)
    (hnext : nextOp? p rest = none) (hn : 1 + 2 * ts.length ≤ n) :
    readExpr n p (ts ++ rest) = some (e, rest) := by
  refine h hpq hrest ?_ Nat.one_pos (fun m hm => climb_of_none hm hnext) hn
  exact nextOp?_eq_none.2 fun op hop =>
    Nat.lt_succ_of_le (Nat.le_trans (Nat.le_of_lt (nextOp?_eq_none.1 hnext op hop)) hpq)

theorem apart_mark {m : Mark} (hm : m ∈ [Mark.closeParen, .closeBracket, .closeBrace, .comma])
    (p : Nat) (rest : List Token) :
    Apart (.mark m :: rest) ∧ nextOp? p (.mark m :: rest) = none := by
  refine ⟨fun m' hm' hhead => ?_, rfl⟩
  obtain rfl : m = m' := by simpa using hhead
  cases m <;> simp at hm hm'

section
variable {items : List (List Token × Expr)}

theorem readMore_append (hne : items ≠ []) (h : ∀ x ∈ items, ReadsExpr 0 x.1 x.2)
    (hclose : close ∈ [Mark.closeParen, .closeBracket, .closeBrace])
    (hn : 2 * (commaTokens (items.map Prod.fst)).length + 2 ≤ n) :
    readMore n close (commaTokens (items.map Prod.fst) ++ .mark close :: rest) =
      some (items.map Prod.snd, rest) := by
  induction items generalizing n with
  | nil => exact absurd rfl hne
  | cons x items ih =>
    obtain ⟨hx, hitems⟩ := List.forall_mem_cons.1 h
    obtain ⟨n, rfl⟩ := Nat.exists_eq_add_one.2 (by omega : 0 < n)
    by_cases hlast : items = []
    · subst hlast
      have hone : commaTokens ([x].map Prod.fst) = x.1 := by simp [commaTokens]
      rw [hone] at hn ⊢
      obtain ⟨hapart, hnext⟩ := apart_mark (List.mem_append_left [.comma] hclose) 0 rest
      rw [readMore, hx.readExpr_append (Nat.le_refl 0) hapart hnext (by omega)]
      simp
    · have hcons : commaTokens ((x :: items).map Prod.fst) =
          x.1 ++ .mark .comma :: commaTokens (items.map Prod.fst) :=
        commaTokens_cons (by simpa using hlast) x.1
      rw [hcons] at hn ⊢
      simp only [List.length_append, List.length_cons] at hn
      obtain ⟨hapart, hnext⟩ := apart_mark (m := .comma) (by simp) 0
        (commaTokens (items.map Prod.fst) ++ .mark close :: rest)
      have hcomma : Mark.comma ≠ close := by
        rintro rfl
        simp at hclose
      have hmore := ih (n := n) hlast hitems (by omega)
      rw [List.append_assoc, List.cons_append, readMore,
        hx.readExpr_append (Nat.le_refl 0) hapart hnext (by omega), Option.bind_some]
      simp [if_neg hcomma, hmore]

theorem readItems_append (hspells : ∀ x ∈ items, Spells 0 x.1 x.2)
    (h : ∀ x ∈ items, ReadsExpr 0 x.1 x.2)
    (hclose : close ∈ [Mark.closeParen, .closeBracket, .closeBrace])
    (hn : 2 * (commaTokens (items.map Prod.fst)).length + 3 ≤ n) :
    readItems n close (commaTokens (items.map Prod.fst) ++ .mark close :: rest) =
      some (items.map Prod.snd, rest) := by
  obtain ⟨n, rfl⟩ := Nat.exists_eq_add_one.2 (by omega : 0 < n)
  cases items with
  | nil => simp [readItems, commaTokens]
  | cons x items =>
    have hhead : (commaTokens ((x :: items).map Prod.fst) ++ .mark close :: rest).head? ≠
        some (.mark close) := by
      have hx := hspells x List.mem_cons_self
      obtain ⟨t, ts, ht⟩ := List.exists_cons_of_ne_nil hx.ne_nil
      have hfirst := hx.head hclose
      rw [ht] at hfirst
      cases items with
      | nil => simpa [commaTokens, ht] using hfirst
      | cons y items =>
        rw [List.map_cons, commaTokens_cons (by simp), ht]
        exact hfirst
    rw [readItems, if_neg hhead, readMore_append (by simp) h hclose (by omega)]

end

/-! ### Operands -/

theorem readsOperand_reference (name : String) : ReadsOperand [.name name] (.variable name) := by
  intro n rest hn hrest
  obtain ⟨n, rfl⟩ := Nat.exists_eq_add_one.2 (by simp at hn; omega : 0 < n)
  have hcallee : callee? (.name name :: rest) = none := by
    rw [Option.eq_none_iff_forall_ne_some]
    rintro ⟨f, rest'⟩ hf
    have hts := callee?_eq_some.1 hf
    rcases f with ⟨_ | _, _⟩ | ⟨_ | _, _, _⟩
    all_goals
      obtain ⟨-, rfl⟩ := List.cons.inj hts
      exact hrest _ (by simp) rfl
  rw [List.singleton_append]
  unfold readOperand
  simp only [hcallee]
  split
  · next heq => cases heq
  · exact absurd rfl (hrest .openBracket (by simp))
  · rfl

theorem readsOperand_unary (op : UnaryOp) (h : ReadsOperand ts e) :
    ReadsOperand (.operator op.symbol :: ts) (.unary op e) := by
  intro n rest hn hrest
  simp only [List.length_cons] at hn
  obtain ⟨n, rfl⟩ := Nat.exists_eq_add_one.2 (by omega : 0 < n)
  rw [List.cons_append, readOperand, UnaryOp.ofSymbol?_eq_some.2 rfl, Option.bind_some,
    h (by omega) hrest]
  rfl

theorem readsOperand_cast (type : String) (h : ReadsOperand ts e) :
    ReadsOperand (.mark .openParen :: .name type :: .mark .closeParen :: ts) (.cast type e) := by
  intro n rest hn hrest
  simp only [List.length_cons] at hn
  obtain ⟨n, rfl⟩ := Nat.exists_eq_add_one.2 (by omega : 0 < n)
  rw [List.cons_append, List.cons_append, List.cons_append, readOperand, h (by omega) hrest]
  rfl

/-- Tokens that spell a binary expression are no name with a parenthesis behind it, so
    the parenthesis before them is not that of a cast. -/
theorem readsOperand_group {op : BinaryOp} {lhs rhs : Expr}
    (h : ReadsExpr 0 ts (.binary op lhs rhs)) :
    ReadsOperand (.mark .openParen :: (ts ++ [.mark .closeParen])) (.binary op lhs rhs) := by
  intro n rest hn hrest
  simp only [List.length_cons, List.length_append] at hn
  obtain ⟨n, rfl⟩ := Nat.exists_eq_add_one.2 (by omega : 0 < n)
  obtain ⟨hapart, hnext⟩ := apart_mark (m := .closeParen) (by simp) 0 rest
  have hread := h.readExpr_append (Nat.le_refl 0) hapart hnext (by omega : 1 + 2 * ts.length ≤ n)
  have hcast : ∀ type ts', ts ++ .mark .closeParen :: rest ≠
      .name type :: .mark .closeParen :: ts' := by
    intro type ts' heq
    obtain ⟨hapart', hnext'⟩ := apart_mark (m := .closeParen) (by simp) 0 ts'
    have hreads : ReadsExpr 0 [.name type] (.variable type) :=
      ReadsOperand.readsExpr (by simp) (readsOperand_reference type)
    have hname := hreads.readExpr_append (n := n) (Nat.le_refl 0) hapart' hnext' (by simp; omega)
    rw [List.singleton_append, ← heq, hread] at hname
    cases hname
  rw [List.cons_append, List.append_assoc, List.singleton_append, readOperand, hread]
  · rfl
  · exact hcast

theorem readOperand_callee {f : Callee} {ts' : List Token} (h : callee? ts = some (f, ts')) :
    readOperand (n + 1) ts = (readItems n .closeParen ts').map (Prod.map f.call id) := by
  obtain ⟨name, ts₁, rfl⟩ : ∃ name ts₁, ts = .name name :: ts₁ := by
    rw [callee?_eq_some.1 h]
    rcases f with ⟨_ | _, _⟩ | ⟨_ | _, _, _⟩ <;> exact ⟨_, _, rfl⟩
  unfold readOperand
  simp only [h]

section
variable {items : List (List Token × Expr)} (hspells : ∀ x ∈ items, Spells 0 x.1 x.2)
  (h : ∀ x ∈ items, ReadsExpr 0 x.1 x.2)

include hspells h

/-- What begins with certain tokens and goes on with expressions up to a closing mark. -/
theorem readsOperand_items {before : List Token} {make : List Expr → Expr} (hbefore : before ≠ [])
    (hclose : close ∈ [Mark.closeParen, .closeBracket, .closeBrace])
    (hread : ∀ n ts, readOperand (n + 1) (before ++ ts) =
      (readItems n close ts).map (Prod.map make id)) :
    ReadsOperand (before ++ (commaTokens (items.map Prod.fst) ++ [.mark close]))
      (make (items.map Prod.snd)) := by
  intro n rest hn hrest
  have hlength := List.length_pos_of_ne_nil hbefore
  simp only [List.length_cons, List.length_append] at hn
  obtain ⟨n, rfl⟩ := Nat.exists_eq_add_one.2 (by omega : 0 < n)
  rw [List.append_assoc, List.append_assoc, List.singleton_append, hread,
    readItems_append hspells h hclose (by omega)]
  rfl

theorem readsOperand_call (f : Callee) :
    ReadsOperand (f.tokens ++ .mark .openParen ::
      (commaTokens (items.map Prod.fst) ++ [.mark .closeParen])) (f.call (items.map Prod.snd)) := by
  rw [List.append_cons]
  refine readsOperand_items hspells h (by simp) (by simp) fun n ts => ?_
  exact readOperand_callee (callee?_eq_some.2 (by simp))

theorem readsOperand_array :
    ReadsOperand (.mark .openBracket :: (commaTokens (items.map Prod.fst) ++ [.mark .closeBracket]))
      (.array (items.map Prod.snd)) :=
  readsOperand_items hspells h (List.cons_ne_nil _ []) (by simp) fun n ts => by
    rw [List.singleton_append, readOperand]

theorem readsOperand_map :
    ReadsOperand (.mark .openBrace :: (commaTokens (items.map Prod.fst) ++ [.mark .closeBrace]))
      (.map (items.map Prod.snd)) :=
  readsOperand_items hspells h (List.cons_ne_nil _ []) (by simp) fun n ts => by
    rw [List.singleton_append, readOperand]

end

theorem readsOperand_access (name : String) (h : ReadsExpr 0 ts e) :
    ReadsOperand (.name name :: .mark .openBracket :: (ts ++ [.mark .closeBracket]))
      (.access name e) := by
  intro n rest hn hrest
  simp only [List.length_cons, List.length_append] at hn
  obtain ⟨n, rfl⟩ := Nat.exists_eq_add_one.2 (by omega : 0 < n)
  obtain ⟨hapart, hnext⟩ := apart_mark (m := .closeBracket) (by simp) 0 rest
  have hcallee : callee? (.name name :: .mark .openBracket ::
      (ts ++ .mark .closeBracket :: rest)) = none := rfl
  rw [List.cons_append, List.cons_append, List.append_assoc, List.singleton_append]
  unfold readOperand
  simp only [hcallee, h.readExpr_append (n := n) (Nat.le_refl 0) hapart hnext (by omega),
    Option.bind_some, closing?_eq_some.2 ⟨rfl, rfl⟩]
  rfl

/-- **A binary expression is read.** Its left operand is, and then extended by the
    operator and the right operand. -/
theorem readsExpr_binary {ts' : List Token} {lhs rhs : Expr} (op : BinaryOp)
    (hq : q ≤ op.precedence) (hl : ReadsExpr op.precedence ts lhs)
    (hr : ReadsExpr (op.precedence + 1) ts' rhs) :
    ReadsExpr q (ts ++ .operator op.symbol :: ts') (.binary op lhs rhs) := by
  intro n k p rest r hpq hrest hnext hk hclimb hn
  simp only [List.length_cons, List.length_append] at hn
  have hp : p ≤ op.precedence := Nat.le_trans hpq hq
  rw [List.append_assoc, List.cons_append]
  refine hl (k := max k (1 + 2 * ts'.length) + 1) hp ?_ ?_ (Nat.succ_pos _) (fun m hm => ?_)
    (by omega)
  · exact fun m _ => by simp
  · refine nextOp?_eq_none.2 fun op' hop' => ?_
    obtain rfl : op = op' := BinaryOp.symbol_injective (by simpa using hop')
    exact Nat.lt_succ_self _
  · obtain ⟨m, rfl⟩ := Nat.exists_eq_add_one.2 (by omega : 0 < m)
    have hright : readExpr m (op.precedence + 1) (ts' ++ rest) = some (rhs, rest) := by
      refine hr.readExpr_append (Nat.le_refl _) hrest ?_ (by omega)
      exact nextOp?_eq_none.2 fun op' hop' =>
        Nat.lt_of_lt_of_le (nextOp?_eq_none.1 hnext op' hop') (Nat.succ_le_succ hq)
    rw [climb, nextOp?_eq_some.2 ⟨rfl, hp⟩]
    simp only [hright, Option.bind_some]
    exact hclimb m (by omega)

theorem Spells.reads (h : Spells q ts e) :
    (operandLevel ≤ q → ReadsOperand ts e) ∧ ReadsExpr q ts e := by
  have hoperand : ∀ {q ts e}, Spells q ts e → ReadsOperand ts e →
      (operandLevel ≤ q → ReadsOperand ts e) ∧ ReadsExpr q ts e :=
    fun h hr => ⟨fun _ => hr, hr.readsExpr h.ne_nil⟩
  induction h with
  | reference name => exact hoperand (.reference name) (readsOperand_reference name)
  | int hn =>
    refine hoperand (.int hn) fun {n rest} hle _ => ?_
    obtain ⟨n, rfl⟩ := Nat.exists_eq_add_one.2 (by simp at hle; omega : 0 < n)
    rw [List.singleton_append, readOperand, if_pos hn]
  | string s =>
    refine hoperand (.string s) fun {n rest} hle _ => ?_
    obtain ⟨n, rfl⟩ := Nat.exists_eq_add_one.2 (by simp at hle; omega : 0 < n)
    rw [List.singleton_append, readOperand]
  | unary op h ih => exact hoperand (.unary op h) (readsOperand_unary op (ih.1 (Nat.le_refl _)))
  | cast type h ih => exact hoperand (.cast type h) (readsOperand_cast type (ih.1 (Nat.le_refl _)))
  | group h ih => exact hoperand (.group h) (readsOperand_group ih.2)
  | call f h ih => exact hoperand (.call f h) (readsOperand_call h (fun x hx => (ih x hx).2) f)
  | array h ih => exact hoperand (.array h) (readsOperand_array h fun x hx => (ih x hx).2)
  | map h ih => exact hoperand (.map h) (readsOperand_map h fun x hx => (ih x hx).2)
  | access name h ih => exact hoperand (.access name h) (readsOperand_access name ih.2)
  | binary op hq hl hr ihl ihr =>
    refine ⟨fun hle => ?_, readsExpr_binary op hq ihl.2 ihr.2⟩
    exact absurd (Nat.le_trans hle hq) (Nat.not_le.2 op.precedence_lt)

/-- **Spelled expressions are read**, whatever follows, if the expression ends there. -/
theorem Spells.readExpr_append (h : Spells q ts e) (hpq : p ≤ q) (hrest : Apart rest)
    (hnext : nextOp? p rest = none) (hn : 1 + 2 * ts.length ≤ n) :
    readExpr n p (ts ++ rest) = some (e, rest) :=
  ReadsExpr.readExpr_append h.reads.2 hpq hrest hnext hn

/-- **The reader reads the grammar.** It reads an expression from tokens if and only if
    they spell it. -/
theorem readTokens?_eq_some : readTokens? ts = some e ↔ Spells 0 ts e := by
  constructor
  · intro h
    rw [readTokens?] at h
    split at h
    · next e' hread =>
      obtain rfl := Option.some.inj h
      obtain ⟨ts', rfl, hspells, -⟩ := (sound _).expr (Nat.zero_le _) hread
      rwa [List.append_nil]
    · cases h
  · intro h
    have hread : readExpr (2 * ts.length + 1) 0 (ts ++ []) = some (e, []) :=
      h.readExpr_append (Nat.le_refl 0) (by simp [Apart]) rfl (by omega)
    rw [List.append_nil] at hread
    rw [readTokens?, hread]

example : readTokens? [.name "a", .operator "-", .name "b", .operator "*", .name "c",
    .operator "-", .name "d"] =
      some (.binary .subtract (.binary .subtract (.variable "a")
        (.binary .multiply (.variable "b") (.variable "c"))) (.variable "d")) := rfl

/-- Tokens spell one expression only. -/
theorem Spells.unique {e' : Expr} (h : Spells 0 ts e) (h' : Spells 0 ts e') : e = e' :=
  Option.some.inj ((readTokens?_eq_some.2 h).symm.trans (readTokens?_eq_some.2 h'))

end

end TreeDoc.Program
