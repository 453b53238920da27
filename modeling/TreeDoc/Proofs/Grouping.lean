/-
  Parentheses stand only where they are needed.

  * `Piece`, `Expr.pieces`: the text of an expression in pieces, in which the
    parentheses around operands are told apart from those of calls and casts;
  * `Expr.needed`: the number of parentheses that an expression needs at a level.
    Tokens that spell it there have no fewer (`needed_le_count`), and its own text has
    no more (`Plain.measured`);
  * `parentheses_minimal`: so without one pair of the parentheses around operands the
    text of an expression does not spell it any more.
-/
import TreeDoc.Proofs.SourceLines
import TreeDoc.Proofs.SourceText

namespace TreeDoc.Program

/-! ## Texts in pieces -/

/-- A piece of the text of an expression: a parenthesis that groups an operand, or
    anything else. -/
inductive Piece where
  | text (s : String)
  | opening
  | closing
deriving Repr, DecidableEq

/-- How a piece is written. -/
def Piece.source : Piece → String
  | text s => s
  | opening => "("
  | closing => ")"

/-- The text that the pieces make up. -/
def textOf (ps : List Piece) : String := String.join (ps.map Piece.source)

/-- The pieces of an operand, between parentheses if the operand is a binary expression
    whose precedence is too weak for its place. -/
def groupedPieces (tooWeak : Nat → Bool) (operand : Expr) (ps : List Piece) : List Piece :=
  match operand with
  | .binary op _ _ => if tooWeak op.precedence then .opening :: (ps ++ [.closing]) else ps
  | _ => ps

/-- The pieces of items with commas between them, and those of two marks around them. -/
def enclosedPieces (before : String) (items : List (List Piece)) (after : String) : List Piece :=
  .text before :: ([Piece.text ", "].intercalate items ++ [.text after])

mutual

/-- The pieces of the text of an expression. -/
def Expr.pieces : Expr → List Piece
  | .functionCall name package args =>
    .text (qualified package name) :: enclosedPieces "(" (piecesEach args) ")"
  | .actionCall name connector package args =>
    .text (qualified package connector) :: .text "." :: .text name ::
      enclosedPieces "(" (piecesEach args) ")"
  | .binary op lhs rhs =>
    groupedPieces (· < op.precedence) lhs lhs.pieces ++ .text (" " ++ op.symbol ++ " ") ::
      groupedPieces (· ≤ op.precedence) rhs rhs.pieces
  | .unary op operand => .text op.symbol :: groupedPieces (fun _ => true) operand operand.pieces
  | .cast type operand => .text "(" :: .text type :: .text ") " ::
      groupedPieces (fun _ => true) operand operand.pieces
  | .array args => enclosedPieces "[" (piecesEach args) "]"
  | .map args => enclosedPieces "\x7b" (piecesEach args) "\x7d"
  | .access name index => .text name :: .text "[" :: (index.pieces ++ [.text "]"])
  | .keyValue key value => key.pieces ++ .text ": " :: value.pieces
  | .structInit type args => .text type :: enclosedPieces "\x7b" (piecesEach args) "\x7d"
  | .resourceCall name args => .text name :: enclosedPieces "(" (piecesEach args) ")"
  | e => [.text e.source]

/-- The pieces of the texts of expressions. -/
def piecesEach : List Expr → List (List Piece)
  | [] => []
  | e :: es => e.pieces :: piecesEach es

end

theorem textOf_nil : textOf [] = "" := rfl

theorem textOf_cons (x : Piece) (ps : List Piece) : textOf (x :: ps) = x.source ++ textOf ps := by
  rw [textOf, List.map_cons, String.join_cons, textOf]

theorem textOf_append (ps qs : List Piece) : textOf (ps ++ qs) = textOf ps ++ textOf qs := by
  rw [textOf, List.map_append, String.join_append, textOf, textOf]

theorem textOf_text (s : String) : textOf [.text s] = s := by
  simp [textOf, Piece.source]

theorem textOf_grouped (tooWeak : Nat → Bool) (operand : Expr) (ps : List Piece) :
    textOf (groupedPieces tooWeak operand ps) = grouped tooWeak operand (textOf ps) := by
  cases operand with
  | binary op lhs rhs =>
    simp only [groupedPieces, grouped]
    split_ifs
    · simp [textOf, Piece.source, String.append_assoc]
    · rfl
  | _ => rfl

theorem textOf_intercalate : ∀ pss : List (List Piece),
    textOf ([Piece.text ", "].intercalate pss) = commaSeparated (pss.map textOf)
  | [] => rfl
  | [ps] => by simp [commaSeparated, Text.separated]
  | ps :: qs :: pss => by
    rw [List.intercalate_cons_cons, textOf_append, textOf_append, textOf_text,
      textOf_intercalate (qs :: pss)]
    simp [commaSeparated, Text.separated]

theorem textOf_enclosed (before after : String) (pss : List (List Piece)) :
    textOf (enclosedPieces before pss after) =
      before ++ commaSeparated (pss.map textOf) ++ after := by
  rw [enclosedPieces, textOf_cons, textOf_append, textOf_intercalate, textOf_text,
    Piece.source, String.append_assoc]

mutual

/-- **The pieces make up the text** of the expression. -/
theorem textOf_pieces : ∀ e : Expr, textOf e.pieces = e.source
  | .functionCall name package args => by
    simp [Expr.pieces, Expr.source, textOf_cons, textOf_enclosed, Piece.source,
      textOf_piecesEach args, String.append_assoc]
  | .actionCall name connector package args => by
    simp [Expr.pieces, Expr.source, textOf_cons, textOf_enclosed, Piece.source,
      textOf_piecesEach args, String.append_assoc]
  | .binary op lhs rhs => by
    simp [Expr.pieces, Expr.source, textOf_cons, textOf_append, textOf_grouped, Piece.source,
      textOf_pieces lhs, textOf_pieces rhs, String.append_assoc]
  | .unary op operand => by
    simp [Expr.pieces, Expr.source, textOf_cons, textOf_grouped, Piece.source,
      textOf_pieces operand]
  | .cast type operand => by
    simp [Expr.pieces, Expr.source, textOf_cons, textOf_grouped, Piece.source,
      textOf_pieces operand, String.append_assoc]
  | .array args => by
    simp [Expr.pieces, Expr.source, textOf_enclosed, textOf_piecesEach args]
  | .map args => by
    simp [Expr.pieces, Expr.source, textOf_enclosed, textOf_piecesEach args]
  | .access name index => by
    simp [Expr.pieces, Expr.source, textOf_cons, textOf_append, textOf_nil, Piece.source,
      textOf_pieces index, String.append_assoc]
  | .keyValue key value => by
    simp [Expr.pieces, Expr.source, textOf_cons, textOf_append, Piece.source,
      textOf_pieces key, textOf_pieces value, String.append_assoc]
  | .structInit type args => by
    simp [Expr.pieces, Expr.source, textOf_cons, textOf_enclosed, Piece.source,
      textOf_piecesEach args, String.append_assoc]
  | .resourceCall name args => by
    simp [Expr.pieces, Expr.source, textOf_cons, textOf_enclosed, Piece.source,
      textOf_piecesEach args, String.append_assoc]
  | .literal _ | .variable _ | .template _ | .creation _ | .fieldAccess _ _ | .location _ =>
    textOf_text _

theorem textOf_piecesEach : ∀ es : List Expr, (piecesEach es).map textOf = sources es
  | [] => rfl
  | e :: es => by
    rw [piecesEach, List.map_cons, textOf_pieces e, textOf_piecesEach es, sources]

end

/-! ## Parentheses that are needed -/

mutual

/-- How many parentheses an expression needs to be spelled at a level: those of calls
    and casts, and one pair around every binary expression that does not bind as tightly
    as its place asks for. -/
def Expr.needed : Expr → Nat → Nat
  | .functionCall _ _ args, _ | .actionCall _ _ _ args, _ => 1 + neededEach args
  | .binary op lhs rhs, p => (if op.precedence < p then 1 else 0) +
      (lhs.needed op.precedence + rhs.needed (op.precedence + 1))
  | .unary _ operand, _ => operand.needed operandLevel
  | .cast _ operand, _ => 1 + operand.needed operandLevel
  | .array args, _ | .map args, _ => neededEach args
  | .access _ index, _ => index.needed 0
  | _, _ => 0

/-- How many parentheses expressions need, one after the other. -/
def neededEach : List Expr → Nat
  | [] => 0
  | e :: es => e.needed 0 + neededEach es

end

theorem count_commaTokens (items : List (List Token × Expr))
    (h : ∀ x ∈ items, x.2.needed 0 ≤ x.1.count (.mark .openParen)) :
    neededEach (items.map Prod.snd) ≤
      (commaTokens (items.map Prod.fst)).count (.mark .openParen) := by
  induction items with
  | nil => exact Nat.zero_le _
  | cons x items ih =>
    obtain ⟨hx, hitems⟩ := List.forall_mem_cons.1 h
    cases items with
    | nil => simpa [neededEach, commaTokens] using hx
    | cons y items =>
      have hcomma : commaTokens ((x :: y :: items).map Prod.fst) =
          x.1 ++ .mark .comma :: commaTokens ((y :: items).map Prod.fst) :=
        commaTokens_cons (by simp) x.1
      rw [hcomma, List.map_cons, neededEach, List.count_append, List.count_cons]
      exact Nat.add_le_add hx (Nat.le_add_right_of_le (ih hitems))

/-- **Tokens that spell an expression have the parentheses that it needs.** -/
theorem needed_le_count {p : Nat} {ts : List Token} {e : Expr} (h : Spells p ts e) :
    e.needed p ≤ ts.count (.mark .openParen) := by
  induction h with
  | reference name => exact Nat.zero_le _
  | int hn => exact Nat.zero_le _
  | string s => exact Nat.zero_le _
  | unary op _ ih =>
    rw [Expr.needed, List.count_cons]
    exact Nat.le_add_right_of_le ih
  | cast type _ ih =>
    rw [Expr.needed, List.count_cons_self, List.count_cons_of_ne (by simp),
      List.count_cons_of_ne (by simp), Nat.add_comm]
    exact Nat.add_le_add_right ih 1
  | @group p ts op lhs rhs _ ih =>
    -- a pair of parentheses lets the expression stand at every level
    rw [Expr.needed, if_neg (Nat.not_lt_zero _), Nat.zero_add] at ih
    rw [Expr.needed, List.count_cons_self, List.count_append]
    split_ifs <;> omega
  | @call p items f _ ih =>
    have hitems := count_commaTokens items ih
    have hneeded : (f.call (items.map Prod.snd)).needed p =
        1 + neededEach (items.map Prod.snd) := by
      cases f <;> rw [Callee.call, Expr.needed]
    rw [hneeded, List.count_append, List.count_cons_self, List.count_append]
    omega
  | @array p items _ ih =>
    have hitems := count_commaTokens items ih
    rw [Expr.needed, List.count_cons, List.count_append]
    omega
  | @map p items _ ih =>
    have hitems := count_commaTokens items ih
    rw [Expr.needed, List.count_cons, List.count_append]
    omega
  | access name _ ih =>
    rw [Expr.needed, List.count_cons, List.count_cons, List.count_append]
    omega
  | binary op hp _ _ ihl ihr =>
    rw [Expr.needed, if_neg (Nat.not_lt.2 hp), List.count_append, List.count_cons]
    omega

/-! ## Parentheses that are written -/

/-- How many parentheses are opened in the pieces, each taken as code. -/
def parensIn : List Piece → Nat
  | [] => 0
  | x :: ps => parens .code x.source.toList + parensIn ps

theorem parensIn_append (ps qs : List Piece) : parensIn (ps ++ qs) = parensIn ps + parensIn qs := by
  induction ps with
  | nil => exact (Nat.zero_add _).symm
  | cons x ps ih => rw [List.cons_append, parensIn, parensIn, ih, Nat.add_assoc]

/-- The pieces are code without comments, and open a number of parentheses. -/
structure Measured (ps : List Piece) (n : Nat) : Prop where
  silent : ∀ x ∈ ps, Silent x.source.toList
  opens : ∀ x ∈ ps, Opens (parens .code x.source.toList) x.source.toList
  count : parensIn ps = n

section
variable {n k : Nat} {ps qs : List Piece} {s : String} {e : Expr} {args : List Expr}

theorem Measured.nil : Measured [] 0 := ⟨by simp, by simp, rfl⟩

theorem Measured.append (h : Measured ps n) (h' : Measured qs k) : Measured (ps ++ qs) (n + k) where
  silent := List.forall_mem_append.2 ⟨h.silent, h'.silent⟩
  opens := List.forall_mem_append.2 ⟨h.opens, h'.opens⟩
  count := by rw [parensIn_append, h.count, h'.count]

theorem Measured.singleton {x : Piece} (hsilent : Silent x.source.toList)
    (hopens : Opens n x.source.toList) : Measured [x] n where
  silent := by simpa using hsilent
  opens := by simpa [hopens.eq] using hopens
  count := hopens.eq

theorem Measured.cons {x : Piece} (h : Measured [x] n) (h' : Measured ps k) :
    Measured (x :: ps) (n + k) := h.append h'

theorem Measured.text_append {t : String} (h : Measured [.text s] n) (h' : Measured [.text t] k) :
    Measured [.text (s ++ t)] (n + k) := by
  have hsilent := (h.silent _ List.mem_cons_self).append (h'.silent _ List.mem_cons_self)
  have hopens := (h.opens _ List.mem_cons_self).append (h'.opens _ List.mem_cons_self)
  have hcount : parens .code s.toList = n := h.count
  have hcount' : parens .code t.toList = k := h'.count
  refine .singleton ?_ ?_
  · simpa [Piece.source] using hsilent
  · simpa [Piece.source, hcount, hcount'] using hopens

theorem measured_text (hquote : '"' ∉ s.toList) (hslash : '/' ∉ s.toList) :
    Measured [.text s] (s.toList.count '(') :=
  .singleton (silent_of_not_mem hquote hslash) (opens_count hquote)

theorem measured_quoted (s : String) : Measured [.text (Text.quoted s)] 0 :=
  .singleton (silent_quoted s) (opens_quoted s)

theorem measured_nameParts (h : ∀ c ∈ s.toList, isNamePart c = true) : Measured [.text s] 0 := by
  refine .singleton (silent_of_not_mem ?_ ?_) (opens_nameParts h)
  · exact not_mem_of_nameParts h (by decide)
  · exact not_mem_of_nameParts h (by decide)

theorem measured_name (h : isName s = true) : Measured [.text s] 0 := by
  refine measured_nameParts fun c hc => ?_
  rw [isName] at h
  split at h
  · cases h
  · next d ds htext =>
    obtain ⟨hstart, hparts⟩ := Bool.and_eq_true_iff.1 h
    rw [htext] at hc
    rcases List.mem_cons.1 hc with rfl | hc
    · exact isNamePart_of_isNameStart hstart
    · exact List.all_eq_true.1 hparts c hc

theorem measured_qualified {package : Option String} {name : String} (hname : isName name = true)
    (hpackage : ∀ p ∈ package, isName p = true) : Measured [.text (qualified package name)] 0 := by
  cases package with
  | none => exact measured_name hname
  | some p =>
    have hcolon : Measured [.text ":"] 0 := measured_text (by decide) (by decide)
    exact ((measured_name (hpackage p rfl)).text_append hcolon).text_append (measured_name hname)

theorem measured_number (n : Nat) : Measured [.text (toString n)] 0 := by
  refine measured_nameParts fun c hc => isNamePart_of_isDigit ?_
  have hmem : c ∈ Nat.toDigits 10 n := Nat.toList_repr ▸ hc
  exact Nat.isDigit_of_mem_toDigits (by decide) (by decide) hmem

theorem measured_binary (op : BinaryOp) : Measured [.text (" " ++ op.symbol ++ " ")] 0 := by
  cases op with
  | divide =>
    have hblank : Silent [' '] := silent_nil.cons (by decide)
    have hsilent : Silent [' ', '/', ' '] := (silent_slash (by decide) hblank).cons (by decide)
    exact .singleton hsilent (opens_zero (by decide) (by decide))
  | _ => exact measured_text (by decide) (by decide)

theorem measured_items (h : ∀ e ∈ args, Measured e.pieces (e.needed 0)) :
    Measured ([Piece.text ", "].intercalate (piecesEach args)) (neededEach args) := by
  induction args with
  | nil => exact .nil
  | cons e args ih =>
    obtain ⟨he, hargs⟩ := List.forall_mem_cons.1 h
    cases args with
    | nil => simpa [piecesEach, neededEach] using he
    | cons e' args =>
      have hcomma : Measured [.text ", "] 0 := measured_text (by decide) (by decide)
      have hboth := he.append (hcomma.append (ih hargs))
      simpa [piecesEach, neededEach, List.intercalate_cons_cons] using hboth

theorem measured_enclosed {before after : String} (h : ∀ e ∈ args, Measured e.pieces (e.needed 0))
    (hbefore : Measured [.text before] n) (hafter : Measured [.text after] 0) :
    Measured (enclosedPieces before (piecesEach args) after) (n + neededEach args) :=
  hbefore.cons ((measured_items h).append hafter)

theorem measured_grouped {tooWeak : Nat → Bool} {q : Nat} (h : Measured e.pieces (e.needed 0))
    (hweak : ∀ op : BinaryOp, tooWeak op.precedence = decide (op.precedence < q)) :
    Measured (groupedPieces tooWeak e e.pieces) (e.needed q) := by
  cases e with
  | binary op lhs rhs =>
    rw [groupedPieces, hweak]
    by_cases htight : op.precedence < q
    · have hopening : Measured [.opening] 1 :=
        .singleton (silent_of_not_mem (by decide) (by decide)) (opens_count (by decide))
      have hclosing : Measured [.closing] 0 :=
        .singleton (silent_of_not_mem (by decide) (by decide)) (opens_count (by decide))
      have hboth := hopening.append (h.append hclosing)
      simpa [Expr.needed, htight] using hboth
    · simpa [Expr.needed, htight] using h
  | _ => exact h

theorem measured_operand (h : Measured e.pieces (e.needed 0)) :
    Measured (groupedPieces (fun _ => true) e e.pieces) (e.needed operandLevel) :=
  measured_grouped h fun op => (decide_eq_true op.precedence_lt).symm

/-- **The text of a plain expression has no more parentheses than are needed.** -/
theorem Expr.Plain.measured (h : e.Plain) : Measured e.pieces (e.needed 0) := by
  have hopen : Measured [.text "("] 1 := measured_text (by decide) (by decide)
  have hclose : Measured [.text ")"] 0 := measured_text (by decide) (by decide)
  induction h with
  | reference hname => exact measured_name hname
  | @int n hn =>
    have htext : (Expr.int n).pieces = [.text (toString n.toNatClampNeg)] := by
      rw [← source_int hn]
      rfl
    rw [htext]
    exact measured_number _
  | string s => exact measured_quoted s
  | @binary lhs rhs op _ _ ihl ihr =>
    have hlhs : Measured (groupedPieces (· < op.precedence) lhs lhs.pieces) _ :=
      measured_grouped ihl fun _ => rfl
    have hrhs : Measured (groupedPieces (· ≤ op.precedence) rhs rhs.pieces)
        (rhs.needed (op.precedence + 1)) :=
      measured_grouped ihr fun _ => decide_eq_decide.2 Nat.lt_succ_iff.symm
    have hboth := hlhs.append ((measured_binary op).append hrhs)
    simpa [Expr.pieces, Expr.needed] using hboth
  | unary op _ ih =>
    have hop : Measured [.text op.symbol] 0 := by
      cases op <;> exact measured_text (by decide) (by decide)
    have hboth := hop.append (measured_operand ih)
    simpa [Expr.pieces, Expr.needed] using hboth
  | functionCall hname hpackage _ ih =>
    have hboth := (measured_qualified hname hpackage).append (measured_enclosed ih hopen hclose)
    simpa [Expr.pieces, Expr.needed] using hboth
  | actionCall hname hconnector hpackage _ ih =>
    have hdot : Measured [.text "."] 0 := measured_text (by decide) (by decide)
    have hboth := (measured_qualified hconnector hpackage).append
      (hdot.append ((measured_name hname).append (measured_enclosed ih hopen hclose)))
    simpa [Expr.pieces, Expr.needed] using hboth
  | array _ ih =>
    have hbefore : Measured [.text "["] 0 := measured_text (by decide) (by decide)
    have hafter : Measured [.text "]"] 0 := measured_text (by decide) (by decide)
    simpa [Expr.pieces, Expr.needed] using measured_enclosed ih hbefore hafter
  | map _ ih =>
    have hbefore : Measured [.text "\x7b"] 0 := measured_text (by decide) (by decide)
    have hafter : Measured [.text "\x7d"] 0 := measured_text (by decide) (by decide)
    simpa [Expr.pieces, Expr.needed] using measured_enclosed ih hbefore hafter
  | cast htype _ ih =>
    have hcast : Measured [.text ") "] 0 := measured_text (by decide) (by decide)
    have hboth := hopen.append ((measured_name htype).append (hcast.append (measured_operand ih)))
    simpa [Expr.pieces, Expr.needed] using hboth
  | access hname _ ih =>
    have hbefore : Measured [.text "["] 0 := measured_text (by decide) (by decide)
    have hafter : Measured [.text "]"] 0 := measured_text (by decide) (by decide)
    have hboth := (measured_name hname).append (hbefore.append (ih.append hafter))
    simpa [Expr.pieces, Expr.needed] using hboth

theorem opens_textOf (h : ∀ x ∈ ps, Opens (parens .code x.source.toList) x.source.toList) :
    Opens (parensIn ps) (textOf ps).toList := by
  induction ps with
  | nil => exact fun _ => (Nat.zero_add _).symm
  | cons x ps ih =>
    obtain ⟨hx, hps⟩ := List.forall_mem_cons.1 h
    rw [textOf_cons, String.toList_append, parensIn]
    exact hx.append (ih hps)

theorem silent_textOf (h : ∀ x ∈ ps, Silent x.source.toList) : Silent (textOf ps).toList := by
  induction ps with
  | nil => exact silent_nil
  | cons x ps ih =>
    obtain ⟨hx, hps⟩ := List.forall_mem_cons.1 h
    rw [textOf_cons, String.toList_append]
    exact hx.append (ih hps)

/-- No comment begins in the text of a plain expression. -/
theorem Expr.Plain.silent (h : e.Plain) : Silent e.source.toList :=
  textOf_pieces e ▸ silent_textOf h.measured.silent

end

/-- **Parentheses are minimal.** The text of a plain expression is made up of its
    pieces. If one of the parentheses that open an operand is left out, and one behind it
    that closes an operand, whether that of the same operand or not, the reader does not
    read the expression from the text any more. -/
theorem parentheses_minimal {e : Expr} (h : e.Plain) :
    textOf e.pieces = e.source ∧
    ∀ before inner after, e.pieces = before ++ .opening :: (inner ++ .closing :: after) →
      Expr.read? (textOf (before ++ inner ++ after)) ≠ some e := by
  refine ⟨textOf_pieces e, fun before inner after hpieces hread => ?_⟩
  obtain ⟨ts, hlex, htokens⟩ := Option.bind_eq_some_iff.1 hread
  have hneeded : e.needed 0 ≤ ts.count (.mark .openParen) :=
    needed_le_count (readTokens?_eq_some.1 htokens)
  have hwritten := h.measured
  rw [hpieces] at hwritten
  have hsub : ∀ x ∈ before ++ inner ++ after,
      x ∈ before ++ .opening :: (inner ++ .closing :: after) := by
    intro x hx
    simp only [List.mem_append, List.mem_cons] at hx ⊢
    tauto
  -- the shorter text opens one parenthesis less than the expression needs
  have hparens := (opens_textOf fun x hx => hwritten.opens x (hsub x hx)).eq
  have hopening : parens .code Piece.opening.source.toList = 1 := by decide
  have hcount := hwritten.count
  simp only [parensIn_append, parensIn, hopening] at hcount hparens
  rw [count_openParen hlex, hparens] at hneeded
  omega

/-- A product of a sum, and the negation of a difference. -/
def groupedExpr : Expr :=
  .binary .multiply (.binary .add (.variable "a") (.variable "b"))
    (.unary .negate (.binary .subtract (.functionCall "f" none [.variable "c"]) (.int 1)))

/-- Without the parentheses around its first operand the text of the product is that of
    another expression, and without those of the second as well. -/
theorem groupedExpr_minimal :
    groupedExpr.Plain ∧ groupedExpr.source = "(a + b) * -(f(c) - 1)" ∧
    Expr.read? "a + b * -(f(c) - 1)" ≠ some groupedExpr ∧
    Expr.read? "(a + b) * -f(c) - 1" ≠ some groupedExpr := by
  have hplain : groupedExpr.Plain := by
    have hcall : (Expr.functionCall "f" none [.variable "c"]).Plain :=
      .functionCall (by decide) (by simp) (by simpa using .reference (by decide))
    exact .binary _ (.binary _ (.reference (by decide)) (.reference (by decide)))
      (.unary _ (.binary _ hcall (.int (by decide))))
  have hminimal := (parentheses_minimal hplain).2
  refine ⟨hplain, rfl, ?_, ?_⟩
  · exact hminimal [] [.text "a", .text " + ", .text "b"] [.text " * ", .text "-", .opening,
      .text "f", .text "(", .text "c", .text ")", .text " - ", .text "1", .closing] rfl
  · exact hminimal [.opening, .text "a", .text " + ", .text "b", .closing, .text " * ", .text "-"]
      [.text "f", .text "(", .text "c", .text ")", .text " - ", .text "1"] [] rfl

end TreeDoc.Program
