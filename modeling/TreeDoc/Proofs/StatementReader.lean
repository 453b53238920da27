/-
  Statements read from a line of source text.

  * `Line`: the tokens of a line of code, and the comment behind them;
  * `readStmt`, `readStmts`: a reader. Expressions in statements are read by precedence
    climbing, an else belongs to the nearest conditional that has none, and nothing comes
    after a comment;
  * `Stmt.legible`: no conditional with an else has a branch in front of it that could
    take the else, and nothing stands behind a comment. Only such statements are read
    (`legible_of_read`);
  * `ReadsStmt`: a statement is read from tokens and a comment, whatever follows;
  * `readsStmt_block`, `readsStmt_ifElse`, …: how each statement is read.
-/
import TreeDoc.Proofs.SourceReader

namespace TreeDoc.Program

/-! ## Parts of statements -/

/-- The words with which statements begin or go on. -/
inductive Keyword where
  | conditional
  | alternative
  | loop
  | reply
  | returning
deriving Repr, DecidableEq

/-- How a keyword is written. -/
def Keyword.word : Keyword → String
  | conditional => "if"
  | alternative => "else"
  | loop => "while"
  | reply => "reply"
  | returning => "return"

/-- The keyword with a name. -/
def Keyword.ofName? (name : String) : Option Keyword :=
  [conditional, alternative, loop, reply, returning].find? fun k => k.word = name

theorem Keyword.ofName?_word (k : Keyword) : ofName? k.word = some k := by
  cases k <;> decide

/-- The expression in front of some tokens, and what follows it. -/
def takeExpr? (ts : List Token) : Option (Expr × List Token) := readExpr (2 * ts.length + 1) 0 ts

/-- The expression in front of a semicolon, and what follows the semicolon. -/
def takeValue? (ts : List Token) : Option (Expr × List Token) :=
  (takeExpr? ts).bind (closing? .semicolon)

/-- The expression between parentheses, and what follows them. -/
def takeCondition? : List Token → Option (Expr × List Token)
  | .mark .openParen :: ts => (takeExpr? ts).bind (closing? .closeParen)
  | _ => none

/-- One or more expressions with commas between them, up to a token. The number bounds
    the expressions. -/
def takeList? (stop : Token) : Nat → List Token → Option (List Expr × List Token)
  | 0, _ => none
  | n + 1, ts =>
    (takeExpr? ts).bind fun r =>
      match r with
      | (e, t :: ts) =>
        if t = stop then some ([e], ts)
        else if t = .mark .comma then (takeList? stop n ts).map (Prod.map (e :: ·) id)
        else none
      | _ => none

/-- What follows an else. -/
def takeElse? : List Token → Option (List Token)
  | .name s :: ts => if s = Keyword.alternative.word then some ts else none
  | _ => none

/-- The values of a return. -/
def readReturning : List Token → Option (Stmt × List Token)
  | .mark .semicolon :: ts => some (.returning [], ts)
  | ts => (takeList? (.mark .semicolon) ts.length ts).map (Prod.map .returning id)

/-- The targets and the value of an assignment. -/
def readAssign (ts : List Token) : Option (Stmt × List Token) :=
  (takeList? (.operator "=") ts.length ts).bind fun r =>
    (takeValue? r.2).map (Prod.map (.assign r.1) id)

/-- A call or an assignment. -/
def readCallOrAssign (ts : List Token) : Option (Stmt × List Token) :=
  match takeValue? ts with
  | some (.functionCall name package args, ts) => some (.functionCall name package args, ts)
  | some (.actionCall name connector package args, ts) =>
    some (.actionCall name connector package args, ts)
  | _ => readAssign ts

/-- A statement without other statements in it, which begins with a name. -/
def readSimple (name : String) (ts : List Token) : Option (Stmt × List Token) :=
  match Keyword.ofName? name with
  | some .reply => (takeValue? ts).map (Prod.map .reply id)
  | some .returning => readReturning ts
  | none => readCallOrAssign (.name name :: ts)
  | _ => none

/-! ## The reader -/

/-- A line of source text: the tokens of its code, and the comment behind them. -/
structure Line where
  code : List Token
  comment : Option String
deriving Repr, DecidableEq

/-- Nothing is left of a line. -/
def Line.done : Line := ⟨[], none⟩

mutual

/-- A statement, and what is left of the line after it. The number bounds the calls. -/
def readStmt : Nat → Line → Option (Stmt × Line)
  | 0, _ => none
  | n + 1, line =>
    match line.code with
    | [] => line.comment.map fun text => (.comment text, .done)
    | .mark .openBrace :: ts => (readStmts n ⟨ts, line.comment⟩).map (Prod.map .block id)
    | .name name :: ts =>
      match Keyword.ofName? name with
      | some .conditional =>
        (takeCondition? ts).bind fun c => (readStmt n ⟨c.2, line.comment⟩).bind fun r =>
          match takeElse? r.2.code with
          | some ts =>
            (readStmt n ⟨ts, r.2.comment⟩).map (Prod.map (fun s => .ifElse c.1 r.1 (some s)) id)
          | none => some (.ifElse c.1 r.1 none, r.2)
      | some .loop =>
        (takeCondition? ts).bind fun c =>
          (readStmt n ⟨c.2, line.comment⟩).map (Prod.map (fun s => .whileLoop c.1 (some s)) id)
      | _ => (readSimple name ts).map (Prod.map id (⟨·, line.comment⟩))
    | _ => none

/-- Statements up to a closing brace. -/
def readStmts : Nat → Line → Option (List Stmt × Line)
  | 0, _ => none
  | n + 1, line =>
    match line.code with
    | .mark .closeBrace :: ts => some ([], ⟨ts, line.comment⟩)
    | _ => (readStmt n line).bind fun r => (readStmts n r.2).map (Prod.map (r.1 :: ·) id)

end

/-- The statement that a whole line spells. -/
def Line.stmt? (line : Line) : Option Stmt :=
  match readStmt (2 * line.code.length + 1) line with
  | some (s, ⟨[], none⟩) => some s
  | _ => none

/-! ## Statements that can be read -/

/-- The statement ends with a conditional that has no else. -/
def Stmt.endsOpen : Stmt → Bool
  | .ifElse _ _ none => true
  | .ifElse _ _ (some s) => s.endsOpen
  | .whileLoop _ (some s) => s.endsOpen
  | _ => false

/-- The comment with which the statement ends. -/
def Stmt.lastComment : Stmt → Option String
  | .comment text => some text
  | .ifElse _ thenBody none => thenBody.lastComment
  | .ifElse _ _ (some s) => s.lastComment
  | .whileLoop _ (some s) => s.lastComment
  | _ => none

mutual

/-- **Legible statements**: an else stands behind a branch that neither ends with a
    conditional without an else nor with a comment, and no statement of a block ends
    with a comment. -/
def Stmt.legible : Stmt → Bool
  | .block statements => stmtsLegible statements
  | .ifElse _ thenBody none => thenBody.legible
  | .ifElse _ thenBody (some s) =>
    thenBody.legible && !thenBody.endsOpen && thenBody.lastComment.isNone && s.legible
  | .whileLoop _ (some s) => s.legible
  | _ => true

/-- The statements of a block are legible, and none ends with a comment. -/
def stmtsLegible : List Stmt → Bool
  | [] => true
  | s :: ss => s.legible && s.lastComment.isNone && stmtsLegible ss

end

/-! ## What is read is legible -/

/-- The statement has no other statement in it, and is no comment. -/
def Stmt.isSimple : Stmt → Bool
  | .assign _ _ | .functionCall _ _ _ | .actionCall _ _ _ _ | .reply _ | .returning _ => true
  | _ => false

theorem Stmt.isSimple_spec {s : Stmt} (h : s.isSimple = true) :
    s.legible = true ∧ s.lastComment = none ∧ s.endsOpen = false := by
  cases s with
  | assign _ _ => exact ⟨rfl, rfl, rfl⟩
  | functionCall _ _ _ => exact ⟨rfl, rfl, rfl⟩
  | actionCall _ _ _ _ => exact ⟨rfl, rfl, rfl⟩
  | reply _ => exact ⟨rfl, rfl, rfl⟩
  | returning _ => exact ⟨rfl, rfl, rfl⟩
  | _ => cases h

section
variable {n : Nat} {ts rest : List Token} {line line' : Line} {s : Stmt} {ss : List Stmt}
  {name : String}

theorem isSimple_readReturning (h : readReturning ts = some (s, rest)) : s.isSimple = true := by
  unfold readReturning at h
  split at h
  · obtain ⟨rfl, rfl⟩ := Prod.mk.inj (Option.some.inj h)
    rfl
  · obtain ⟨values, -, rfl⟩ := of_map_read h
    rfl

theorem isSimple_readCallOrAssign (h : readCallOrAssign ts = some (s, rest)) :
    s.isSimple = true := by
  unfold readCallOrAssign at h
  split at h
  · obtain ⟨rfl, rfl⟩ := Prod.mk.inj (Option.some.inj h)
    rfl
  · obtain ⟨rfl, rfl⟩ := Prod.mk.inj (Option.some.inj h)
    rfl
  · obtain ⟨r, -, hvalue⟩ := Option.bind_eq_some_iff.1 h
    obtain ⟨value, -, rfl⟩ := of_map_read hvalue
    rfl

theorem isSimple_readSimple (h : readSimple name ts = some (s, rest)) : s.isSimple = true := by
  unfold readSimple at h
  split at h
  · obtain ⟨value, -, rfl⟩ := of_map_read h
    rfl
  · exact isSimple_readReturning h
  · exact isSimple_readCallOrAssign h
  · cases h

/-- What a bounded reader reads is legible. Nothing is left of the line after a comment,
    and no else after a conditional that could take it. -/
structure ReadsLegible (n : Nat) : Prop where
  stmt : ∀ {line s line'}, readStmt n line = some (s, line') →
    s.legible = true ∧ (s.lastComment.isSome = true → line' = .done) ∧
      (s.endsOpen = true → takeElse? line'.code = none)
  stmts : ∀ {line ss line'}, readStmts n line = some (ss, line') → stmtsLegible ss = true

theorem isNone_of_ne_done {comment : Option String} (h : comment.isSome = true → line = .done)
    (hne : line ≠ .done) : comment.isNone = true := by
  cases comment with
  | none => rfl
  | some text => exact absurd (h rfl) hne

theorem ReadsLegible.succ_stmt (hn : ReadsLegible n) (h : readStmt (n + 1) line = some (s, line')) :
    s.legible = true ∧ (s.lastComment.isSome = true → line' = .done) ∧
      (s.endsOpen = true → takeElse? line'.code = none) := by
  rw [readStmt] at h
  split at h
  · obtain ⟨text, -, heq⟩ := Option.map_eq_some_iff.1 h
    obtain ⟨rfl, rfl⟩ := Prod.mk.inj heq
    exact ⟨rfl, fun _ => rfl, fun _ => rfl⟩
  · next ts _ =>
    obtain ⟨ss, hss, rfl⟩ := of_map_read h
    refine ⟨?_, fun hnone => ?_, fun hfalse => ?_⟩
    · rw [Stmt.legible]
      exact hn.stmts hss
    · cases hnone
    · cases hfalse
  · next name ts _ =>
    split at h
    · obtain ⟨c, -, h⟩ := Option.bind_eq_some_iff.1 h
      obtain ⟨⟨thenBody, line₁⟩, hthen, h⟩ := Option.bind_eq_some_iff.1 h
      obtain ⟨hlegible, hcomment, hopen⟩ := hn.stmt hthen
      split at h
      · next ts' helse =>
        -- an else follows, so that the branch leaves it alone and hides nothing
        obtain ⟨s, hs, rfl⟩ := of_map_read h
        have hclosed : thenBody.endsOpen = false := by
          rw [← Bool.not_eq_true]
          intro htrue
          rw [hopen htrue] at helse
          cases helse
        have hplain : thenBody.lastComment.isNone = true := by
          refine isNone_of_ne_done hcomment ?_
          rintro rfl
          cases helse
        obtain ⟨hlegible', hcomment', hopen'⟩ := hn.stmt hs
        refine ⟨?_, hcomment', hopen'⟩
        rw [Stmt.legible, hlegible, hclosed, hplain, hlegible']
        rfl
      · next helse =>
        obtain ⟨rfl, rfl⟩ := Prod.mk.inj (Option.some.inj h)
        exact ⟨hlegible, hcomment, fun _ => helse⟩
    · obtain ⟨c, -, h⟩ := Option.bind_eq_some_iff.1 h
      obtain ⟨body, hbody, rfl⟩ := of_map_read h
      obtain ⟨hlegible, hcomment, hopen⟩ := hn.stmt hbody
      exact ⟨hlegible, hcomment, hopen⟩
    · obtain ⟨⟨s, ts'⟩, hs, heq⟩ := Option.map_eq_some_iff.1 h
      obtain ⟨rfl, rfl⟩ := Prod.mk.inj heq
      obtain ⟨hlegible, hcomment, hopen⟩ := Stmt.isSimple_spec (isSimple_readSimple hs)
      refine ⟨hlegible, fun hsome => ?_, fun htrue => ?_⟩
      · rw [id_eq, hcomment] at hsome
        cases hsome
      · rw [id_eq, hopen] at htrue
        cases htrue
  · cases h

theorem readStmts_done (n : Nat) : readStmts n .done = none := by
  cases n with
  | zero => rfl
  | succ n => cases n <;> rfl

theorem ReadsLegible.succ_stmts (hn : ReadsLegible n)
    (h : readStmts (n + 1) line = some (ss, line')) : stmtsLegible ss = true := by
  rw [readStmts] at h
  split at h
  · obtain ⟨rfl, rfl⟩ := Prod.mk.inj (Option.some.inj h)
    rfl
  · obtain ⟨⟨s, line₁⟩, hs, h⟩ := Option.bind_eq_some_iff.1 h
    obtain ⟨ss, hss, rfl⟩ := of_map_read h
    obtain ⟨hlegible, hcomment, -⟩ := hn.stmt hs
    have hplain : s.lastComment.isNone = true := by
      refine isNone_of_ne_done hcomment ?_
      rintro rfl
      rw [readStmts_done] at hss
      cases hss
    rw [stmtsLegible, hlegible, hplain, hn.stmts hss]
    rfl

theorem readsLegible (n : Nat) : ReadsLegible n := by
  induction n with
  | zero => constructor <;> simp [readStmt, readStmts]
  | succ n ih => exact ⟨ih.succ_stmt, ih.succ_stmts⟩

/-- **Only legible statements are read.** -/
theorem legible_of_read (h : line.stmt? = some s) : s.legible = true := by
  rw [Line.stmt?] at h
  split at h
  · next s' hread =>
    obtain rfl := Option.some.inj h
    exact ((readsLegible _).stmt hread).1
  · cases h

end

/-! ## Parts that are read -/

/-- An expression ends where the token follows. -/
def Stops (t : Token) : Prop := ∀ rest, Apart (t :: rest) ∧ nextOp? 0 (t :: rest) = none

theorem stops_mark {m : Mark} (hm : m ∈ [Mark.closeParen, .comma, .semicolon]) :
    Stops (.mark m) := by
  intro rest
  refine ⟨fun m' hm' hhead => ?_, rfl⟩
  obtain rfl : m = m' := by simpa using hhead
  cases m <;> simp at hm hm'

theorem stops_assign : Stops (.operator "=") := fun _ => ⟨fun _ _ => by simp, rfl⟩

section
variable {n : Nat} {t : Token} {ts : List Token} {e : Expr} {items : List (List Token × Expr)}

theorem takeExpr?_append (h : Spells 0 ts e) (ht : Stops t) (rest : List Token) :
    takeExpr? (ts ++ t :: rest) = some (e, t :: rest) := by
  obtain ⟨hapart, hnext⟩ := ht rest
  refine h.readExpr_append (Nat.le_refl 0) hapart hnext ?_
  simp only [List.length_append, List.length_cons]
  omega

theorem takeExpr?_semicolon (ts : List Token) : takeExpr? (.mark .semicolon :: ts) = none := rfl

theorem takeValue?_append (h : Spells 0 ts e) (rest : List Token) :
    takeValue? (ts ++ .mark .semicolon :: rest) = some (e, rest) := by
  rw [takeValue?, takeExpr?_append h (stops_mark (by simp)), Option.bind_some]
  exact closing?_eq_some.2 ⟨rfl, rfl⟩

theorem takeCondition?_append (h : Spells 0 ts e) (rest : List Token) :
    takeCondition? (.mark .openParen :: (ts ++ .mark .closeParen :: rest)) = some (e, rest) := by
  rw [takeCondition?, takeExpr?_append h (stops_mark (by simp)), Option.bind_some]
  exact closing?_eq_some.2 ⟨rfl, rfl⟩

theorem takeList?_append (hne : items ≠ []) (h : ∀ x ∈ items, Spells 0 x.1 x.2) (ht : Stops t)
    (hcomma : t ≠ .mark .comma) (hn : (commaTokens (items.map Prod.fst)).length ≤ n)
    (rest : List Token) :
    takeList? t n (commaTokens (items.map Prod.fst) ++ t :: rest) =
      some (items.map Prod.snd, rest) := by
  induction items generalizing n with
  | nil => exact absurd rfl hne
  | cons x items ih =>
    obtain ⟨hx, hitems⟩ := List.forall_mem_cons.1 h
    have hlength := List.length_pos_of_ne_nil hx.ne_nil
    by_cases hlast : items = []
    · subst hlast
      have hone : commaTokens ([x].map Prod.fst) = x.1 := by simp [commaTokens]
      rw [hone] at hn ⊢
      obtain ⟨n, rfl⟩ := Nat.exists_eq_add_one.2 (by omega : 0 < n)
      rw [takeList?, takeExpr?_append hx ht]
      simp
    · have hcons : commaTokens ((x :: items).map Prod.fst) =
          x.1 ++ .mark .comma :: commaTokens (items.map Prod.fst) :=
        commaTokens_cons (by simpa using hlast) x.1
      rw [hcons] at hn ⊢
      simp only [List.length_append, List.length_cons] at hn
      obtain ⟨n, rfl⟩ := Nat.exists_eq_add_one.2 (by omega : 0 < n)
      have hmore := ih (n := n) hlast hitems (by omega)
      rw [List.append_assoc, List.cons_append, takeList?,
        takeExpr?_append hx (stops_mark (by simp)), Option.bind_some]
      simp [Ne.symm hcomma, hmore]

end

/-! ## Statements that are read -/

/-- **A statement is read** from tokens and from the comment behind them, whatever
    follows: nothing if there is a comment, and no else that the statement would take. -/
def ReadsStmt (ts : List Token) (comment : Option String) (s : Stmt) : Prop :=
  ∀ (n : Nat) (rest : Line), 2 * ts.length + 1 ≤ n → (comment.isSome = true → rest = .done) →
    (s.endsOpen = true → takeElse? rest.code = none) →
    readStmt n ⟨ts ++ rest.code, comment.or rest.comment⟩ = some (s, rest)

/-- The tokens begin like a statement: neither with a closing brace nor with an else. -/
def Begins (ts : List Token) : Prop :=
  ∃ t ts', ts = t :: ts' ∧ t ≠ .mark .closeBrace ∧ t ≠ .name Keyword.alternative.word

section
variable {ts ts' cs : List Token} {name : String} {comment : Option String} {s s' : Stmt}
  {c e : Expr} {items : List (List Token × Expr)}

theorem Begins.takeElse? (h : Begins ts) (rest : List Token) : takeElse? (ts ++ rest) = none := by
  obtain ⟨t, ts, rfl, -, helse⟩ := h
  rw [List.cons_append]
  unfold Program.takeElse?
  split
  · next name ts' heq =>
    obtain ⟨rfl, -⟩ := List.cons.inj heq
    exact if_neg fun hname => helse (congrArg Token.name hname)
  · rfl

theorem begins_name (h : name ≠ Keyword.alternative.word) : Begins (.name name :: ts) :=
  ⟨_, _, rfl, by simp, by simpa using h⟩

theorem readsStmt_comment (text : String) : ReadsStmt [] (some text) (.comment text) := by
  intro n rest hn hrest _
  obtain ⟨n, rfl⟩ := Nat.exists_eq_add_one.2 (by omega : 0 < n)
  obtain rfl := hrest rfl
  rfl

/-! ### Simple statements -/

theorem readsStmt_simple (h : ∀ rest, readSimple name (ts ++ rest) = some (s, rest)) :
    ReadsStmt (.name name :: ts) none s := by
  intro n rest hn _ _
  obtain ⟨n, rfl⟩ := Nat.exists_eq_add_one.2 (by omega : 0 < n)
  have hsimple := h rest.code
  have hkeyword : Keyword.ofName? name ≠ some .conditional ∧
      Keyword.ofName? name ≠ some .loop := by
    constructor <;> intro hname <;> simp [readSimple, hname] at hsimple
  rw [List.cons_append, readStmt]
  simp only
  split
  · next hname => exact absurd hname hkeyword.1
  · next hname => exact absurd hname hkeyword.2
  · rw [hsimple]
    rfl

theorem readsStmt_reply (h : Spells 0 ts e) :
    ReadsStmt (.name Keyword.reply.word :: (ts ++ [.mark .semicolon])) none (.reply e) := by
  refine readsStmt_simple fun rest => ?_
  rw [readSimple, Keyword.ofName?_word, List.append_assoc, List.singleton_append]
  simp only [takeValue?_append h]
  rfl

theorem readsStmt_returning_nil :
    ReadsStmt [.name Keyword.returning.word, .mark .semicolon] none (.returning []) :=
  readsStmt_simple fun _ => rfl

theorem readsStmt_returning (hne : items ≠ []) (h : ∀ x ∈ items, Spells 0 x.1 x.2) :
    ReadsStmt (.name Keyword.returning.word :: (commaTokens (items.map Prod.fst) ++
      [.mark .semicolon])) none (.returning (items.map Prod.snd)) := by
  refine readsStmt_simple fun rest => ?_
  have hlist := takeList?_append hne h (stops_mark (m := .semicolon) (by simp)) (by simp)
    (n := (commaTokens (items.map Prod.fst) ++ .mark .semicolon :: rest).length)
    (by simp) rest
  rw [readSimple, Keyword.ofName?_word, List.append_assoc, List.singleton_append]
  simp only
  unfold readReturning
  split
  · next ts heq =>
    rw [heq, List.length_cons, takeList?, takeExpr?_semicolon] at hlist
    cases hlist
  · rw [hlist]
    rfl

/-- The name with which an expression begins, if it is a call or can be assigned to. -/
def Expr.firstName? : Expr → Option String
  | .functionCall name package _ => some (package.getD name)
  | .actionCall _ connector package _ => some (package.getD connector)
  | .variable name => some name
  | .access name _ => some name
  | _ => none

theorem Spells.firstName {p : Nat} (h : Spells p ts e) (hname : e.firstName? = some name) :
    ∃ ts', ts = .name name :: ts' := by
  cases h with
  | reference =>
    obtain rfl := Option.some.inj hname
    exact ⟨_, rfl⟩
  | access =>
    obtain rfl := Option.some.inj hname
    exact ⟨_, rfl⟩
  | call f =>
    rcases f with ⟨_ | p, n⟩ | ⟨_ | p, c, n⟩
    all_goals
      obtain rfl := Option.some.inj hname
      exact ⟨_, rfl⟩
  | _ => cases hname

/-- The statement that makes a call. -/
def Callee.stmt : Callee → List Expr → Stmt
  | function package name, args => .functionCall name package args
  | action package connector name, args => .actionCall name connector package args

theorem readsStmt_of_name (hts : ts = .name name :: ts') (hkeyword : Keyword.ofName? name = none)
    (h : ∀ rest, readCallOrAssign (ts ++ rest) = some (s, rest)) : ReadsStmt ts none s := by
  subst hts
  refine readsStmt_simple fun rest => ?_
  rw [readSimple, hkeyword]
  exact h rest

theorem readsStmt_call (f : Callee) {args : List Expr} (h : Spells 0 ts (f.call args))
    (hname : (f.call args).firstName? = some name) (hkeyword : Keyword.ofName? name = none) :
    ReadsStmt (ts ++ [.mark .semicolon]) none (f.stmt args) := by
  obtain ⟨ts', hts⟩ := h.firstName hname
  refine readsStmt_of_name (by rw [hts, List.cons_append]) hkeyword fun rest => ?_
  rw [List.append_assoc, List.singleton_append, readCallOrAssign, takeValue?_append h]
  cases f <;> rfl

/-- The first of several expressions has a comma behind it or, if it is the only one,
    what follows them all. -/
theorem commaTokens_first (x : List Token × Expr) (items : List (List Token × Expr)) (t : Token)
    (rest : List Token) :
    ∃ t' rest', commaTokens ((x :: items).map Prod.fst) ++ t :: rest = x.1 ++ t' :: rest' ∧
      (t' = t ∨ t' = .mark .comma) := by
  cases items with
  | nil => exact ⟨t, rest, by simp [commaTokens], .inl rfl⟩
  | cons y items =>
    refine ⟨.mark .comma, commaTokens ((y :: items).map Prod.fst) ++ t :: rest, ?_, .inr rfl⟩
    rw [List.map_cons, commaTokens_cons (by simp), List.append_assoc, List.cons_append]

theorem readsStmt_assign {x : List Token × Expr} (h : ∀ y ∈ x :: items, Spells 0 y.1 y.2)
    (hname : x.2.firstName? = some name) (hkeyword : Keyword.ofName? name = none)
    (hvalue : Spells 0 ts e) :
    ReadsStmt (commaTokens ((x :: items).map Prod.fst) ++ .operator "=" ::
      (ts ++ [.mark .semicolon])) none (.assign ((x :: items).map Prod.snd) e) := by
  have hx := h x List.mem_cons_self
  obtain ⟨ts', hts'⟩ := hx.firstName hname
  obtain ⟨t, rest, hfirst, -⟩ := commaTokens_first x items (.operator "=")
    (ts ++ [.mark .semicolon])
  refine readsStmt_of_name (by rw [hfirst, hts', List.cons_append]) hkeyword fun rest => ?_
  rw [List.append_assoc, List.cons_append, List.append_assoc, List.singleton_append]
  -- the first target is no statement of its own, because no semicolon follows it
  obtain ⟨t, rest₁, hfirst, ht⟩ := commaTokens_first x items (.operator "=")
    (ts ++ .mark .semicolon :: rest)
  have hstops : Stops t ∧ closing? .semicolon (x.2, t :: rest₁) = none := by
    rcases ht with rfl | rfl
    · exact ⟨stops_assign, rfl⟩
    · exact ⟨stops_mark (by simp), rfl⟩
  have hnone : takeValue? (x.1 ++ t :: rest₁) = none := by
    rw [takeValue?, takeExpr?_append hx hstops.1, Option.bind_some, hstops.2]
  have hlist := takeList?_append (by simp) h stops_assign (by simp)
    (n := (commaTokens ((x :: items).map Prod.fst) ++ .operator "=" ::
      (ts ++ .mark .semicolon :: rest)).length) (by simp) (ts ++ .mark .semicolon :: rest)
  rw [readCallOrAssign, hfirst, hnone, ← hfirst]
  simp only [readAssign, hlist, Option.bind_some, takeValue?_append hvalue]
  rfl

/-! ### Blocks -/

theorem readStmts_append {items : List (List Token × Stmt)}
    (h : ∀ x ∈ items, ReadsStmt x.1 none x.2 ∧ Begins x.1) {n : Nat} (rest : Line)
    (hn : 2 * (items.flatMap Prod.fst).length + 2 ≤ n) :
    readStmts n ⟨items.flatMap Prod.fst ++ .mark .closeBrace :: rest.code, rest.comment⟩ =
      some (items.map Prod.snd, rest) := by
  induction items generalizing n with
  | nil =>
    obtain ⟨n, rfl⟩ := Nat.exists_eq_add_one.2 (by omega : 0 < n)
    rfl
  | cons x items ih =>
    obtain ⟨⟨hx, hbegins⟩, hitems⟩ := List.forall_mem_cons.1 h
    rw [List.flatMap_cons] at hn ⊢
    simp only [List.length_append] at hn
    obtain ⟨n, rfl⟩ := Nat.exists_eq_add_one.2 (by omega : 0 < n)
    have hlength : 0 < x.1.length := by
      obtain ⟨t, ts, hts, -⟩ := hbegins
      simp [hts]
    have helse : takeElse? (items.flatMap Prod.fst ++ .mark .closeBrace :: rest.code) = none := by
      cases items with
      | nil => rfl
      | cons y items =>
        rw [List.flatMap_cons, List.append_assoc]
        exact (hitems y List.mem_cons_self).2.takeElse? _
    have hstmt := hx n ⟨items.flatMap Prod.fst ++ .mark .closeBrace :: rest.code, rest.comment⟩
      (by omega) (fun hsome => by cases hsome) fun _ => helse
    have hmore := ih (n := n) hitems (by omega)
    rw [Option.none_or] at hstmt
    rw [readStmts, List.append_assoc]
    simp only
    split
    · next ts hts =>
      obtain ⟨t, ts', hbegin, hbrace, -⟩ := hbegins
      rw [hbegin, List.cons_append] at hts
      exact absurd (List.cons.inj hts).1 hbrace
    · rw [hstmt, Option.bind_some, hmore]
      rfl

theorem readsStmt_block {items : List (List Token × Stmt)}
    (h : ∀ x ∈ items, ReadsStmt x.1 none x.2 ∧ Begins x.1) :
    ReadsStmt (.mark .openBrace :: (items.flatMap Prod.fst ++ [.mark .closeBrace])) none
      (.block (items.map Prod.snd)) := by
  intro n rest hn _ _
  simp only [List.length_cons, List.length_append] at hn
  obtain ⟨n, rfl⟩ := Nat.exists_eq_add_one.2 (by omega : 0 < n)
  have hstmts := readStmts_append h (n := n) rest (by omega)
  rw [List.cons_append, List.append_assoc, List.singleton_append, readStmt]
  simp only [Option.none_or, hstmts]
  rfl

/-! ### Conditionals and loops -/

/-- The tokens of a keyword and a condition in front of a statement. -/
def headTokens (k : Keyword) (cs ts : List Token) : List Token :=
  .name k.word :: .mark .openParen :: (cs ++ .mark .closeParen :: ts)

theorem readsStmt_ifThen (hc : Spells 0 cs c) (h : ReadsStmt ts comment s) :
    ReadsStmt (headTokens .conditional cs ts) comment (.ifElse c s none) := by
  intro n rest hn hrest helse
  simp only [headTokens, List.length_cons, List.length_append] at hn
  obtain ⟨n, rfl⟩ := Nat.exists_eq_add_one.2 (by omega : 0 < n)
  have hnone := helse rfl
  have hstmt := h n rest (by omega) hrest fun _ => hnone
  simp only [headTokens, List.cons_append, List.append_assoc]
  rw [readStmt]
  simp only [Keyword.ofName?_word, takeCondition?_append hc, Option.bind_some, hstmt, hnone]

theorem readsStmt_ifElse (hc : Spells 0 cs c) (h : ReadsStmt ts none s)
    (hclosed : s.endsOpen = false) (h' : ReadsStmt ts' comment s') :
    ReadsStmt (headTokens .conditional cs (ts ++ .name Keyword.alternative.word :: ts')) comment
      (.ifElse c s (some s')) := by
  intro n rest hn hrest helse
  simp only [headTokens, List.length_cons, List.length_append] at hn
  obtain ⟨n, rfl⟩ := Nat.exists_eq_add_one.2 (by omega : 0 < n)
  have hthen := h n
    ⟨.name Keyword.alternative.word :: (ts' ++ rest.code), comment.or rest.comment⟩ (by omega)
    (fun hsome => by cases hsome) (fun htrue => by simp [hclosed] at htrue)
  have helse := h' n rest (by omega) hrest helse
  simp only [headTokens, List.cons_append, List.append_assoc]
  rw [readStmt]
  rw [Option.none_or] at hthen
  simp only [Keyword.ofName?_word, takeCondition?_append hc, Option.bind_some, hthen]
  simp [Program.takeElse?, helse]

theorem readsStmt_loop (hc : Spells 0 cs c) (h : ReadsStmt ts comment s) :
    ReadsStmt (headTokens .loop cs ts) comment (.whileLoop c (some s)) := by
  intro n rest hn hrest helse
  simp only [headTokens, List.length_cons, List.length_append] at hn
  obtain ⟨n, rfl⟩ := Nat.exists_eq_add_one.2 (by omega : 0 < n)
  have hstmt := h n rest (by omega) hrest helse
  simp only [headTokens, List.cons_append, List.append_assoc]
  rw [readStmt]
  simp only [Keyword.ofName?_word, takeCondition?_append hc, Option.bind_some, hstmt]
  rfl

end

end TreeDoc.Program
