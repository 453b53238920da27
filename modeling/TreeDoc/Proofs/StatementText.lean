/-
  Statements read back from their source text.

  * `Stmt.read?`: the statement that a line of text spells;
  * `Stmt.Plain`: statements over plain expressions, whose comments are comments to the
    end of a line;
  * `Stmt.filled`: the statement in which a missing body of a loop is an empty block, as
    it is written;
  * `Stmt.Written`: the text of a statement is code, from which the statement is read,
    and the comment behind it. Legible plain statements are (`Plain.written`);
  * `read_back_iff_legible`: plain statements are read back if and only if they are
    legible;
  * `braced_reads_back`: those without comments whose bodies are blocks always are.
-/
import TreeDoc.Proofs.Grouping
import TreeDoc.Proofs.StatementReader
import TreeDoc.Proofs.Texts

namespace TreeDoc.Program

/-- The code of a line of text, and the comment behind it. -/
def Line.ofText? (s : String) : Option Line :=
  let parts := splitComment .code s.toList
  (lex parts.1).map (⟨·, parts.2.map String.ofList⟩)

/-- The statement that a line of text spells. -/
def Stmt.read? (s : String) : Option Stmt := (Line.ofText? s).bind Line.stmt?

/-- The expression begins with a name that is no keyword. -/
def Expr.beginsFree (e : Expr) : Bool :=
  e.firstName?.any fun name => (Keyword.ofName? name).isNone

/-- **Plain statements**: their expressions are plain, their comments begin with two
    slashes and end with the line, and calls and assignments do not begin with a
    keyword. -/
inductive Stmt.Plain : Stmt → Prop
  | block {statements : List Stmt} : (∀ s ∈ statements, Plain s) → Plain (.block statements)
  | assign {lhs : List Expr} {rhs : Expr} : (∀ e ∈ lhs, e.Plain) →
      lhs.head?.any Expr.beginsFree = true → rhs.Plain → Plain (.assign lhs rhs)
  | comment {text : String} : text.toList.take 2 = ['/', '/'] → '\n' ∉ text.toList →
      '\r' ∉ text.toList → Plain (.comment text)
  | ifElse {condition : Expr} {thenBody : Stmt} {elseBody : Option Stmt} : condition.Plain →
      Plain thenBody → (∀ s ∈ elseBody, Plain s) → Plain (.ifElse condition thenBody elseBody)
  | whileLoop {condition : Expr} {body : Option Stmt} : condition.Plain → (∀ s ∈ body, Plain s) →
      Plain (.whileLoop condition body)
  | functionCall {name : String} {package : Option String} {args : List Expr} :
      (Expr.functionCall name package args).Plain →
      (Expr.functionCall name package args).beginsFree = true →
      Plain (.functionCall name package args)
  | actionCall {name connector : String} {package : Option String} {args : List Expr} :
      (Expr.actionCall name connector package args).Plain →
      (Expr.actionCall name connector package args).beginsFree = true →
      Plain (.actionCall name connector package args)
  | reply {value : Expr} : value.Plain → Plain (.reply value)
  | returning {values : List Expr} : (∀ e ∈ values, e.Plain) → Plain (.returning values)

mutual

/-- The statement with an empty block for every missing body of a loop. -/
def Stmt.filled : Stmt → Stmt
  | .block statements => .block (filledEach statements)
  | .ifElse condition thenBody none => .ifElse condition thenBody.filled none
  | .ifElse condition thenBody (some s) => .ifElse condition thenBody.filled (some s.filled)
  | .whileLoop condition none => .whileLoop condition (some (.block []))
  | .whileLoop condition (some s) => .whileLoop condition (some s.filled)
  | s => s

/-- Statements with an empty block for every missing body of a loop. -/
def filledEach : List Stmt → List Stmt
  | [] => []
  | s :: ss => s.filled :: filledEach ss

end

theorem endsOpen_filled : ∀ s : Stmt, s.filled.endsOpen = s.endsOpen
  | .ifElse _ _ none => rfl
  | .ifElse _ _ (some s) => endsOpen_filled s
  | .whileLoop _ none => rfl
  | .whileLoop _ (some s) => endsOpen_filled s
  | .block _ | .assign _ _ | .comment _ | .functionCall _ _ _ | .actionCall _ _ _ _ | .reply _
  | .returning _ => rfl

theorem lastComment_filled : ∀ s : Stmt, s.filled.lastComment = s.lastComment
  | .ifElse _ thenBody none => lastComment_filled thenBody
  | .ifElse _ _ (some s) => lastComment_filled s
  | .whileLoop _ none => rfl
  | .whileLoop _ (some s) => lastComment_filled s
  | .block _ | .assign _ _ | .comment _ | .functionCall _ _ _ | .actionCall _ _ _ _ | .reply _
  | .returning _ => rfl

mutual

theorem legible_filled : ∀ s : Stmt, s.filled.legible = s.legible
  | .block statements => legible_filledEach statements
  | .ifElse _ thenBody none => legible_filled thenBody
  | .ifElse _ thenBody (some s) => by
    rw [Stmt.filled, Stmt.legible, Stmt.legible, legible_filled thenBody,
      endsOpen_filled thenBody, lastComment_filled thenBody, legible_filled s]
  | .whileLoop _ none => rfl
  | .whileLoop _ (some s) => legible_filled s
  | .assign _ _ | .comment _ | .functionCall _ _ _ | .actionCall _ _ _ _ | .reply _
  | .returning _ => rfl

theorem legible_filledEach : ∀ ss : List Stmt, stmtsLegible (filledEach ss) = stmtsLegible ss
  | [] => rfl
  | s :: ss => by
    rw [filledEach, stmtsLegible, stmtsLegible, legible_filled s, lastComment_filled s,
      legible_filledEach ss]

end

/-! ## Code without comments -/

/-- The text is read as the tokens, and no comment begins in it, whatever follows. -/
structure Coded (cs : List Char) (ts : List Token) : Prop where
  lexes : Lexes cs ts
  silent : Silent cs

section
variable {cs cs' : List Char} {ts ts' : List Token} {e : Expr} {args : List Expr}

theorem coded_nil : Coded [] [] := ⟨.nil, silent_nil⟩

theorem Coded.append (h : Coded cs ts) (hends : Ends cs') (h' : Coded cs' ts') :
    Coded (cs ++ cs') (ts ++ ts') :=
  ⟨h.lexes.append hends h'.lexes, h.silent.append h'.silent⟩

theorem Coded.mark_cons (m : Mark) (h : Coded cs ts) : Coded (m.char :: cs) (.mark m :: ts) :=
  ⟨h.lexes.mark_cons m, h.silent.cons (by cases m <;> decide)⟩

theorem Coded.blank_cons (h : Coded cs ts) : Coded (' ' :: cs) ts :=
  ⟨h.lexes.blank_cons, h.silent.cons (by decide)⟩

theorem Coded.assign_append (h : Coded cs ts) :
    Coded (' ' :: '=' :: ' ' :: cs) (.operator "=" :: ts) := by
  have hassign : "=" ∈ operators := by decide
  refine ⟨h.lexes.spaced_append hassign, ?_⟩
  exact ((h.silent.cons (by decide)).cons (by decide)).cons (by decide)

theorem coded_keyword (k : Keyword) : Coded k.word.toList [.name k.word] where
  lexes := .name (by cases k <;> decide)
  silent := silent_of_not_mem (by cases k <;> decide) (by cases k <;> decide)

theorem Coded.semicolon (h : Coded cs ts) : Coded (cs ++ [';']) (ts ++ [.mark .semicolon]) :=
  h.append (Mark.ends .semicolon []) (coded_nil.mark_cons .semicolon)

theorem Expr.Plain.coded (h : e.Plain) : ∃ ts, Coded e.source.toList ts ∧ Spells 0 ts e := by
  obtain ⟨ts, hlexes, hspells⟩ := h.spelled
  exact ⟨ts, ⟨hlexes, h.silent⟩, hspells.mono (Nat.zero_le _)⟩

theorem coded_items (h : ∀ e ∈ args, e.Plain) :
    ∃ items : List (List Token × Expr), (∀ x ∈ items, Spells 0 x.1 x.2) ∧
      items.map Prod.snd = args ∧
      Coded (commaSeparated (sources args)).toList (commaTokens (items.map Prod.fst)) := by
  obtain ⟨ts, hlexes, items, hitems, rfl, hargs⟩ :=
    spelled_items fun e he => (h e he).spelled.mono (Nat.zero_le _)
  have hsilent := silent_textOf (measured_items fun e he => (h e he).measured).silent
  rw [textOf_intercalate, textOf_piecesEach] at hsilent
  exact ⟨items, hitems, hargs, hlexes, hsilent⟩

end

/-! ## Texts of statements -/

/-- **The text of a statement is code and a comment behind it**, and the statement is
    read from the tokens of the code and from the comment. -/
def Stmt.Written (s : Stmt) : Prop :=
  ∃ code ts, s.source.toList = code ++ (s.lastComment.map String.toList).getD [] ∧
    Coded code ts ∧ ReadsStmt ts s.lastComment s.filled ∧ (s.lastComment = none → Begins ts)

section
variable {s s' : Stmt} {ss : List Stmt} {ts : List Token} {c e : Expr}

theorem filled_of_isSimple (h : s.isSimple = true) : s.filled = s := by
  cases s with
  | block _ => cases h
  | ifElse _ _ _ => cases h
  | whileLoop _ _ => cases h
  | _ => rfl

theorem written_simple (hsimple : s.isSimple = true) (hcoded : Coded s.source.toList ts)
    (hreads : ReadsStmt ts none s) (hbegins : Begins ts) : s.Written := by
  have hcomment := (Stmt.isSimple_spec hsimple).2.1
  refine ⟨s.source.toList, ts, ?_, hcoded, ?_, fun _ => hbegins⟩
  · simp [hcomment]
  · rwa [hcomment, filled_of_isSimple hsimple]

theorem exists_firstName (h : e.beginsFree = true) :
    ∃ name, e.firstName? = some name ∧ Keyword.ofName? name = none := by
  simpa [Expr.beginsFree, Option.any_eq_true] using h

/-- A name that is no keyword is no else. -/
theorem begins_free {name : String} (h : Keyword.ofName? name = none) :
    Begins (.name name :: ts) := by
  refine begins_name ?_
  rintro rfl
  cases h

theorem source_stmt (f : Callee) (args : List Expr) :
    (f.stmt args).source = (f.call args).source ++ ";" := by
  cases f with
  | function package name => rw [Callee.stmt, Callee.call, Stmt.source]
  | action package connector name => rw [Callee.stmt, Callee.call, Stmt.source]

theorem written_call (f : Callee) {args : List Expr} (h : (f.call args).Plain)
    (hfree : (f.call args).beginsFree = true) : (f.stmt args).Written := by
  obtain ⟨ts, hcoded, hspells⟩ := h.coded
  obtain ⟨name, hname, hkeyword⟩ := exists_firstName hfree
  refine written_simple (by cases f <;> rfl) ?_ (readsStmt_call f hspells hname hkeyword) ?_
  · rw [source_stmt, String.toList_append]
    exact hcoded.semicolon
  · obtain ⟨ts', rfl⟩ := hspells.firstName hname
    exact begins_free hkeyword

theorem written_assign {lhs : List Expr} (h : ∀ e ∈ lhs, e.Plain)
    (hfree : lhs.head?.any Expr.beginsFree = true) (he : e.Plain) :
    (Stmt.assign lhs e).Written := by
  obtain ⟨items, hitems, rfl, hcoded⟩ := coded_items h
  obtain ⟨ts, hvalue, hspells⟩ := he.coded
  cases items with
  | nil => cases hfree
  | cons x items =>
    have hx := hitems x List.mem_cons_self
    obtain ⟨name, hname, hkeyword⟩ : ∃ name, x.2.firstName? = some name ∧ _ :=
      exists_firstName (by simpa using hfree)
    refine written_simple rfl ?_ (readsStmt_assign hitems hname hkeyword hspells) ?_
    · have hboth := hcoded.append (ends_blank _) hvalue.semicolon.assign_append
      simpa [Stmt.source] using hboth
    · obtain ⟨ts', hts'⟩ := hx.firstName hname
      obtain ⟨t, rest, hfirst, -⟩ := commaTokens_first x items (.operator "=")
        (ts ++ [.mark .semicolon])
      rw [hfirst, hts', List.cons_append]
      exact begins_free hkeyword

theorem written_reply (h : e.Plain) : (Stmt.reply e).Written := by
  obtain ⟨ts, hcoded, hspells⟩ := h.coded
  refine written_simple rfl ?_ (readsStmt_reply hspells) (begins_name (by decide))
  have hboth := (coded_keyword .reply).append (ends_blank _) hcoded.semicolon.blank_cons
  simpa [Stmt.source, Keyword.word] using hboth

theorem written_returning {values : List Expr} (h : ∀ e ∈ values, e.Plain) :
    (Stmt.returning values).Written := by
  cases values with
  | nil =>
    refine written_simple rfl ?_ readsStmt_returning_nil (begins_name (by decide))
    exact (coded_keyword .returning).semicolon
  | cons e values =>
    obtain ⟨items, hitems, hvalues, hcoded⟩ := coded_items h
    have hne : items ≠ [] := by
      rintro rfl
      cases hvalues
    have hreads := readsStmt_returning hne hitems
    rw [hvalues] at hreads
    refine written_simple rfl ?_ hreads (begins_name (by decide))
    have hboth := (coded_keyword .returning).append (ends_blank _) hcoded.semicolon.blank_cons
    simpa [Stmt.source, Keyword.word] using hboth

theorem written_comment (text : String) : (Stmt.comment text).Written :=
  ⟨[], [], rfl, coded_nil, readsStmt_comment text, fun hnone => by cases hnone⟩

/-! ### Blocks -/

theorem coded_stmts (h : ∀ s ∈ ss, s.Written) (hlegible : stmtsLegible ss = true) :
    ∃ items : List (List Token × Stmt), (∀ x ∈ items, ReadsStmt x.1 none x.2 ∧ Begins x.1) ∧
      items.map Prod.snd = filledEach ss ∧
      Coded (String.join (stmtSources ss)).toList (items.flatMap Prod.fst) := by
  induction ss with
  | nil => exact ⟨[], by simp, rfl, coded_nil⟩
  | cons s ss ih =>
    obtain ⟨⟨code, ts, htext, hcoded, hreads, hbegins⟩, hss⟩ := List.forall_mem_cons.1 h
    rw [stmtsLegible, Bool.and_eq_true, Bool.and_eq_true, Option.isNone_iff_eq_none] at hlegible
    obtain ⟨⟨-, hcomment⟩, hlegible⟩ := hlegible
    obtain ⟨items, hitems, hfilled, hrest⟩ := ih hss hlegible
    rw [hcomment] at htext hreads
    refine ⟨(ts, s.filled) :: items,
      List.forall_mem_cons.2 ⟨⟨hreads, hbegins hcomment⟩, hitems⟩, ?_, ?_⟩
    · rw [List.map_cons, hfilled, filledEach]
    · have hboth := hcoded.append (ends_blank _) hrest.blank_cons
      simpa [stmtSources, htext] using hboth

theorem written_block (h : ∀ s ∈ ss, s.Written) (hlegible : stmtsLegible ss = true) :
    (Stmt.block ss).Written := by
  obtain ⟨items, hitems, hfilled, hcoded⟩ := coded_stmts h hlegible
  have hreads := readsStmt_block hitems
  rw [hfilled] at hreads
  have hbrace : Coded ['\x7d'] [.mark .closeBrace] := coded_nil.mark_cons .closeBrace
  have hbody := hcoded.append (Mark.ends .closeBrace []) hbrace
  refine ⟨(Stmt.block ss).source.toList, _, by simp [Stmt.lastComment], ?_, hreads, fun _ => ?_⟩
  · cases ss with
    | nil => simpa [Stmt.source, stmtSources, Mark.char] using hbody.mark_cons .openBrace
    | cons s ss =>
      have hblock := hbody.blank_cons.mark_cons .openBrace
      simpa [Stmt.source, Mark.char] using hblock
  · exact ⟨_, _, rfl, by simp, by simp⟩

/-! ### Conditionals and loops -/

theorem coded_head {cs code : List Char} {ts ts' : List Token} (k : Keyword) (h : Coded cs ts)
    (h' : Coded code ts') :
    Coded (k.word.toList ++ ' ' :: '(' :: (cs ++ ')' :: ' ' :: code)) (headTokens k ts ts') :=
  (coded_keyword k).append (ends_blank _) (((h.append (Mark.ends .closeParen _)
    (h'.blank_cons.mark_cons .closeParen)).mark_cons .openParen).blank_cons)

theorem written_ifThen (hc : c.Plain) (h : s.Written) : (Stmt.ifElse c s none).Written := by
  obtain ⟨cs, hcondition, hspells⟩ := hc.coded
  obtain ⟨code, ts, htext, hcoded, hreads, -⟩ := h
  refine ⟨_, _, ?_, coded_head .conditional hcondition hcoded, readsStmt_ifThen hspells hreads,
    fun _ => begins_name (by decide)⟩
  simp [Stmt.source, elseSource, htext, Keyword.word, Stmt.lastComment]

theorem written_ifElse (hc : c.Plain) (h : s.Written) (hcomment : s.lastComment = none)
    (hclosed : s.endsOpen = false) (h' : s'.Written) : (Stmt.ifElse c s (some s')).Written := by
  obtain ⟨cs, hcondition, hspells⟩ := hc.coded
  obtain ⟨code, ts, htext, hcoded, hreads, -⟩ := h
  obtain ⟨code', ts', htext', hcoded', hreads', -⟩ := h'
  rw [hcomment] at htext hreads
  have helse := (coded_keyword .alternative).append (ends_blank _) hcoded'.blank_cons
  have hbranches := hcoded.append (ends_blank _) helse.blank_cons
  have hopen : s.filled.endsOpen = false := by rw [endsOpen_filled, hclosed]
  refine ⟨_, _, ?_, coded_head .conditional hcondition hbranches,
    readsStmt_ifElse hspells hreads hopen hreads', fun _ => begins_name (by decide)⟩
  simp [Stmt.source, elseSource, htext, htext', Keyword.word, Stmt.lastComment]

theorem written_loop (hc : c.Plain) (h : s.Written) : (Stmt.whileLoop c (some s)).Written := by
  obtain ⟨cs, hcondition, hspells⟩ := hc.coded
  obtain ⟨code, ts, htext, hcoded, hreads, -⟩ := h
  refine ⟨_, _, ?_, coded_head .loop hcondition hcoded, readsStmt_loop hspells hreads,
    fun _ => begins_name (by decide)⟩
  simp [Stmt.source, bodySource, htext, Keyword.word, Stmt.lastComment]

/-- A loop without a body is written like one with an empty block. -/
theorem written_loop_none (hc : c.Plain) : (Stmt.whileLoop c none).Written := by
  have hblock : (Stmt.block []).Written := written_block (by simp) rfl
  obtain ⟨code, ts, htext, hcoded, hreads, hbegins⟩ := written_loop hc hblock
  have hsource : (Stmt.whileLoop c none).source =
      (Stmt.whileLoop c (some (.block []))).source := by
    simp [Stmt.source, bodySource]
  exact ⟨code, ts, by rw [hsource, htext]; rfl, hcoded, hreads, hbegins⟩

theorem stmtsLegible_iff : stmtsLegible ss = true ↔
    ∀ s ∈ ss, s.legible = true ∧ s.lastComment = none := by
  induction ss with
  | nil => simp [stmtsLegible]
  | cons s ss ih => simp [stmtsLegible, ih]

/-- **The text of a legible plain statement is written so that it can be read.** -/
theorem Stmt.Plain.written (h : s.Plain) (hlegible : s.legible = true) : s.Written := by
  induction h with
  | block _ ih =>
    rw [Stmt.legible] at hlegible
    refine written_block (fun s hs => ih s hs ?_) hlegible
    exact (stmtsLegible_iff.1 hlegible s hs).1
  | assign hlhs hfree hrhs => exact written_assign hlhs hfree hrhs
  | @comment text => exact written_comment text
  | @ifElse c s o hc _ _ ih iho =>
    cases o with
    | none => exact written_ifThen hc (ih hlegible)
    | some s' =>
      simp only [Stmt.legible, Bool.and_eq_true, Bool.not_eq_true', Option.isNone_iff_eq_none]
        at hlegible
      obtain ⟨⟨⟨hthen, hclosed⟩, hcomment⟩, helse⟩ := hlegible
      exact written_ifElse hc (ih hthen) hcomment hclosed (iho s' rfl helse)
  | @whileLoop c o hc _ ih =>
    cases o with
    | none => exact written_loop_none hc
    | some s => exact written_loop hc (ih s rfl hlegible)
  | @functionCall name package args h hfree =>
    exact written_call (.function package name) h hfree
  | @actionCall name connector package args h hfree =>
    exact written_call (.action package connector name) h hfree
  | reply h => exact written_reply h
  | returning h => exact written_returning h

theorem Stmt.Plain.slashes (h : s.Plain) :
    ∀ text ∈ s.lastComment, text.toList.take 2 = ['/', '/'] := by
  induction h with
  | @comment text hslashes =>
    intro text' htext'
    obtain rfl := Option.some.inj htext'
    exact hslashes
  | @ifElse c s o _ _ _ ih iho =>
    cases o with
    | none => exact ih
    | some s' => exact iho s' rfl
  | @whileLoop c o _ _ ih =>
    cases o with
    | none => simp [Stmt.lastComment]
    | some s => exact ih s rfl
  | _ => simp [Stmt.lastComment]

theorem Lexes.lex_eq {cs : List Char} (h : Lexes cs ts) : lex cs = some ts := by
  have hlex : lex (cs ++ []) = (lex []).map (ts ++ ·) := h.reads (by simp [Ends])
  rwa [List.append_nil, lex, Option.map_some, List.append_nil] at hlex

theorem Stmt.Written.ofText? (h : s.Written)
    (hslashes : ∀ text ∈ s.lastComment, text.toList.take 2 = ['/', '/']) :
    ∃ ts, Line.ofText? s.source = some ⟨ts, s.lastComment⟩ ∧
      ReadsStmt ts s.lastComment s.filled := by
  obtain ⟨code, ts, htext, hcoded, hreads, -⟩ := h
  refine ⟨ts, ?_, hreads⟩
  cases hcomment : s.lastComment with
  | none =>
    rw [hcomment, Option.map_none, Option.getD_none, List.append_nil] at htext
    simp [Line.ofText?, htext, hcoded.silent.split, hcoded.lexes.lex_eq]
  | some text =>
    obtain ⟨ds, hds⟩ : ∃ ds, text.toList = '/' :: '/' :: ds := by
      rw [← List.take_append_drop 2 text.toList, hslashes text hcomment]
      exact ⟨_, rfl⟩
    rw [hcomment, Option.map_some, Option.getD_some, hds] at htext
    have htext' : String.ofList ('/' :: '/' :: ds) = text := by rw [← hds, String.ofList_toList]
    simp [Line.ofText?, htext, hcoded.silent.split_comment, hcoded.lexes.lex_eq, htext']

theorem Stmt.Plain.read_source (h : s.Plain) (hlegible : s.legible = true) :
    Stmt.read? s.source = some s.filled := by
  obtain ⟨ts, hline, hreads⟩ := (h.written hlegible).ofText? h.slashes
  have hstmt := hreads (2 * ts.length + 1) .done (Nat.le_refl _) (fun _ => rfl) fun _ => rfl
  rw [Line.done, List.append_nil, Option.or_none] at hstmt
  rw [Stmt.read?, hline, Option.bind_some, Line.stmt?, hstmt]

end

/-- **Plain statements are read back if and only if they are legible.** The reader gives
    an else to the nearest conditional that has none, and ends a comment with the line.
    So a statement is not read back if an else stands behind a branch that could take
    it, or if anything stands behind a comment: then an else has another owner, or
    statements and braces are hidden. Legible statements with the same text are the
    same. -/
theorem read_back_iff_legible {s : Stmt} (h : s.Plain) :
    (Stmt.read? s.source = some s.filled ↔ s.legible = true) ∧
    ∀ s' : Stmt, s'.Plain → s.legible = true → s'.legible = true → s.source = s'.source →
      s.filled = s'.filled := by
  refine ⟨⟨fun hread => ?_, h.read_source⟩, fun s' h' hlegible hlegible' hsource => ?_⟩
  · obtain ⟨line, -, hstmt⟩ := Option.bind_eq_some_iff.1 hread
    rw [← legible_filled]
    exact legible_of_read hstmt
  · have hread := h.read_source hlegible
    rw [hsource, h'.read_source hlegible'] at hread
    exact (Option.some.inj hread).symm

/-- A conditional in a conditional, with an else that belongs to the outer one. -/
def outerElse : Stmt :=
  .ifElse (.variable "a") (.ifElse (.variable "b") (.reply (.variable "x")) none)
    (some (.reply (.variable "y")))

/-- The same conditionals with an else that belongs to the inner one. -/
def innerElse : Stmt :=
  .ifElse (.variable "a")
    (.ifElse (.variable "b") (.reply (.variable "x")) (some (.reply (.variable "y")))) none

/-- A block with a statement behind a comment. -/
def commentedBlock : Stmt := .block [.comment "// note", .reply (.variable "x")]

/-- The two conditionals have one text, from which the second is read, and the text of
    the block is not read as the block. -/
theorem illegible_texts :
    outerElse.Plain ∧ innerElse.Plain ∧ commentedBlock.Plain ∧
    outerElse.source = "if (a) if (b) reply x; else reply y;" ∧
    innerElse.source = outerElse.source ∧
    Stmt.read? innerElse.source = some innerElse ∧
    Stmt.read? outerElse.source ≠ some outerElse ∧
    commentedBlock.source = "\x7b // note reply x; \x7d" ∧
    Stmt.read? commentedBlock.source ≠ some commentedBlock := by
  have hname : ∀ name ∈ ["a", "b", "x", "y"], (Expr.variable name).Plain := by
    intro name hmem
    refine .reference ?_
    revert name
    decide
  have houter : outerElse.Plain :=
    .ifElse (hname "a" (by decide))
      (.ifElse (hname "b" (by decide)) (.reply (hname "x" (by decide))) (by simp))
      (by simpa using .reply (hname "y" (by decide)))
  have hinner : innerElse.Plain :=
    .ifElse (hname "a" (by decide)) (.ifElse (hname "b" (by decide))
      (.reply (hname "x" (by decide))) (by simpa using .reply (hname "y" (by decide)))) (by simp)
  have hblock : commentedBlock.Plain := by
    refine .block ?_
    simp only [List.forall_mem_cons, List.not_mem_nil, false_implies, implies_true, and_true]
    exact ⟨.comment (by decide) (by decide) (by decide), .reply (hname "x" (by decide))⟩
  refine ⟨houter, hinner, hblock, rfl, rfl, ?_, fun hread => ?_, rfl, fun hread => ?_⟩
  · exact (read_back_iff_legible hinner).1.2 rfl
  · exact absurd ((read_back_iff_legible houter).1.1 hread) (by decide)
  · exact absurd ((read_back_iff_legible hblock).1.1 hread) (by decide)

/-! ## Statements whose bodies are blocks -/

mutual

/-- There are no comments in the statement, and all branches and bodies are blocks. -/
def Stmt.braced : Stmt → Bool
  | .block statements => stmtsBraced statements
  | .comment _ => false
  | .ifElse _ thenBody none => thenBody.isBlock && thenBody.braced
  | .ifElse _ thenBody (some s) => thenBody.isBlock && thenBody.braced && (s.isBlock && s.braced)
  | .whileLoop _ none => false
  | .whileLoop _ (some s) => s.isBlock && s.braced
  | _ => true

/-- There are no comments in the statements, and all branches and bodies are blocks. -/
def stmtsBraced : List Stmt → Bool
  | [] => true
  | s :: ss => s.braced && stmtsBraced ss

end

theorem isBlock_spec {s : Stmt} (h : s.isBlock = true) :
    s.lastComment = none ∧ s.endsOpen = false := by
  cases s with
  | block _ => exact ⟨rfl, rfl⟩
  | _ => cases h

/-- A statement whose bodies are blocks leaves no else open and ends with no comment. -/
theorem lastComment_of_braced : ∀ {s : Stmt}, s.braced = true → s.lastComment = none
  | .ifElse _ _ none, h => (isBlock_spec (Bool.and_eq_true_iff.1 h).1).1
  | .ifElse _ _ (some _), h =>
    (isBlock_spec (Bool.and_eq_true_iff.1 (Bool.and_eq_true_iff.1 h).2).1).1
  | .whileLoop _ (some _), h => (isBlock_spec (Bool.and_eq_true_iff.1 h).1).1
  | .block _, _ | .assign _ _, _ | .functionCall _ _ _, _ | .actionCall _ _ _ _, _ | .reply _, _
  | .returning _, _ => rfl

mutual

theorem legible_of_braced : ∀ {s : Stmt}, s.braced = true → s.legible = true ∧ s.filled = s
  | .block statements, h => by
    rw [Stmt.braced] at h
    obtain ⟨hlegible, hfilled⟩ := stmtsLegible_of_braced h
    rw [Stmt.legible, Stmt.filled, hfilled]
    exact ⟨hlegible, rfl⟩
  | .ifElse _ thenBody none, h => by
    rw [Stmt.braced, Bool.and_eq_true] at h
    obtain ⟨hlegible, hfilled⟩ := legible_of_braced h.2
    rw [Stmt.legible, Stmt.filled, hfilled]
    exact ⟨hlegible, rfl⟩
  | .ifElse _ thenBody (some s), h => by
    rw [Stmt.braced, Bool.and_eq_true, Bool.and_eq_true, Bool.and_eq_true] at h
    obtain ⟨⟨hblock, hthen⟩, -, helse⟩ := h
    obtain ⟨hlegible, hfilled⟩ := legible_of_braced hthen
    obtain ⟨hlegible', hfilled'⟩ := legible_of_braced helse
    obtain ⟨hcomment, hclosed⟩ := isBlock_spec hblock
    rw [Stmt.legible, Stmt.filled, hfilled, hfilled', hlegible, hlegible', hcomment, hclosed]
    exact ⟨rfl, rfl⟩
  | .whileLoop _ (some s), h => by
    rw [Stmt.braced, Bool.and_eq_true] at h
    obtain ⟨hlegible, hfilled⟩ := legible_of_braced h.2
    rw [Stmt.legible, Stmt.filled, hfilled]
    exact ⟨hlegible, rfl⟩
  | .assign _ _, _ | .functionCall _ _ _, _ | .actionCall _ _ _ _, _ | .reply _, _
  | .returning _, _ => ⟨rfl, rfl⟩

theorem stmtsLegible_of_braced : ∀ {ss : List Stmt}, stmtsBraced ss = true →
    stmtsLegible ss = true ∧ filledEach ss = ss
  | [], _ => ⟨rfl, rfl⟩
  | s :: ss, h => by
    rw [stmtsBraced, Bool.and_eq_true] at h
    obtain ⟨hlegible, hfilled⟩ := legible_of_braced h.1
    obtain ⟨hrest, hfilleds⟩ := stmtsLegible_of_braced h.2
    rw [stmtsLegible, filledEach, hfilled, hfilleds, hlegible, lastComment_of_braced h.1, hrest]
    exact ⟨rfl, rfl⟩

end

theorem Stmt.Plain.read_braced {s : Stmt} (h : s.Plain) (hbraced : s.braced = true) :
    Stmt.read? s.source = some s := by
  obtain ⟨hlegible, hfilled⟩ := legible_of_braced hbraced
  rw [h.read_source hlegible, hfilled]

end TreeDoc.Program

namespace TreeDoc.Model

open Document Program

/-- The statement whose text a node has. -/
def statementOf? (n : Node) : Option Stmt :=
  match n.attr? "statement" with
  | some (.text s) => Stmt.read? s
  | _ => none

theorem statementOf?_texts {d : WorkerDef} (h : ∀ s ∈ d.statements, s.Plain ∧ s.braced = true) :
    (textsIn (workerTree (.textual .source) d)).map statementOf? = d.statements.map some := by
  rw [textsIn_workerTree, List.map_map]
  refine List.map_congr_left fun s hs => ?_
  exact (h s hs).1.read_braced (h s hs).2

/-- **Statements whose bodies are blocks are read back** from their texts. So the texts of
    a worker in a document tell what its statements are. -/
theorem braced_reads_back :
    (∀ s : Stmt, s.Plain → s.braced = true → Stmt.read? s.source = some s) ∧
    ∀ d d' : WorkerDef, (∀ s ∈ d.statements, s.Plain ∧ s.braced = true) →
      (∀ s ∈ d'.statements, s.Plain ∧ s.braced = true) →
      textsIn (workerTree (.textual .source) d) = textsIn (workerTree (.textual .source) d') →
      d.statements = d'.statements := by
  refine ⟨fun s h hbraced => h.read_braced hbraced, fun d d' h h' htexts => ?_⟩
  have hsome : d.statements.map some = d'.statements.map some := by
    rw [← statementOf?_texts h, ← statementOf?_texts h', htexts]
  exact List.map_injective_iff.2 (Option.some_injective _) hsome

/-- A conditional with a call, a loop and an assignment to two targets in its branches. -/
def bracedStmt : Stmt :=
  .ifElse (.binary .greaterThan (.variable "a") (.int 0))
    (.block [.functionCall "log" (some "io") [.string "a;"],
      .assign [.variable "a", .access "m" (.string "k")] (.map [.variable "b"]),
      .whileLoop (.variable "b") (some (.block []))])
    (some (.block [.returning []]))

/-- A worker with this statement. -/
def bracedWorker (name : String) : WorkerDef :=
  { name, position := 0, connectors := [], locals := [], statements := [bracedStmt] }

/-- The statement is read back from its text, and from the texts of workers. -/
theorem bracedStmt_read :
    bracedStmt.Plain ∧ bracedStmt.braced = true ∧
    bracedStmt.source =
      "if (a > 0) \x7b io:log(\"a;\"); a, m[\"k\"] = \x7bb\x7d; while (b) \x7b\x7d \x7d " ++
        "else \x7b return; \x7d" ∧
    Stmt.read? bracedStmt.source = some bracedStmt ∧
    textsIn (workerTree (.textual .source) (bracedWorker "v")) =
      textsIn (workerTree (.textual .source) (bracedWorker "w")) ∧
    (bracedWorker "v").statements = (bracedWorker "w").statements := by
  have hname : ∀ name ∈ ["a", "b"], (Expr.variable name).Plain := by
    intro name hmem
    refine .reference ?_
    revert name
    decide
  have hcall : (Stmt.functionCall "log" (some "io") [.string "a;"]).Plain := by
    refine .functionCall (.functionCall (by decide) (by simp [isName]; decide) ?_) (by decide)
    simpa using .string "a;"
  have hassign : (Stmt.assign [.variable "a", .access "m" (.string "k")]
      (.map [.variable "b"])).Plain := by
    refine .assign ?_ (by decide) (.map (by simpa using hname "b" (by decide)))
    simp only [List.forall_mem_cons, List.not_mem_nil, false_implies, implies_true, and_true]
    exact ⟨hname "a" (by decide), .access (by decide) (.string "k")⟩
  have hplain : bracedStmt.Plain := by
    refine .ifElse (.binary _ (hname "a" (by decide)) (.int (by decide))) (.block ?_) ?_
    · simp only [List.forall_mem_cons, List.not_mem_nil, false_implies, implies_true, and_true]
      refine ⟨hcall, hassign, .whileLoop (hname "b" (by decide)) ?_⟩
      simpa using .block (by simp)
    · simpa using .block (by simpa using .returning (by simp))
  have hworker : ∀ name, ∀ s ∈ (bracedWorker name).statements, s.Plain ∧ s.braced = true := by
    intro name
    simpa [bracedWorker] using ⟨hplain, rfl⟩
  refine ⟨hplain, rfl, by decide +kernel, braced_reads_back.1 bracedStmt hplain rfl, rfl, ?_⟩
  exact braced_reads_back.2 _ _ (hworker "v") (hworker "w") rfl

end TreeDoc.Model
