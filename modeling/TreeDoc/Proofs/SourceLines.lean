/-
  Code, quotes and comments in a line of source text.

  Outside of quotes a parenthesis belongs to the code, and two slashes begin a comment
  that goes on to the end of the line.

  * `Mode`: where a character of a line stands;
  * `parens`: the number of parentheses that the code opens. Tokens have no more of them
    than the text they are read from (`count_openParen`);
  * `splitComment`: the code of a line, and the comment behind it;
  * `Opens`, `Silent`: texts whose parentheses can be counted, and in which no comment
    begins, whatever follows.
-/
import TreeDoc.Proofs.SourceTokens

namespace TreeDoc.Program

/-- Where a character of a line stands: in the code, between quotes, or behind the
    backslash of an escape. -/
inductive Mode where
  | code
  | quoted
  | escaped
deriving Repr, DecidableEq

/-- Where the next character stands. -/
def Mode.next (m : Mode) (c : Char) : Mode :=
  match m with
  | .code => if c = '"' then .quoted else .code
  | .quoted => if c = '"' then .code else if c = '\\' then .escaped else .quoted
  | .escaped => .quoted

/-- How many parentheses are opened in the code. -/
def parens : Mode → List Char → Nat
  | _, [] => 0
  | m, c :: cs => (if m = .code ∧ c = '(' then 1 else 0) + parens (m.next c) cs

/-- The code in front of a comment, and the comment with its slashes. -/
def splitComment : Mode → List Char → List Char × Option (List Char)
  | _, [] => ([], none)
  | .code, '/' :: '/' :: cs => ([], some ('/' :: '/' :: cs))
  | m, c :: cs => Prod.map (c :: ·) id (splitComment (m.next c) cs)

section
variable {m : Mode} {c : Char} {cs ds rest s : List Char} {n k : Nat} {t : Token} {ts : List Token}

theorem splitComment_cons (h : m = .code → c = '/' → cs.head? ≠ some '/') :
    splitComment m (c :: cs) = Prod.map (c :: ·) id (splitComment (m.next c) cs) := by
  rw [splitComment]
  rintro cs' rfl rfl rfl
  exact h rfl rfl rfl

/-! ## Quoted texts -/

/-- The characters lead out of the quotes at their end, and not before. -/
def leavesQuotes : Mode → List Char → Bool
  | m, [] => m = .code
  | m, c :: cs => m ≠ .code && leavesQuotes (m.next c) cs

theorem leavesQuotes_cons (hm : m ≠ .code) (h : leavesQuotes (m.next c) cs = true) :
    leavesQuotes m (c :: cs) = true := by
  simp [leavesQuotes, hm, h]

theorem leavesQuotes_plain (hquote : c ≠ '"') (hescape : c ≠ '\\')
    (h : leavesQuotes .quoted cs = true) : leavesQuotes .quoted (c :: cs) = true :=
  leavesQuotes_cons (by decide) (by simpa [Mode.next, hquote, hescape] using h)

theorem leavesQuotes_escape (h : leavesQuotes .quoted cs = true) :
    leavesQuotes .quoted ('\\' :: c :: cs) = true :=
  leavesQuotes_cons (by decide) (leavesQuotes_cons (by decide) h)

theorem hexDigit?_quote : Json.hexDigit? '"' = none ∧ Json.hexDigit? '\\' = none := by decide

/-- What is read between quotes leads out of them. -/
theorem leavesQuotes_of_unquote? {v : Option Nat} (h : unquote? v cs = some (s, rest)) :
    ∃ ds, cs = ds ++ rest ∧ leavesQuotes .quoted ds = true := by
  fun_induction unquote? v cs generalizing s with
  | case1 cs =>
    obtain ⟨-, rfl⟩ := Prod.mk.inj (Option.some.inj h)
    exact ⟨['"'], rfl, by decide⟩
  | case2 cs ih =>
    obtain ⟨ds, rfl, hds⟩ := ih h
    exact ⟨_ :: _ :: _ :: ds, rfl,
      leavesQuotes_escape (leavesQuotes_plain (by decide) (by decide) hds)⟩
  | case3 c cs _ ih =>
    obtain ⟨d, -, hd⟩ := Option.bind_eq_some_iff.1 h
    obtain ⟨s', hs'⟩ := exists_of_map_cons hd
    obtain ⟨ds, rfl, hds⟩ := ih hs'
    exact ⟨_ :: _ :: ds, rfl, leavesQuotes_escape hds⟩
  | case4 c cs hquote _ hescape ih =>
    obtain ⟨s', hs'⟩ := exists_of_map_cons h
    obtain ⟨ds, rfl, hds⟩ := ih hs'
    refine ⟨c :: ds, rfl, leavesQuotes_plain hquote (fun hc => ?_) hds⟩
    -- a backslash is followed by what it escapes
    cases ds with
    | nil => exact absurd hds (by decide)
    | cons d ds => exact hescape d (ds ++ rest) hc rfl
  | case5 v cs _ ih =>
    obtain ⟨s', hs'⟩ := exists_of_map_cons h
    obtain ⟨ds, rfl, hds⟩ := ih hs'
    exact ⟨_ :: ds, rfl, leavesQuotes_plain (by decide) (by decide) hds⟩
  | case6 => simp at h
  | case7 v c cs _ ih =>
    obtain ⟨d, hdigit, hd⟩ := Option.bind_eq_some_iff.1 h
    obtain ⟨ds, rfl, hds⟩ := ih d hd
    refine ⟨_ :: ds, rfl, leavesQuotes_plain ?_ ?_ hds⟩
    · rintro rfl
      exact absurd hdigit (by simp [hexDigit?_quote])
    · rintro rfl
      exact absurd hdigit (by simp [hexDigit?_quote])
  | case8 => simp at h

theorem parens_leavesQuotes (h : leavesQuotes m ds = true) :
    parens m (ds ++ rest) = parens .code rest := by
  induction ds generalizing m with
  | nil =>
    obtain rfl : m = .code := by simpa [leavesQuotes] using h
    rfl
  | cons c ds ih =>
    obtain ⟨hm, hds⟩ : m ≠ .code ∧ leavesQuotes (m.next c) ds = true := by
      simpa [leavesQuotes] using h
    rw [List.cons_append, parens, ih hds, if_neg (fun hcode => hm hcode.1), Nat.zero_add]

theorem splitComment_leavesQuotes (h : leavesQuotes m ds = true) :
    splitComment m (ds ++ rest) = Prod.map (ds ++ ·) id (splitComment .code rest) := by
  induction ds generalizing m with
  | nil =>
    obtain rfl : m = .code := by simpa [leavesQuotes] using h
    rfl
  | cons c ds ih =>
    obtain ⟨hm, hds⟩ : m ≠ .code ∧ leavesQuotes (m.next c) ds = true := by
      simpa [leavesQuotes] using h
    rw [List.cons_append, splitComment_cons (fun hcode => absurd hcode hm), ih hds]
    rfl

/-- The text between quotes, with the quote at its end. -/
theorem leavesQuotes_quoted (s : List Char) :
    leavesQuotes .quoted ((String.join (s.map Text.quotedChar)).toList ++ ['"']) = true := by
  obtain ⟨ds, hds, hleaves⟩ := leavesQuotes_of_unquote? (unquote?_quoted s [])
  rwa [hds, List.append_nil]

/-! ## Parentheses -/

/-- The text opens a number of parentheses in the code, and ends in the code. -/
def Opens (n : Nat) (cs : List Char) : Prop :=
  ∀ rest, parens .code (cs ++ rest) = n + parens .code rest

theorem Opens.append (h : Opens n cs) (h' : Opens k ds) : Opens (n + k) (cs ++ ds) := by
  intro rest
  rw [List.append_assoc, h, h', Nat.add_assoc]

theorem Opens.eq (h : Opens n cs) : parens .code cs = n := by
  have hnil := h []
  rwa [List.append_nil, parens, Nat.add_zero] at hnil

theorem parens_cons_code (hc : c ≠ '"') :
    parens .code (c :: cs) = (if c = '(' then 1 else 0) + parens .code cs := by
  simp [parens, Mode.next, hc]

theorem opens_count (h : '"' ∉ cs) : Opens (cs.count '(') cs := by
  intro rest
  induction cs with
  | nil => simp
  | cons c cs ih =>
    obtain ⟨hc, hcs⟩ := List.ne_and_not_mem_of_not_mem_cons h
    rw [List.cons_append, parens_cons_code hc.symm, ih hcs, List.count_cons, ← Nat.add_assoc]
    simp only [beq_iff_eq]
    omega

theorem opens_zero (hquote : '"' ∉ cs) (hparen : '(' ∉ cs) : Opens 0 cs :=
  List.count_eq_zero.2 hparen ▸ opens_count hquote

theorem opens_quoted (s : String) : Opens 0 (Text.quoted s).toList := by
  intro rest
  have hleaves : parens .quoted (_ ++ rest) = _ :=
    parens_leavesQuotes (leavesQuotes_quoted s.toList)
  simpa [Text.quoted, parens, Mode.next] using hleaves

/-! ## Parentheses among tokens -/

theorem not_mem_of_nameParts (h : ∀ c ∈ cs, isNamePart c = true) (hc : isNamePart c = false) :
    c ∉ cs := fun hmem => Bool.false_ne_true (hc.symm.trans (h c hmem))

theorem isNamePart_of_isDigit (h : c.isDigit = true) : isNamePart c = true := by
  simp [isNamePart, Char.isAlphanum, h]

theorem isNamePart_of_isNameStart (h : isNameStart c = true) : isNamePart c = true := by
  simp only [isNameStart, isNamePart, Char.isAlphanum, Bool.or_eq_true] at h ⊢
  rcases h with halpha | hunderscore
  · exact .inl (.inl halpha)
  · exact .inr hunderscore

theorem opens_nameParts (h : ∀ c ∈ cs, isNamePart c = true) : Opens 0 cs :=
  opens_zero (not_mem_of_nameParts h (by decide)) (not_mem_of_nameParts h (by decide))

theorem parens_takeWhile {p : Char → Bool} (hp : ∀ c, p c = true → isNamePart c = true)
    (hc : isNamePart c = true) :
    parens .code (c :: cs) = parens .code (cs.dropWhile p) := by
  have htaken : Opens 0 (c :: cs.takeWhile p) := by
    refine opens_nameParts (List.forall_mem_cons.2 ⟨hc, fun d hd => hp d ?_⟩)
    exact List.all_eq_true.1 List.all_takeWhile d hd
  have hparens := htaken (cs.dropWhile p)
  rwa [List.cons_append, List.takeWhile_append_dropWhile, Nat.zero_add] at hparens

theorem operators_chars : ∀ s ∈ operators, '"' ∉ s.toList ∧ '(' ∉ s.toList := by decide

theorem parens_operator? {s : String} (h : operator? cs = some (s, rest)) :
    parens .code cs = parens .code rest := by
  have htake : ∀ k, String.ofList (cs.take k) ∈ operators →
      parens .code cs = parens .code (cs.drop k) := by
    intro k hmem
    have hopens : Opens 0 (cs.take k) := by
      have hchars := operators_chars _ hmem
      rw [String.toList_ofList] at hchars
      exact opens_zero hchars.1 hchars.2
    have hparens := hopens (cs.drop k)
    rwa [List.take_append_drop, Nat.zero_add] at hparens
  rw [operator?] at h
  split_ifs at h with h₂ h₁
  · obtain ⟨-, rfl⟩ := Prod.mk.inj (Option.some.inj h)
    exact htake 2 h₂
  · obtain ⟨-, rfl⟩ := Prod.mk.inj (Option.some.inj h)
    exact htake 1 h₁

theorem parens_token? (h : token? cs = some (t, rest)) :
    parens .code cs = [t].count (.mark .openParen) + parens .code rest := by
  cases cs with
  | nil => simp [token?] at h
  | cons c cs =>
    rw [token?] at h
    split_ifs at h with hname hdigit hquote
    · obtain ⟨rfl, rfl⟩ := Prod.mk.inj (Option.some.inj h)
      simpa using parens_takeWhile (fun _ hd => hd) (isNamePart_of_isNameStart hname)
    · obtain ⟨rfl, rfl⟩ := Prod.mk.inj (Option.some.inj h)
      simpa using parens_takeWhile (fun _ => isNamePart_of_isDigit) (isNamePart_of_isDigit hdigit)
    · obtain ⟨⟨s, rest'⟩, hs, heq⟩ := Option.bind_eq_some_iff.1 h
      obtain ⟨rfl, rfl⟩ := Prod.mk.inj (Option.some.inj heq)
      obtain ⟨ds, rfl, hds⟩ := leavesQuotes_of_unquote? hs
      simpa [parens, Mode.next, hquote] using parens_leavesQuotes hds
    · split at h
      · next s rest' hs =>
        obtain ⟨rfl, rfl⟩ := Prod.mk.inj (Option.some.inj h)
        simpa using parens_operator? hs
      · obtain ⟨m, hm, heq⟩ := Option.map_eq_some_iff.1 h
        obtain ⟨rfl, rfl⟩ := Prod.mk.inj heq
        have hchar : m.char = c := by simpa using List.find?_some hm
        subst hchar
        rw [parens_cons_code hquote]
        cases m <;> rfl

/-- **The tokens of a text open the parentheses of its code.** -/
theorem count_openParen (h : lex cs = some ts) :
    ts.count (.mark .openParen) = parens .code cs := by
  fun_induction lex cs generalizing ts with
  | case1 =>
    obtain rfl := Option.some.inj h
    rfl
  | case2 cs ih =>
    rw [ih h, parens_cons_code (by decide), if_neg (by decide), Nat.zero_add]
  | case3 c cs _ t rest ht ih =>
    obtain ⟨ts', hts', rfl⟩ := Option.map_eq_some_iff.1 h
    rw [parens_token? ht, ← ih hts', ← List.singleton_append, List.count_append]
  | case4 => cases h

/-! ## Comments -/

/-- The text is code in which no comment begins, whatever follows. -/
def Silent (cs : List Char) : Prop :=
  ∀ rest, splitComment .code (cs ++ rest) = Prod.map (cs ++ ·) id (splitComment .code rest)

theorem Silent.append (h : Silent cs) (h' : Silent ds) : Silent (cs ++ ds) := by
  intro rest
  rw [List.append_assoc, h, h', Prod.map_map]
  simp only [Function.comp_def, List.append_assoc]
  rfl

theorem silent_nil : Silent [] := fun _ => rfl

theorem Silent.cons (hc : c ≠ '"' ∧ c ≠ '/') (h : Silent cs) : Silent (c :: cs) := by
  intro rest
  have hnext : Mode.code.next c = .code := by simp [Mode.next, hc.1]
  rw [List.cons_append, splitComment_cons (fun _ hslash => absurd hslash hc.2), hnext, h rest]
  rfl

theorem silent_of_not_mem (hquote : '"' ∉ cs) (hslash : '/' ∉ cs) : Silent cs := by
  induction cs with
  | nil => exact silent_nil
  | cons c cs ih =>
    obtain ⟨hcquote, hquote⟩ := List.ne_and_not_mem_of_not_mem_cons hquote
    obtain ⟨hcslash, hslash⟩ := List.ne_and_not_mem_of_not_mem_cons hslash
    exact (ih hquote hslash).cons ⟨hcquote.symm, hcslash.symm⟩

theorem silent_quoted (s : String) : Silent (Text.quoted s).toList := by
  intro rest
  have hleaves : splitComment .quoted (_ ++ rest) = _ :=
    splitComment_leavesQuotes (leavesQuotes_quoted s.toList)
  have htext : (Text.quoted s).toList =
      '"' :: ((String.join (s.toList.map Text.quotedChar)).toList ++ ['"']) := by
    simp [Text.quoted]
  rw [htext, List.cons_append, splitComment_cons (fun _ hslash => absurd hslash (by decide))]
  exact congrArg (Prod.map ('"' :: ·) id) hleaves

/-- A slash does not begin a comment if something else follows. -/
theorem silent_slash (hc : c ≠ '/') (h : Silent (c :: cs)) : Silent ('/' :: c :: cs) := by
  intro rest
  have hhead : (c :: cs ++ rest).head? ≠ some '/' := by simpa using hc
  rw [List.cons_append, splitComment_cons (fun _ _ => hhead)]
  exact congrArg (Prod.map ('/' :: ·) id) (h rest)

theorem Silent.split (h : Silent cs) : splitComment .code cs = (cs, none) := by
  have hnil := h []
  rwa [List.append_nil, splitComment, Prod.map_apply, List.append_nil] at hnil

/-- Code and the comment behind it. -/
theorem Silent.split_comment (h : Silent cs) (ds : List Char) :
    splitComment .code (cs ++ '/' :: '/' :: ds) = (cs, some ('/' :: '/' :: ds)) := by
  rw [h, splitComment, Prod.map_apply, List.append_nil]
  rfl

end

end TreeDoc.Program
