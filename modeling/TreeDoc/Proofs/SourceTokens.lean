/-
  Source text as tokens.

  * `Token`: names, numbers, quoted texts, operators and marks;
  * `unquote?`: what stands between quotes;
  * `token?`, `lex`: the first token of a text, and all of them. Blanks are skipped, a
    name or number goes on as long as it can, and an operator of two characters comes
    before one of one;
  * `Lexes`: a text that is read as tokens, whatever follows;
  * `Lexes.name`, `Lexes.number`, `Lexes.quoted`, `lex_operator`, `lex_mark`: how each
    token is written.
-/
import Mathlib.Tactic.SplitIfs
import TreeDoc.Json.Scan
import TreeDoc.Program.Source

namespace TreeDoc.Program

/-! ## Operators by their symbols -/

/-- The binary operators. -/
def BinaryOp.all : List BinaryOp :=
  [.divide, .add, .subtract, .multiply, .and, .or, .equal, .notEqual, .greaterEqual, .greaterThan,
    .lessEqual, .lessThan]

/-- The unary operators. -/
def UnaryOp.all : List UnaryOp := [.not, .negate, .plus]

/-- The binary operator with a symbol. -/
def BinaryOp.ofSymbol? (symbol : String) : Option BinaryOp :=
  BinaryOp.all.find? fun op => op.symbol = symbol

/-- The unary operator with a symbol. -/
def UnaryOp.ofSymbol? (symbol : String) : Option UnaryOp :=
  UnaryOp.all.find? fun op => op.symbol = symbol

/-- What is found by its symbol has this symbol, and everything is found by its own. -/
theorem find?_symbol_eq_some {α : Type} {all : List α} {symbolOf : α → String} {op : α}
    (hself : all.find? (fun o => symbolOf o = symbolOf op) = some op) {symbol : String} :
    all.find? (fun o => symbolOf o = symbol) = some op ↔ symbol = symbolOf op := by
  constructor
  · intro h
    have hsymbol := List.find?_some h
    exact (of_decide_eq_true hsymbol).symm
  · rintro rfl
    exact hself

theorem BinaryOp.ofSymbol?_eq_some {symbol : String} {op : BinaryOp} :
    BinaryOp.ofSymbol? symbol = some op ↔ symbol = op.symbol :=
  find?_symbol_eq_some (by cases op <;> decide)

theorem BinaryOp.symbol_injective {op op' : BinaryOp} (h : op.symbol = op'.symbol) : op = op' :=
  Option.some.inj ((ofSymbol?_eq_some.2 rfl).symm.trans (ofSymbol?_eq_some.2 h))

theorem UnaryOp.ofSymbol?_eq_some {symbol : String} {op : UnaryOp} :
    UnaryOp.ofSymbol? symbol = some op ↔ symbol = op.symbol :=
  find?_symbol_eq_some (by cases op <;> decide)

/-- The symbols of all operators, and that of an assignment. -/
def operators : List String :=
  BinaryOp.all.map BinaryOp.symbol ++ UnaryOp.all.map UnaryOp.symbol ++ ["="]

theorem BinaryOp.symbol_mem_operators (op : BinaryOp) : op.symbol ∈ operators := by
  cases op <;> decide

theorem UnaryOp.symbol_mem_operators (op : UnaryOp) : op.symbol ∈ operators := by
  cases op <;> decide

/-! ## Tokens -/

/-- Punctuation marks. -/
inductive Mark where
  | openParen
  | closeParen
  | openBracket
  | closeBracket
  | openBrace
  | closeBrace
  | comma
  | colon
  | dot
  | semicolon
deriving Repr, DecidableEq

/-- The character of a mark. -/
def Mark.char : Mark → Char
  | openParen => '('
  | closeParen => ')'
  | openBracket => '['
  | closeBracket => ']'
  | openBrace => '\x7b'
  | closeBrace => '\x7d'
  | comma => ','
  | colon => ':'
  | dot => '.'
  | semicolon => ';'

/-- The mark with a character. -/
def Mark.ofChar? (c : Char) : Option Mark :=
  [openParen, closeParen, openBracket, closeBracket, openBrace, closeBrace, comma, colon, dot,
    semicolon].find? fun m => m.char = c

/-- Tokens of source text. -/
inductive Token where
  | name (text : String)
  | number (value : Nat)
  | quoted (content : String)
  | operator (symbol : String)
  | mark (m : Mark)
deriving Repr, DecidableEq

/-- A name may start with the character. -/
def isNameStart (c : Char) : Bool := c.isAlpha || c = '_'

/-- A name may go on with the character. -/
def isNamePart (c : Char) : Bool := c.isAlphanum || c = '_'

/-- The text is a name: ASCII letters, digits and underscores, and no digit in front. -/
def isName (s : String) : Bool :=
  match s.toList with
  | [] => false
  | c :: cs => isNameStart c && cs.all isNamePart

/-- The character of an escape of one letter. -/
def escaped? : Char → Option Char
  | '"' => some '"'
  | '\\' => some '\\'
  | 'n' => some '\n'
  | 'r' => some '\r'
  | 't' => some '\t'
  | '0' => some '\x00'
  | _ => none

/-- The characters up to the closing quote and what follows it. Inside the braces of an
    escape, the value of the digits so far is known. -/
def unquote? : Option Nat → List Char → Option (List Char × List Char)
  | none, '"' :: cs => some ([], cs)
  | none, '\\' :: 'u' :: '\x7b' :: cs => unquote? (some 0) cs
  | none, '\\' :: c :: cs =>
    (escaped? c).bind fun c => (unquote? none cs).map (Prod.map (c :: ·) id)
  | none, c :: cs => (unquote? none cs).map (Prod.map (c :: ·) id)
  | some n, '\x7d' :: cs =>
    if n.isValidChar then (unquote? none cs).map (Prod.map (Char.ofNat n :: ·) id) else none
  | some n, c :: cs => (Json.hexDigit? c).bind fun d => unquote? (some (16 * n + d)) cs
  | _, [] => none

/-- The longest operator in front of a text and what follows it. -/
def operator? (cs : List Char) : Option (String × List Char) :=
  if String.ofList (cs.take 2) ∈ operators then some (String.ofList (cs.take 2), cs.drop 2)
  else if String.ofList (cs.take 1) ∈ operators then some (String.ofList (cs.take 1), cs.drop 1)
  else none

/-- The token in front of a text and what follows it. -/
def token? : List Char → Option (Token × List Char)
  | [] => none
  | c :: cs =>
    if isNameStart c then
      some (.name (String.ofList (c :: cs.takeWhile isNamePart)), cs.dropWhile isNamePart)
    else if c.isDigit then
      some (.number (Nat.ofDigitChars 10 (c :: cs.takeWhile Char.isDigit) 0),
        cs.dropWhile Char.isDigit)
    else if c = '"' then do
      let (s, rest) ← unquote? none cs
      return (.quoted (String.ofList s), rest)
    else
      match operator? (c :: cs) with
      | some (s, rest) => some (.operator s, rest)
      | none => (Mark.ofChar? c).map fun m => (.mark m, cs)

theorem exists_of_map_cons {c : Char} {s rest : List Char} {r : Option (List Char × List Char)}
    (h : r.map (Prod.map (c :: ·) id) = some (s, rest)) : ∃ s', r = some (s', rest) := by
  obtain ⟨⟨s', rest'⟩, rfl, heq⟩ := Option.map_eq_some_iff.1 h
  obtain ⟨-, rfl⟩ := Prod.mk.inj heq
  exact ⟨s', rfl⟩

theorem unquote?_length {n : Option Nat} {cs s rest : List Char}
    (h : unquote? n cs = some (s, rest)) : rest.length < cs.length := by
  fun_induction unquote? n cs generalizing s with
  | case1 cs => simp_all
  | case2 cs ih =>
    have hlt := ih h
    simp only [List.length_cons]
    omega
  | case3 c cs _ ih =>
    obtain ⟨d, -, hd⟩ := Option.bind_eq_some_iff.1 h
    obtain ⟨s', hs'⟩ := exists_of_map_cons hd
    have hlt := ih hs'
    simp only [List.length_cons]
    omega
  | case4 c cs _ _ _ ih =>
    obtain ⟨s', hs'⟩ := exists_of_map_cons h
    exact Nat.lt_succ_of_lt (ih hs')
  | case5 n cs _ ih =>
    obtain ⟨s', hs'⟩ := exists_of_map_cons h
    exact Nat.lt_succ_of_lt (ih hs')
  | case6 => simp at h
  | case7 n c cs _ ih =>
    obtain ⟨d, -, hd⟩ := Option.bind_eq_some_iff.1 h
    exact Nat.lt_succ_of_lt (ih d hd)
  | case8 => simp at h

theorem operator?_length {cs rest : List Char} {s : String} (h : operator? cs = some (s, rest)) :
    rest.length < cs.length := by
  cases cs with
  | nil =>
    have hnone : operator? [] = none := by decide
    rw [hnone] at h
    cases h
  | cons c cs =>
    rw [operator?] at h
    split_ifs at h
    · obtain ⟨-, rfl⟩ := Prod.mk.inj (Option.some.inj h)
      simp only [List.length_drop, List.length_cons]
      omega
    · obtain ⟨-, rfl⟩ := Prod.mk.inj (Option.some.inj h)
      exact Nat.lt_succ_self _

theorem token?_length {cs rest : List Char} {t : Token} (h : token? cs = some (t, rest)) :
    rest.length < cs.length := by
  cases cs with
  | nil => simp [token?] at h
  | cons c cs =>
    rw [token?] at h
    split_ifs at h
    · obtain ⟨-, rfl⟩ := Prod.mk.inj (Option.some.inj h)
      exact Nat.lt_succ_of_le (List.dropWhile_sublist _).length_le
    · obtain ⟨-, rfl⟩ := Prod.mk.inj (Option.some.inj h)
      exact Nat.lt_succ_of_le (List.dropWhile_sublist _).length_le
    · obtain ⟨⟨s, rest'⟩, hs, heq⟩ := Option.bind_eq_some_iff.1 h
      obtain ⟨-, rfl⟩ := Prod.mk.inj (Option.some.inj heq)
      exact Nat.lt_succ_of_lt (unquote?_length hs)
    · split at h
      · next s rest' hs =>
        obtain ⟨-, rfl⟩ := Prod.mk.inj (Option.some.inj h)
        exact operator?_length hs
      · obtain ⟨m, -, heq⟩ := Option.map_eq_some_iff.1 h
        obtain ⟨-, rfl⟩ := Prod.mk.inj heq
        exact Nat.lt_succ_self _

/-- The tokens of a text. -/
def lex (cs : List Char) : Option (List Token) :=
  match cs with
  | [] => some []
  | c :: cs =>
    if c = ' ' then lex cs
    else
      match _h : token? (c :: cs) with
      | some (t, rest) => (lex rest).map (t :: ·)
      | none => none
termination_by cs.length
decreasing_by
  · exact Nat.lt_succ_self _
  · exact token?_length _h

/-! ## Single tokens -/

variable {c : Char} {cs rest : List Char} {t : Token}

theorem lex_blank (cs : List Char) : lex (' ' :: cs) = lex cs := by
  rw [lex, if_pos rfl]

theorem lex_of_token? (hc : c ≠ ' ') (h : token? (c :: cs) = some (t, rest)) :
    lex (c :: cs) = (lex rest).map (t :: ·) := by
  rw [lex, if_neg hc]
  split
  · next heq =>
    obtain ⟨rfl, rfl⟩ := Prod.mk.inj (Option.some.inj (heq.symm.trans h))
    rfl
  · next heq =>
    rw [h] at heq
    cases heq

/-- A name, number or operator ends where the text begins. -/
def Ends (rest : List Char) : Prop := ∀ c ∈ rest.head?, isNamePart c = false ∧ c ≠ '='

theorem Ends.cons (hc : isNamePart c = false ∧ c ≠ '=') : Ends (c :: cs) := by
  intro d hd
  obtain rfl : c = d := by simpa using hd
  exact hc

theorem Mark.ends (m : Mark) (cs : List Char) : Ends (m.char :: cs) := by
  refine Ends.cons ?_
  cases m <;> decide

theorem ends_blank (cs : List Char) : Ends (' ' :: cs) := Ends.cons (by decide)

theorem takeWhile_append_ends {p : Char → Bool} (hcs : ∀ c ∈ cs, p c = true) {rest : List Char}
    (hrest : ∀ c ∈ rest.head?, p c = false) :
    (cs ++ rest).takeWhile p = cs ∧ (cs ++ rest).dropWhile p = rest := by
  rw [List.takeWhile_append_of_pos hcs, List.dropWhile_append_of_pos hcs]
  cases rest with
  | nil => simp
  | cons c rest => simp [hrest c rfl]

theorem lex_name {s : String} (hs : isName s = true) (hrest : Ends rest) :
    lex (s.toList ++ rest) = (lex rest).map (.name s :: ·) := by
  rw [isName] at hs
  split at hs
  · cases hs
  · next c cs htext =>
    obtain ⟨hstart, hparts⟩ := Bool.and_eq_true_iff.1 hs
    obtain ⟨htake, hdrop⟩ := takeWhile_append_ends (List.all_eq_true.1 hparts)
      fun c hc => (hrest c hc).1
    have htoken : token? (c :: (cs ++ rest)) = some (.name s, rest) := by
      rw [token?, if_pos hstart, htake, hdrop, ← htext, String.ofList_toList]
    rw [htext]
    exact lex_of_token? (by rintro rfl; exact absurd hstart (by decide)) htoken

theorem isDigit_of_isNamePart (h : isNamePart c = false) : c.isDigit = false := by
  rw [isNamePart, Char.isAlphanum] at h
  simp_all

theorem not_isNameStart_of_isDigit (h : c.isDigit = true) : isNameStart c = false := by
  have hdigits : ∀ n < 10, isNameStart (Char.ofNat ('0'.toNat + n)) = false := by decide
  obtain ⟨hlow, hhigh⟩ : '0'.toNat ≤ c.toNat ∧ c.toNat ≤ '9'.toNat := by
    simpa [Char.isDigit, UInt32.le_iff_toNat_le] using h
  have hdigit := hdigits (c.toNat - '0'.toNat) (by simp at hhigh ⊢; omega)
  rwa [Nat.add_sub_cancel' hlow, Char.ofNat_toNat] at hdigit

theorem lex_number (n : Nat) (hrest : Ends rest) :
    lex ((toString n).toList ++ rest) = (lex rest).map (.number n :: ·) := by
  have hdigits : ∀ c ∈ Nat.toDigits 10 n, c.isDigit = true :=
    fun c hc => Nat.isDigit_of_mem_toDigits (by decide) (by decide) hc
  have htext : (toString n).toList = Nat.toDigits 10 n := Nat.toList_repr
  rw [htext]
  obtain ⟨d, ds, hds⟩ := List.exists_cons_of_ne_nil (Nat.toDigits_ne_nil (n := n) (b := 10))
  have hvalue : Nat.ofDigitChars 10 (d :: ds) 0 = n := by
    rw [← hds]
    exact Nat.ofDigitChars_ten_toDigits
  rw [hds] at hdigits ⊢
  have hd := hdigits d List.mem_cons_self
  obtain ⟨htake, hdrop⟩ := takeWhile_append_ends
    (fun c hc => hdigits c (List.mem_cons_of_mem d hc))
    fun c (hc : c ∈ rest.head?) => isDigit_of_isNamePart (hrest c hc).1
  have htoken : token? (d :: (ds ++ rest)) = some (.number n, rest) := by
    rw [token?, if_neg (by simp [not_isNameStart_of_isDigit hd]), if_pos hd, htake, hdrop, hvalue]
  exact lex_of_token? (by rintro rfl; exact absurd hd (by decide)) htoken

/-! ## Quoted texts -/

theorem hexDigit?_digitChar : ∀ n < 16, Json.hexDigit? (Nat.digitChar n) = some n ∧
    Nat.digitChar n ≠ '\x7d' := by decide

theorem unquote?_hex (n : Nat) (cs : List Char) :
    unquote? (some 0) (Nat.toDigits 16 n ++ cs) = unquote? (some n) cs := by
  induction n using Nat.strongRecOn generalizing cs with
  | ind n ih =>
    have hdigit : ∀ (m k : Nat), k < 16 →
        unquote? (some m) (Nat.digitChar k :: cs) = unquote? (some (16 * m + k)) cs := by
      intro m k hk
      obtain ⟨hvalue, hbrace⟩ := hexDigit?_digitChar k hk
      rw [unquote?, hvalue, Option.bind_some]
      exact hbrace
    by_cases hn : n < 16
    · rw [Nat.toDigits_of_lt_base hn, List.singleton_append, hdigit 0 n hn, Nat.zero_add]
    · rw [Nat.toDigits_of_base_le (by decide) (Nat.le_of_not_lt hn), List.append_assoc,
        List.singleton_append, ih _ (by omega), hdigit _ _ (Nat.mod_lt n (by decide)),
        Nat.div_add_mod]

theorem unquote?_quotedChar (c : Char) (cs : List Char) :
    unquote? none ((Text.quotedChar c).toList ++ cs) =
      (unquote? none cs).map (Prod.map (c :: ·) id) := by
  unfold Text.quotedChar
  split
  · rfl
  · rfl
  · rfl
  · rfl
  · rfl
  · rfl
  · next hquote hescape _ _ _ _ =>
    split
    · have htext : ("\\u\x7b" ++ Text.hex c.toNat ++ "\x7d").toList ++ cs =
          '\\' :: 'u' :: '\x7b' :: (Nat.toDigits 16 c.toNat ++ '\x7d' :: cs) := by
        simp [Text.hex]
      have hvalid : c.toNat.isValidChar := c.valid
      rw [htext, unquote?, unquote?_hex, unquote?, if_pos hvalid, Char.ofNat_toNat]
    · have htext : c.toString.toList ++ cs = c :: cs := by simp
      rw [htext, unquote?]
      · exact hquote
      · exact fun _ h _ => hescape h
      · exact fun _ _ h _ => hescape h

theorem unquote?_quoted (s : List Char) (rest : List Char) :
    unquote? none ((String.join (s.map Text.quotedChar)).toList ++ '"' :: rest) =
      some (s, rest) := by
  induction s with
  | nil => rfl
  | cons c s ih =>
    rw [List.map_cons, String.join_cons, String.toList_append, List.append_assoc,
      unquote?_quotedChar, ih]
    rfl

theorem lex_quoted (s : String) (rest : List Char) :
    lex ((Text.quoted s).toList ++ rest) = (lex rest).map (.quoted s :: ·) := by
  have htoken : token? ('"' :: ((String.join (s.toList.map Text.quotedChar)).toList ++
      '"' :: rest)) = some (.quoted s, rest) := by
    rw [token?, if_neg (by decide), if_neg (by decide), if_pos rfl, unquote?_quoted]
    simp
  have htext : (Text.quoted s).toList ++ rest = '"' ::
      ((String.join (s.toList.map Text.quotedChar)).toList ++ '"' :: rest) := by
    simp [Text.quoted]
  rw [htext]
  exact lex_of_token? (by decide) htoken

/-! ## Operators and marks -/

/-- An operator is no beginning of another one, unless an equality sign follows. -/
theorem operators_longest : ∀ s ∈ operators, s.toList.length = 2 ∨ s.toList.length = 1 ∧
    ∀ t ∈ operators, t.toList.head? = s.toList.head? → t = s ∨ t.toList.getLast? = some '=' := by
  decide

theorem operators_start : ∀ s ∈ operators, (s.toList.head?.all fun c =>
    !isNameStart c && !c.isDigit && decide (c ≠ '"') && decide (c ≠ ' ')) = true := by decide

theorem ofList_pair_not_mem {d : Char} (hc : String.ofList [c] ∈ operators) (hd : d ≠ '=') :
    String.ofList [c, d] ∉ operators := by
  intro hmem
  rcases operators_longest _ hc with hlength | ⟨-, hother⟩
  · rw [String.toList_ofList] at hlength
    exact absurd hlength (by simp)
  · rcases hother _ hmem (by simp only [String.toList_ofList, List.head?_cons]) with heq | hlast
    · exact absurd (String.ofList_injective heq) (by simp)
    · rw [String.toList_ofList] at hlast
      exact hd (by simpa using hlast)

theorem operator?_append {s : String} (hs : s ∈ operators) (hrest : rest.head? ≠ some '=') :
    operator? (s.toList ++ rest) = some (s, rest) := by
  rcases operators_longest s hs with hlength | ⟨hlength, -⟩
  · rw [operator?, List.take_left' hlength, List.drop_left' hlength, String.ofList_toList,
      if_pos hs]
  · obtain ⟨c, hc⟩ := List.length_eq_one_iff.1 hlength
    obtain rfl : s = String.ofList [c] := by rw [← hc, String.ofList_toList]
    cases rest with
    | nil => rw [operator?, hc, List.append_nil, List.take_of_length_le (by simp), if_pos hs]; rfl
    | cons d rest =>
      have hpair : String.ofList [c, d] ∉ operators :=
        ofList_pair_not_mem hs fun hd => hrest (congrArg some hd)
      rw [hc]
      exact (if_neg hpair).trans (if_pos hs)

theorem lex_operator {s : String} (hs : s ∈ operators) (hrest : rest.head? ≠ some '=') :
    lex (s.toList ++ rest) = (lex rest).map (.operator s :: ·) := by
  have hoperator := operator?_append hs hrest
  have hstart := operators_start s hs
  cases htext : s.toList with
  | nil => exact absurd hs (by rw [String.toList_eq_nil_iff.1 htext]; decide)
  | cons c cs =>
    rw [htext] at hoperator hstart
    obtain ⟨⟨⟨hname, hdigit⟩, hquote⟩, hblank⟩ : ((isNameStart c = false ∧ c.isDigit = false) ∧
        c ≠ '"') ∧ c ≠ ' ' := by simpa using hstart
    rw [List.cons_append] at hoperator ⊢
    refine lex_of_token? hblank ?_
    rw [token?, if_neg (by simp [hname]), if_neg (by simp [hdigit]), if_neg hquote, hoperator]

theorem operators_mark (m : Mark) : ∀ s ∈ operators, s.toList.head? ≠ some m.char := by
  cases m <;> decide

theorem operator?_mark (m : Mark) (rest : List Char) : operator? (m.char :: rest) = none := by
  have htake : ∀ n, String.ofList ((m.char :: rest).take (n + 1)) ∉ operators := by
    intro n hmem
    refine operators_mark m _ hmem ?_
    rw [String.toList_ofList, List.take_succ_cons, List.head?_cons]
  rw [operator?, if_neg (htake 1), if_neg (htake 0)]

theorem lex_mark (m : Mark) (rest : List Char) :
    lex (m.char :: rest) = (lex rest).map (.mark m :: ·) := by
  have hchar : isNameStart m.char = false ∧ m.char.isDigit = false ∧ m.char ≠ '"' ∧
      m.char ≠ ' ' ∧ Mark.ofChar? m.char = some m := by cases m <;> decide
  obtain ⟨hname, hdigit, hquote, hblank, hmark⟩ := hchar
  refine lex_of_token? hblank ?_
  rw [token?, if_neg (by simp [hname]), if_neg (by simp [hdigit]), if_neg hquote,
    operator?_mark, hmark]
  rfl

/-! ## Texts -/

/-- **The text is read as the tokens**, whatever follows, provided that its last token
    ends there. It does not start with an equality sign, so that it may stand behind an
    operator. -/
structure Lexes (cs : List Char) (ts : List Token) : Prop where
  head : cs.head? ≠ some '='
  reads : ∀ {rest}, Ends rest → lex (cs ++ rest) = (lex rest).map (ts ++ ·)

namespace Lexes

variable {cs' : List Char} {ts ts' : List Token} {s : String}

theorem nil : Lexes [] [] := ⟨by simp, fun _ => by simp⟩

theorem head_append (h : Lexes cs ts) (hrest : rest.head? ≠ some '=') :
    (cs ++ rest).head? ≠ some '=' := by
  cases cs with
  | nil => exact hrest
  | cons c cs => exact h.head

theorem append (h : Lexes cs ts) (hends : Ends cs') (h' : Lexes cs' ts') :
    Lexes (cs ++ cs') (ts ++ ts') := by
  refine ⟨h.head_append h'.head, fun {rest} hrest => ?_⟩
  have hends' : Ends (cs' ++ rest) := by
    cases cs' with
    | nil => exact hrest
    | cons c cs' => exact hends
  rw [List.append_assoc, h.reads hends', h'.reads hrest, Option.map_map]
  simp [Function.comp_def]

theorem name (hs : isName s = true) : Lexes s.toList [.name s] := by
  refine ⟨fun hhead => ?_, lex_name hs⟩
  obtain ⟨cs, hcs⟩ := List.head?_eq_some_iff.1 hhead
  rw [isName, hcs] at hs
  exact absurd (Bool.and_eq_true_iff.1 hs).1 (by decide)

theorem number (n : Nat) : Lexes (toString n).toList [.number n] := by
  refine ⟨fun hhead => ?_, lex_number n⟩
  have hmem : '=' ∈ Nat.toDigits 10 n := Nat.toList_repr ▸ List.mem_of_head? hhead
  have hdigit := Nat.isDigit_of_mem_toDigits (by decide) (by decide) hmem
  exact absurd hdigit (by decide)

theorem quoted (s : String) : Lexes (Text.quoted s).toList [.quoted s] :=
  ⟨by simp [Text.quoted], fun {rest} _ => lex_quoted s rest⟩

theorem mark_cons (m : Mark) (h : Lexes cs ts) : Lexes (m.char :: cs) (.mark m :: ts) := by
  refine ⟨?_, fun {rest} hrest => ?_⟩
  · cases m <;> simp [Mark.char]
  · rw [List.cons_append, lex_mark, h.reads hrest, Option.map_map]
    rfl

theorem blank_cons (h : Lexes cs ts) : Lexes (' ' :: cs) ts :=
  ⟨by simp, fun {rest} hrest => by rw [List.cons_append, lex_blank, h.reads hrest]⟩

/-- The text between two marks. -/
theorem enclosed (h : Lexes cs ts) (m m' : Mark) :
    Lexes (m.char :: (cs ++ [m'.char])) (.mark m :: (ts ++ [.mark m'])) :=
  (h.append (m'.ends []) (Lexes.nil.mark_cons m')).mark_cons m

/-- An operator may stand right before the text. -/
theorem reads_operator (hs : s ∈ operators) (h : Lexes cs ts) (hrest : Ends rest) :
    lex (s.toList ++ cs ++ rest) = (lex rest).map ((.operator s :: ts) ++ ·) := by
  have hhead : (cs ++ rest).head? ≠ some '=' := h.head_append fun hrest' => (hrest _ hrest').2 rfl
  rw [List.append_assoc, lex_operator hs hhead, h.reads hrest, Option.map_map]
  rfl

theorem unary_append (op : UnaryOp) (h : Lexes cs ts) :
    Lexes (op.symbol.toList ++ cs) (.operator op.symbol :: ts) := by
  refine ⟨?_, h.reads_operator op.symbol_mem_operators⟩
  cases op <;> simp [UnaryOp.symbol]

/-- An operator with blanks on both sides. -/
theorem spaced_append (hs : s ∈ operators) (h : Lexes cs ts) :
    Lexes (' ' :: (s.toList ++ ' ' :: cs)) (.operator s :: ts) := by
  refine ⟨by simp, fun {rest} hrest => ?_⟩
  rw [List.cons_append, lex_blank, h.blank_cons.reads_operator hs hrest]

end Lexes

end TreeDoc.Program
