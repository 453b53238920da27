/-
  From characters to trees.

  * `Cursor`: what is left of a text, and how many bytes came before;
  * `scanString`: the pieces of a string up to its closing quote, and
    `readPieces`, the text they spell when every surrogate is paired;
  * `scanNumber`: a numeral;
  * `scanValue`, `scanItems`, `scanEntries`: values and what follows them;
  * `Tree.ofText`: the tree of the first value of a text, and the rest of it.

  Every scanner returns a cursor that is no longer than the one it was given
  (`scanString_length_le`, …), which is why scanning ends.
-/
import TreeDoc.Json.Tree

namespace TreeDoc.Json

/-! ## Cursors -/

/-- What is left of a text, and how many bytes came before it. -/
structure Cursor where
  rest : List Char
  offset : Nat
deriving Repr, DecidableEq

/-- How many bytes the characters take. -/
def byteSize (cs : List Char) : Nat := cs.foldl (fun n c => n + c.utf8Size) 0

/-- The four characters that may stand between tokens. -/
def isBlank (c : Char) : Bool := c = ' ' || c = '\n' || c = '\t' || c = '\r'

/-- The cursor after the blanks at its beginning. -/
def skipBlanks : List Char → Nat → Cursor
  | [], o => ⟨[], o⟩
  | c :: cs, o => if isBlank c then skipBlanks cs (o + 1) else ⟨c :: cs, o⟩

theorem skipBlanks_length_le (cs : List Char) (o : Nat) :
    (skipBlanks cs o).rest.length ≤ cs.length := by
  induction cs generalizing o with
  | nil => simp [skipBlanks]
  | cons c cs ih =>
    simp only [skipBlanks]
    split
    · exact Nat.le_succ_of_le (ih _)
    · simp

theorem length_lt_of_skipBlanks {cs r : List Char} {c : Char} {o p : Nat}
    (h : skipBlanks cs o = ⟨c :: r, p⟩) : r.length < cs.length := by
  have := skipBlanks_length_le cs o
  rw [h] at this
  exact this

/-! ## Words -/

/-- The cursor after the letters of a word. -/
def scanWord : List Char → List Char → Nat → Except Fault Cursor
  | [], cs, o => .ok ⟨cs, o⟩
  | _ :: _, [], o => .error ⟨.endOfValue, o⟩
  | w :: ws, c :: cs, o => if c = w then scanWord ws cs (o + 1) else .error ⟨.expectedIdent, o + 1⟩

theorem scanWord_length_le {ws cs : List Char} {o : Nat} {e : Cursor}
    (h : scanWord ws cs o = .ok e) : e.rest.length ≤ cs.length := by
  fun_induction scanWord ws cs o with
  | case1 => cases h; exact Nat.le_refl _
  | case2 => cases h
  | case3 _ _ _ _ ih => exact Nat.le_succ_of_le (ih h)
  | case4 => cases h

/-! ## Strings -/

/-- A piece of a string: a character that stands for itself, a character
    written by a short escape, or a UTF-16 unit written in hexadecimal. -/
inductive Piece where
  | plain (c : Char)
  | escaped (c : Char)
  | unit (n : Nat)
deriving Repr, DecidableEq

/-- The value of a hexadecimal digit. -/
def hexDigit? (c : Char) : Option Nat :=
  if '0' ≤ c && c ≤ '9' then some (c.toNat - '0'.toNat)
  else if 'a' ≤ c && c ≤ 'f' then some (c.toNat - 'a'.toNat + 10)
  else if 'A' ≤ c && c ≤ 'F' then some (c.toNat - 'A'.toNat + 10)
  else none

/-- The value of four hexadecimal digits. -/
def hexUnit? (a b c d : Char) : Option Nat := do
  let a ← hexDigit? a
  let b ← hexDigit? b
  let c ← hexDigit? c
  let d ← hexDigit? d
  return ((a * 16 + b) * 16 + c) * 16 + d

/-- The character written by a short escape. -/
def shortEscape? : Char → Option Char
  | '"' => some '"'
  | '\\' => some '\\'
  | '/' => some '/'
  | 'b' => some '\x08'
  | 'f' => some '\x0c'
  | 'n' => some '\n'
  | 'r' => some '\r'
  | 't' => some '\t'
  | _ => none

/-- The fault of an escape whose four bytes from `cs` on are no hexadecimal
    digits. -/
def hexFault (cs : List Char) (o : Nat) : Fault :=
  if byteSize cs < 4 then ⟨.endOfString, o + byteSize cs⟩ else ⟨.invalidEscape, o + 4⟩

/-- The pieces of a string after its opening quote, each with the offset after
    it, and the cursor after the closing quote or the fault that is met. -/
def scanString : List Char → Nat → List (Piece × Nat) × Except Fault Cursor
  | [], o => ([], .error ⟨.endOfString, o⟩)
  | '"' :: cs, o => ([], .ok ⟨cs, o + 1⟩)
  | '\\' :: [], o => ([], .error ⟨.endOfString, o + 1⟩)
  | '\\' :: 'u' :: a :: b :: c :: d :: cs, o =>
    match hexUnit? a b c d with
    | some n => let (ps, e) := scanString cs (o + 6); ((.unit n, o + 6) :: ps, e)
    | none => ([], .error (hexFault (a :: b :: c :: d :: cs) (o + 2)))
  | '\\' :: 'u' :: cs, o => ([], .error (hexFault cs (o + 2)))
  | '\\' :: c :: cs, o =>
    match shortEscape? c with
    | some c => let (ps, e) := scanString cs (o + 2); ((.escaped c, o + 2) :: ps, e)
    | none => ([], .error ⟨.invalidEscape, o + 2⟩)
  | c :: cs, o =>
    if c < ' ' then ([], .error ⟨.controlCharacter, o + 1⟩)
    else
      let (ps, e) := scanString cs (o + c.utf8Size)
      ((.plain c, o + c.utf8Size) :: ps, e)

theorem scanString_length_le {cs : List Char} {o : Nat} {ps : List (Piece × Nat)} {e : Cursor}
    (h : scanString cs o = (ps, .ok e)) : e.rest.length ≤ cs.length := by
  fun_induction scanString cs o generalizing ps e with
  | case2 => cases h; simp
  | case4 | case7 | case10 =>
    rename_i hs ih
    cases h
    have := ih hs
    simp only [List.length_cons]
    omega
  | _ => cases h

/-- The unit is the first half of a pair. -/
def isLead (n : Nat) : Bool := 0xD800 ≤ n && n ≤ 0xDBFF

/-- The unit is the second half of a pair. -/
def isTrail (n : Nat) : Bool := 0xDC00 ≤ n && n ≤ 0xDFFF

/-- The fault of a first half at whose end, the offset `o`, the string stops. -/
def halfFault (o : Nat) : Except Fault Cursor → Fault
  | .ok _ => ⟨.unfinishedSurrogate, o + 1⟩
  | .error f =>
    if f.defect ≠ .endOfString ∧ f.offset ≤ o + 2 then ⟨.unfinishedSurrogate, f.offset⟩ else f

/-- The characters that the pieces spell. Every unit that is half of a pair
    must stand in one. -/
def readPieces (close : Except Fault Cursor) : List (Piece × Nat) → Except Fault (List Char)
  | [] =>
    match close with
    | .ok _ => .ok []
    | .error f => .error f
  | (.plain c, _) :: ps | (.escaped c, _) :: ps => (readPieces close ps).map (c :: ·)
  | (.unit n, o) :: ps =>
    if isTrail n then .error ⟨.loneSurrogate, o⟩
    else if isLead n then
      match ps with
      | [] => .error (halfFault o close)
      | (.plain _, _) :: _ => .error ⟨.unfinishedSurrogate, o + 1⟩
      | (.escaped _, _) :: _ => .error ⟨.unfinishedSurrogate, o + 2⟩
      | (.unit n', o') :: ps' =>
        if isTrail n' then
          let c := Char.ofNat ((n - 0xD800) * 0x400 + (n' - 0xDC00) + 0x10000)
          (readPieces close ps').map (c :: ·)
        else .error ⟨.loneSurrogate, o'⟩
    else (readPieces close ps).map (Char.ofNat n :: ·)

/-- The text of a string. -/
def readString (ps : List (Piece × Nat)) (close : Except Fault Cursor) : Except Fault String :=
  (readPieces close ps).map String.ofList

/-! ## Numbers -/

/-- The character is a decimal digit. -/
def isDigit (c : Char) : Bool := '0' ≤ c && c ≤ '9'

/-- The digits at the beginning, and the cursor after them. -/
def scanDigits : List Char → Nat → List Nat × Cursor
  | [], o => ([], ⟨[], o⟩)
  | c :: cs, o =>
    if isDigit c then
      let (ds, e) := scanDigits cs (o + 1)
      ((c.toNat - '0'.toNat) :: ds, e)
    else ([], ⟨c :: cs, o⟩)

theorem scanDigits_length_le (cs : List Char) (o : Nat) :
    (scanDigits cs o).2.rest.length ≤ cs.length := by
  induction cs generalizing o with
  | nil => simp [scanDigits]
  | cons c cs ih =>
    simp only [scanDigits]
    split
    · exact Nat.le_succ_of_le (ih _)
    · simp

/-- The faults of a value that can be neither read nor skipped. -/
structure Faults where
  reading : Fault
  skipping : Fault
deriving Repr, DecidableEq

/-- The faults of a numeral that stops before a digit: reading tells the end of
    the text from another character, skipping does not. -/
def digitFaults (cs : List Char) (o : Nat) : Faults :=
  match cs with
  | [] => ⟨⟨.endOfValue, o⟩, ⟨.invalidNumber, o⟩⟩
  | _ :: _ => ⟨⟨.invalidNumber, o + 1⟩, ⟨.invalidNumber, o + 1⟩⟩

/-- The integer digits: a zero alone, or digits that do not begin with zero. -/
def scanWhole (cs : List Char) (o : Nat) : Except Faults (List Nat × Cursor) :=
  match scanDigits cs o with
  | ([], e) => .error (digitFaults e.rest e.offset)
  | (0 :: _ :: _, _) => .error ⟨⟨.invalidNumber, o + 2⟩, ⟨.invalidNumber, o + 2⟩⟩
  | (ds, e) => .ok (ds, e)

theorem scanDigits_length_lt {cs : List Char} {o d : Nat} {ds : List Nat} {e : Cursor}
    (h : scanDigits cs o = (d :: ds, e)) : e.rest.length < cs.length := by
  cases cs with
  | nil => simp [scanDigits] at h
  | cons c cs =>
    have := scanDigits_length_le cs (o + 1)
    simp only [scanDigits] at h
    split at h
    · cases h; simpa using Nat.lt_succ_of_le this
    · cases h

theorem scanWhole_length_lt {cs : List Char} {o : Nat} {ds : List Nat} {e : Cursor}
    (h : scanWhole cs o = .ok (ds, e)) : e.rest.length < cs.length := by
  unfold scanWhole at h
  split at h
  · cases h
  · cases h
  · rename_i hne _ hd
    cases h
    match ds with
    | [] => exact (hne rfl).elim
    | d :: ds => exact scanDigits_length_lt hd

/-- The fraction digits after a point, if a point follows. -/
def scanFraction (cs : List Char) (o : Nat) : Except Faults (Option (List Nat) × Cursor) :=
  match cs with
  | '.' :: cs =>
    match scanDigits cs (o + 1) with
    | ([], e) => .error (digitFaults e.rest e.offset)
    | (ds, e) => .ok (some ds, e)
  | _ => .ok (none, ⟨cs, o⟩)

theorem scanFraction_length_le {cs : List Char} {o : Nat} {ds : Option (List Nat)} {e : Cursor}
    (h : scanFraction cs o = .ok (ds, e)) : e.rest.length ≤ cs.length := by
  unfold scanFraction at h
  split at h
  · rename_i cs'
    have := scanDigits_length_le cs' (o + 1)
    split at h <;> simp_all
    omega
  · cases h; simp

/-- The sign of an exponent, and the cursor after it. -/
def scanSign : List Char → Nat → Bool × Cursor
  | '+' :: cs, o => (false, ⟨cs, o + 1⟩)
  | '-' :: cs, o => (true, ⟨cs, o + 1⟩)
  | cs, o => (false, ⟨cs, o⟩)

theorem scanSign_length_le (cs : List Char) (o : Nat) :
    (scanSign cs o).2.rest.length ≤ cs.length := by
  unfold scanSign
  split <;> simp

/-- The digits of an exponent after its mark and sign, with their offset. -/
def scanPower (cs : List Char) (o : Nat) : Except Faults (Exponent × Nat × Cursor) :=
  let (negative, s) := scanSign cs o
  match scanDigits s.rest s.offset with
  | ([], e) => .error (digitFaults e.rest e.offset)
  | (ds, e) => .ok (⟨negative, ds⟩, s.offset, e)

theorem scanPower_length_le {cs : List Char} {o p : Nat} {x : Exponent} {e : Cursor}
    (h : scanPower cs o = .ok (x, p, e)) : e.rest.length ≤ cs.length := by
  have h1 := scanSign_length_le cs o
  have h2 := scanDigits_length_le (scanSign cs o).2.rest (scanSign cs o).2.offset
  unfold scanPower at h
  simp only at h
  split at h <;> simp_all
  omega

/-- The exponent after its mark, if a mark follows, with the offset of its
    digits. -/
def scanExponent (cs : List Char) (o : Nat) : Except Faults (Option Exponent × Nat × Cursor) :=
  match cs with
  | c :: cs' =>
    if c = 'e' || c = 'E' then
      match scanPower cs' (o + 1) with
      | .error f => .error f
      | .ok (x, p, e) => .ok (some x, p, e)
    else .ok (none, o, ⟨cs, o⟩)
  | [] => .ok (none, o, ⟨cs, o⟩)

theorem scanExponent_length_le {cs : List Char} {o p : Nat} {x : Option Exponent} {e : Cursor}
    (h : scanExponent cs o = .ok (x, p, e)) : e.rest.length ≤ cs.length := by
  unfold scanExponent at h
  split at h
  · split at h
    · split at h
      · cases h
      · rename_i hp
        cases h
        exact Nat.le_succ_of_le (scanPower_length_le hp)
    · cases h; simp
  · cases h; simp

/-- A numeral after its sign: what it denotes, and the cursor after it. -/
def scanNumber (negative : Bool) (cs : List Char) (o : Nat) :
    Except Faults (Except Fault Number × Cursor) :=
  match scanWhole cs o with
  | .error f => .error f
  | .ok (whole, e) =>
    match scanFraction e.rest e.offset with
    | .error f => .error f
    | .ok (fraction, e) =>
      match scanExponent e.rest e.offset with
      | .error f => .error f
      | .ok (exponent, digitsAt, e) =>
        let n : Numeral := { negative, whole, fraction, exponent }
        .ok (n.read digitsAt e.offset, e)

theorem scanNumber_length_lt {negative : Bool} {cs : List Char} {o : Nat}
    {r : Except Fault Number} {e : Cursor} (h : scanNumber negative cs o = .ok (r, e)) :
    e.rest.length < cs.length := by
  unfold scanNumber at h
  split at h
  · cases h
  · rename_i h1
    split at h
    · cases h
    · rename_i h2
      split at h
      · cases h
      · rename_i h3
        cases h
        have := scanExponent_length_le h3
        have := scanFraction_length_le h2
        have := scanWhole_length_lt h1
        omega

/-! ## Values -/

/-- A cursor with at most `n` characters left. -/
abbrev Within (n : Nat) := { e : Cursor // e.rest.length ≤ n }

/-- The end of the text, which is where every fault leaves the scanner. -/
def Within.ended {n : Nat} (o : Nat) : Within n := ⟨⟨[], o⟩, Nat.zero_le _⟩

/-- The rest of a word that begins at the offset `start`, and the tree it
    denotes given the offsets around it. -/
def scanConstant (word : String) (tree : Nat → Nat → Tree) (cs : List Char) (start : Nat) :
    Tree × Within cs.length :=
  match h : scanWord word.toList cs (start + 1) with
  | .ok e => (tree start e.offset, ⟨e, scanWord_length_le h⟩)
  | .error f => (.broken f f start, .ended f.offset)

/-- A negative number whose sign is at the offset `start`. -/
def scanNegative (cs : List Char) (start : Nat) : Tree × Within cs.length :=
  match h : scanNumber true cs (start + 1) with
  | .ok (r, e) => (.number r start e.offset, ⟨e, Nat.le_of_lt (scanNumber_length_lt h)⟩)
  | .error f => (.broken f.reading f.skipping start, .ended f.reading.offset)

/-- A number that begins with the digit `c` at the offset `start`. -/
def scanPositive (c : Char) (cs : List Char) (start : Nat) : Tree × Within cs.length :=
  match h : scanNumber false (c :: cs) start with
  | .ok (r, e) => (.number r start e.offset, ⟨e, Nat.le_of_lt_succ (scanNumber_length_lt h)⟩)
  | .error f => (.broken f.reading f.skipping start, .ended f.reading.offset)

/-- The fault of a string that is passed over and not read: a control character
    is then seen but not counted. -/
def Fault.passing (f : Fault) : Fault :=
  if f.defect = .controlCharacter then { f with offset := f.offset - 1 } else f

/-- A string, after its opening quote: its text and the cursor after it, or the
    faults of a string that does not end. -/
def scanText (cs : List Char) (o : Nat) :
    Except Faults (Except Fault String × Within cs.length) :=
  match h : scanString cs o with
  | (ps, .ok e) => .ok (readString ps (.ok e), ⟨e, scanString_length_le h⟩)
  | (ps, .error f) =>
    match readString ps (.error f) with
    | .ok _ => .error ⟨f, f.passing⟩
    | .error g => .error ⟨g, f.passing⟩

/-- A string value whose opening quote is at the offset `start`. -/
def scanStringValue (cs : List Char) (start : Nat) : Tree × Within cs.length :=
  match scanText cs (start + 1) with
  | .ok (r, e) => (.string r start e.val.offset, e)
  | .error f => (.broken f.reading f.skipping start, .ended f.reading.offset)

mutual

/-- The value that begins with the character `c`, which is not blank. -/
def scanValue (c : Char) (cs : List Char) (o : Nat) : Tree × Within cs.length :=
  if c = 'n' then scanConstant "ull" .null cs o
  else if c = 't' then scanConstant "rue" (.bool true) cs o
  else if c = 'f' then scanConstant "alse" (.bool false) cs o
  else if c = '-' then scanNegative cs o
  else if isDigit c then scanPositive c cs o
  else if c = '"' then scanStringValue cs o
  else if c = '[' then
    let (items, e) := scanItems true cs (o + 1)
    (.array o items, e)
  else if c = '{' then
    let (entries, e) := scanEntries true cs (o + 1)
    (.object o entries, e)
  else (.broken ⟨.expectedValue, o + 1⟩ ⟨.expectedValue, o + 1⟩ o, .ended (o + 1))
termination_by 4 * cs.length + 3

/-- What follows the opening bracket, or an element, of an array. -/
def scanItems (first : Bool) (cs : List Char) (o : Nat) : Items × Within cs.length :=
  match h : skipBlanks cs o with
  | ⟨[], p⟩ => (.finished p, .ended p)
  | ⟨c :: r, p⟩ =>
    have hr := length_lt_of_skipBlanks h
    if c = ']' then (.close p, ⟨⟨r, p + 1⟩, by simp; omega⟩)
    else if first then
      let (value, e) := scanValue c r p
      let (rest, e') := scanItems false e.val.rest e.val.offset
      (.item p value rest, ⟨e'.val, by have := e.property; have := e'.property; omega⟩)
    else if c = ',' then
      match h' : skipBlanks r (p + 1) with
      | ⟨[], q⟩ => (.cut q, .ended q)
      | ⟨d :: s, q⟩ =>
        have hs := length_lt_of_skipBlanks h'
        if d = ']' then (.dangling q, .ended q)
        else
          let (value, e) := scanValue d s q
          let (rest, e') := scanItems false e.val.rest e.val.offset
          (.item q value rest, ⟨e'.val, by have := e.property; have := e'.property; omega⟩)
    else (.stray p, .ended p)
termination_by 4 * cs.length + 2
decreasing_by all_goals (try have := e.property); omega

/-- A key after its opening quote, its colon, its value and what follows. -/
def scanEntry (lead : Nat) (cs : List Char) (o : Nat) : Entries × Within cs.length :=
  match scanText cs o with
  | .error f => (.brokenKey lead f.reading f.skipping, .ended f.reading.offset)
  | .ok (key, e) =>
    match h : skipBlanks e.val.rest e.val.offset with
    | ⟨[], p⟩ => (.colonless lead key p none, .ended p)
    | ⟨c :: r, p⟩ =>
      have hr := Nat.lt_of_lt_of_le (length_lt_of_skipBlanks h) e.property
      if c = ':' then
        match h' : skipBlanks r (p + 1) with
        | ⟨[], q⟩ =>
          (.entry lead key p (.broken ⟨.endOfValue, q⟩ ⟨.endOfValue, q⟩ q) (.finished q), .ended q)
        | ⟨d :: s, q⟩ =>
          have hs := length_lt_of_skipBlanks h'
          let (value, e) := scanValue d s q
          let (rest, e') := scanEntries false e.val.rest e.val.offset
          (.entry lead key p value rest,
            ⟨e'.val, by have := e.property; have := e'.property; omega⟩)
      else (.colonless lead key p (some c), .ended p)
termination_by 4 * cs.length + 3
decreasing_by all_goals (try have := e.property); omega

/-- What follows the opening brace, or a value, of an object. -/
def scanEntries (first : Bool) (cs : List Char) (o : Nat) : Entries × Within cs.length :=
  match h : skipBlanks cs o with
  | ⟨[], p⟩ => (.finished p, .ended p)
  | ⟨c :: r, p⟩ =>
    have hr := length_lt_of_skipBlanks h
    if c = '}' then (.close p, ⟨⟨r, p + 1⟩, by simp; omega⟩)
    else if first then
      if c = '"' then
        let (entries, e) := scanEntry p r (p + 1)
        (entries, ⟨e.val, by have := e.property; omega⟩)
      else (.keyless p p, .ended p)
    else if c = ',' then
      match h' : skipBlanks r (p + 1) with
      | ⟨[], q⟩ => (.cut p q, .ended q)
      | ⟨d :: s, q⟩ =>
        have hs := length_lt_of_skipBlanks h'
        if d = '"' then
          let (entries, e) := scanEntry p s (q + 1)
          (entries, ⟨e.val, by have := e.property; omega⟩)
        else if d = '}' then (.dangling p q, .ended q)
        else (.keyless p q, .ended q)
    else (.stray p, .ended p)
termination_by 4 * cs.length + 2
decreasing_by all_goals omega

end

/-- The first value of a text, and what follows it. -/
def Tree.ofText (text : String) : Tree × Cursor :=
  match skipBlanks text.toList 0 with
  | ⟨[], p⟩ => (.broken ⟨.endOfValue, p⟩ ⟨.endOfValue, p⟩ p, ⟨[], p⟩)
  | ⟨c :: cs, p⟩ =>
    let (t, e) := scanValue c cs p
    (t, e.val)

end TreeDoc.Json
