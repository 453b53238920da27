/-
  Regular expressions read from text.

  * `Flags`: what changes the meaning of what follows in a group;
  * `Reader`: what is left of the text, the flags in force and the names of the
    groups so far;
  * `escape`, `charClass`, `parseItems`: escapes, bracketed classes, and
    everything else;
  * `Regex.parse?`: the expression that a text writes, if it writes one.
-/
import TreeDoc.Regex.Basic

namespace TreeDoc.Regex

/-! ## Reading -/

/-- What changes the meaning of what follows in a group. -/
structure Flags where
  ignoreCase : Bool := false
  multiLine : Bool := false
  dotAll : Bool := false
  verbose : Bool := false
deriving Repr, DecidableEq

/-- What is left of the text, the flags in force and the names of the groups so
    far. -/
structure State where
  rest : List Char
  flags : Flags := {}
  names : List String := []
deriving Repr, DecidableEq

/-- Readers, which may refuse the text. -/
abbrev Reader := StateT State Option

/-- The next character, unless the text is at its end. -/
def peek? : Reader (Option Char) := do return (← get).rest.head?

/-- Passes over the next character. -/
def skip : Reader Unit := modify fun s => { s with rest := s.rest.tail }

/-- Passes over the given characters, if they are next. -/
def accept (word : String) : Reader Bool := do
  let s ← get
  if word.toList.isPrefixOf s.rest then
    set { s with rest := s.rest.drop word.toList.length }
    return true
  else return false

/-- The next character. -/
def next : Reader Char := do
  match (← get).rest with
  | [] => failure
  | c :: cs => do
    modify fun s => { s with rest := cs }
    return c

/-- The characters up to the first one that does not fit. -/
def takeWhile (fits : Char → Bool) : Reader (List Char) := do
  let s ← get
  set { s with rest := s.rest.dropWhile fits }
  return s.rest.takeWhile fits

/-- A set of characters under the flags in force. -/
def leaf (set : CharSet) : Reader CharSet := do
  return if (← get).flags.ignoreCase then .folded set else set

/-! ## Escapes -/

/-- What an escape stands for. -/
inductive Escape where
  | char (c : Char)
  | set (set : CharSet)
  | look (condition : Look)
deriving Repr, DecidableEq

/-- The value of a hexadecimal digit. -/
def hexValue? (c : Char) : Option Nat :=
  if '0' ≤ c && c ≤ '9' then some (c.toNat - '0'.toNat)
  else if 'a' ≤ c && c ≤ 'f' then some (c.toNat - 'a'.toNat + 10)
  else if 'A' ≤ c && c ≤ 'F' then some (c.toNat - 'A'.toNat + 10)
  else none

/-- The character with a hexadecimal number. -/
def hexChar (digits : List Char) : Reader Char := do
  if digits.isEmpty then failure
  match digits.mapM hexValue? with
  | none => failure
  | some ds =>
    let n := ds.foldl (fun n d => n * 16 + d) 0
    if n.isValidChar then return Char.ofNat n else failure

/-- A hexadecimal number in braces, or with `width` digits. -/
def hexEscape (width : Nat) : Reader Char := do
  if ← accept "\x7b" then
    let digits ← takeWhile (· ≠ '\x7d')
    if ← accept "\x7d" then hexChar digits else failure
  else
    let s ← get
    if s.rest.length < width then failure
    set { s with rest := s.rest.drop width }
    hexChar (s.rest.take width)

/-- The letters of all scripts. -/
def letters : CharSet := .diff .word (.union .digit (.single '_'))

/-- The properties of characters that have a name. -/
def properties : List (String × CharSet) :=
  let upper := CharSet.union (.range 'A' 'Z') (.union (.range 'À' 'Ö') (.range 'Ø' 'Þ'))
  let lower := CharSet.union (.range 'a' 'z') (.union (.range 'ß' 'ö') (.range 'ø' 'ÿ'))
  [("L", letters), ("Letter", letters), ("Alphabetic", letters), ("N", .digit), ("Nd", .digit),
    ("Lu", upper), ("Uppercase", upper), ("Ll", lower), ("Lowercase", lower),
    ("White_Space", .space)]

/-- A property of characters after its letter: one letter, or a name in
    braces. -/
def propertyEscape : Reader CharSet := do
  if ← accept "\x7b" then
    let negated ← accept "^"
    let name ← takeWhile (· ≠ '\x7d')
    unless ← accept "\x7d" do failure
    match properties.lookup (String.ofList name) with
    | some set => return if negated then .compl set else set
    | none => failure
  else
    match properties.lookup (← next).toString with
    | some set => return set
    | none => failure

/-- The special words after a boundary. -/
def boundaryWords : List (String × Look) :=
  [("\x7bstart\x7d", .wordStart), ("\x7bend\x7d", .wordEnd)]

/-- The letters that stand for one character after a backslash. -/
def letterEscapes : List (Char × Char) :=
  [('a', '\x07'), ('f', '\x0c'), ('t', '\t'), ('n', '\n'), ('r', '\r'), ('v', '\x0b')]

/-- An escape after its backslash. -/
def escape : Reader Escape := do
  let c ← next
  match c with
  | 'd' => return .set .digit
  | 'D' => return .set (.compl .digit)
  | 's' => return .set .space
  | 'S' => return .set (.compl .space)
  | 'w' => return .set .word
  | 'W' => return .set (.compl .word)
  | 'p' => return .set (← propertyEscape)
  | 'P' => return .set (.compl (← propertyEscape))
  | 'x' => return .char (← hexEscape 2)
  | 'u' => return .char (← hexEscape 4)
  | 'U' => return .char (← hexEscape 8)
  | 'A' => return .look .textStart
  | 'z' => return .look .textEnd
  | 'B' => return .look .noBoundary
  | '<' => return .look .wordStart
  | '>' => return .look .wordEnd
  | 'b' =>
    for (word, condition) in boundaryWords do
      if ← accept word then return .look condition
    return .look .boundary
  | _ =>
    match letterEscapes.lookup c with
    | some d => return .char d
    | none => if c.toNat < 0x80 && !c.isAlphanum then return .char c else failure

/-! ## Bracketed classes -/

/-- The named classes of ASCII characters. -/
def namedClasses : List (String × CharSet) :=
  let lower := CharSet.range 'a' 'z'
  let upper := CharSet.range 'A' 'Z'
  let digits := CharSet.range '0' '9'
  let alpha := CharSet.union lower upper
  let alnum := CharSet.union alpha digits
  let graph := CharSet.range '!' '~'
  [("alnum", alnum), ("alpha", alpha), ("ascii", .range '\x00' '\x7f'),
    ("blank", .union (.single ' ') (.single '\t')),
    ("cntrl", .union (.range '\x00' '\x1f') (.single '\x7f')), ("digit", digits), ("graph", graph),
    ("lower", lower), ("print", .range ' ' '~'), ("punct", .diff graph alnum),
    ("space", .union (.range '\t' '\r') (.single ' ')), ("upper", upper),
    ("word", .union alnum (.single '_')),
    ("xdigit", .union digits (.union (.range 'a' 'f') (.range 'A' 'F')))]

/-- A named class after its opening bracket, if there is one. -/
def namedClass? : Reader (Option CharSet) := do
  let start ← get
  if ← accept ":" then
    let negated ← accept "^"
    let name := String.ofList (← takeWhile (· ≠ ':'))
    if ← accept ":]" then
      match namedClasses.lookup name with
      | some set => return some (if negated then .compl set else set)
      | none => pure ()
  set start
  return none

/-- A character or escape inside a bracketed class. -/
def classItem : Reader Escape := do
  let c ← next
  if c = '\\' then escape else return .char c

/-- A character, a range or an escape inside a bracketed class. -/
def classRange : Reader CharSet := do
  let first ← classItem
  match (← get).rest with
  | [] => failure
  | '-' :: c :: _ =>
    if c = ']' || c = '-' then single first
    else do
      skip
      let last ← classItem
      match first, last with
      | .char a, .char b => if a ≤ b then leaf (.range a b) else failure
      | _, _ => failure
  | _ => single first
where
  /-- A character or escape that begins no range. -/
  single : Escape → Reader CharSet
    | .char c => leaf (.single c)
    | .set s => return s
    | .look _ => failure

/-- The operations between the parts of a bracketed class. -/
inductive SetOp where
  | inter
  | diff
  | symmDiff
deriving Repr, DecidableEq

/-- The result of an operation. -/
def SetOp.apply (a b : CharSet) : SetOp → CharSet
  | inter => .inter a b
  | diff => .diff a b
  | symmDiff => .union (.diff a b) (.diff b a)

/-- What was read of a class: the part before the last operation, with that
    operation, and the sets after it. -/
structure ClassState where
  left : Option (CharSet × SetOp) := none
  sets : List CharSet := []

/-- The class that was read. -/
def ClassState.result (s : ClassState) : CharSet :=
  let right := CharSet.unions s.sets
  match s.left with
  | none => right
  | some (a, op) => op.apply a right

mutual

/-- A bracketed class after its opening bracket. -/
def charClass (fuel : Nat) : Reader CharSet :=
  match fuel with
  | 0 => failure
  | fuel + 1 => do
    let negated ← accept "^"
    let hyphens ← takeWhile (· = '-')
    let bracket ← if hyphens.isEmpty then accept "]" else pure false
    let first := hyphens.map CharSet.single ++ if bracket then [CharSet.single ']'] else []
    let set ← classBody fuel { sets := first }
    return if negated then .compl set else set

/-- The rest of a bracketed class. -/
def classBody (fuel : Nat) (s : ClassState) : Reader CharSet :=
  match fuel with
  | 0 => failure
  | fuel + 1 => do
    if ← accept "]" then return s.result
    else if ← accept "&&" then classBody fuel { left := some (s.result, .inter) }
    else if ← accept "--" then classBody fuel { left := some (s.result, .diff) }
    else if ← accept "~~" then classBody fuel { left := some (s.result, .symmDiff) }
    else if ← accept "[" then
      let set ← match ← namedClass? with
        | some set => leaf set
        | none => charClass fuel
      classBody fuel { s with sets := set :: s.sets }
    else
      let set ← classRange
      classBody fuel { s with sets := set :: s.sets }

end

/-! ## Groups -/

/-- Sets or clears the flag with a letter. -/
def Flags.put (f : Flags) (letter : Char) (on : Bool) : Option Flags :=
  match letter with
  | 'i' => some { f with ignoreCase := on }
  | 'm' => some { f with multiLine := on }
  | 's' => some { f with dotAll := on }
  | 'x' => some { f with verbose := on }
  | 'U' | 'u' | 'R' => some f
  | _ => none

/-- The letters of flags, each at most once and after at most one hyphen, which
    something must follow. -/
def flagLetters (f : Flags) (seen : List Char) (on : Bool) : List Char → Option Flags
  | [] => some f
  | ['-'] => none
  | c :: cs =>
    if c = '-' then if on then flagLetters f seen false cs else none
    else if seen.contains c then none
    else (f.put c on).bind fun f => flagLetters f (c :: seen) on cs

/-- The name of a group after its opening. -/
def groupName : Reader Unit := do
  let name ← takeWhile (· ≠ '>')
  unless ← accept ">" do failure
  match name with
  | [] => failure
  | c :: cs =>
    let letter (c : Char) := c = '_' || (isWord c && !isDigit c)
    if letter c && cs.all (fun c => letter c || isDigit c || c = '.' || c = '[' || c = ']') then
      let s ← get
      let name := String.ofList name
      if s.names.contains name then failure
      set { s with names := name :: s.names }
    else failure

/-- The ways in which a group opens. -/
inductive Opening where
  /-- The group has contents. -/
  | group
  /-- The group only sets flags for what follows. -/
  | flags
deriving Repr, DecidableEq

/-- The opening of a group after its parenthesis. Flags that it sets are in
    force from then on. -/
def opening : Reader Opening := do
  if !(← accept "?") then return .group
  if ← accept "P<" then
    groupName
    return .group
  else if ← accept "<" then
    groupName
    return .group
  else
    let letters ← takeWhile fun c => c ≠ ':' && c ≠ ')'
    match flagLetters (← get).flags [] true letters with
    | none => failure
    | some flags =>
      let c ← next
      modify fun s => { s with flags }
      if c = ':' then return .group
      else if letters.isEmpty then failure
      else return .flags

/-! ## Repetitions -/

/-- A decimal number, with blanks around it. -/
def decimal : Reader Nat := do
  let _ ← takeWhile isSpace
  let digits ← takeWhile Char.isDigit
  let _ ← takeWhile isSpace
  if digits.isEmpty then failure
  let n := digits.foldl (fun n c => n * 10 + (c.toNat - '0'.toNat)) 0
  if n < Nat.pow 2 32 then return n else failure

/-- The bounds of a counted repetition after its opening brace. -/
def bounds : Reader (Nat × Option Nat) := do
  let least ← decimal
  let most ← if ← accept "," then
      if (← peek?) = some '\x7d' then pure none else some <$> decimal
    else pure (some least)
  unless ← accept "\x7d" do failure
  match most with
  | none => return (least, none)
  | some n => if least ≤ n then return (least, some n) else failure

/-! ## Everything else -/

/-- The parts read so far of a sequence, the last one first. A part that only
    set flags cannot be repeated. -/
abbrev Parts := List (Regex × Bool)

/-- The sequence of parts. -/
def sequence (parts : Parts) : Regex := parts.foldl (fun r p => .seq p.1 r) .empty

/-- The last part, repeated. -/
def repeated (least : Nat) (most : Option Nat) : Parts → Reader Parts
  | (r, true) :: parts => do
    let _ ← accept "?"
    return (.loop r least most, true) :: parts
  | _ => failure

/-- Any character, or any but a line break. -/
def dot (flags : Flags) : CharSet :=
  if flags.dotAll then .compl .empty else .compl (.single '\n')

/-- The rest of a group, up to its closing parenthesis or the end of the text;
    `before` are the alternatives read so far. -/
def parseItems (fuel : Nat) (before : List Regex) (parts : Parts) : Reader Regex :=
  match fuel with
  | 0 => failure
  | fuel + 1 => do
    let s ← get
    match s.rest with
    | [] | ')' :: _ =>
      return before.foldl (fun r a => .alt a r) (sequence parts)
    | c :: rest =>
      set { s with rest }
      match c with
      | '|' => parseItems fuel (sequence parts :: before) []
      | '*' => do parseItems fuel before (← repeated 0 none parts)
      | '+' => do parseItems fuel before (← repeated 1 none parts)
      | '?' => do parseItems fuel before (← repeated 0 (some 1) parts)
      | '\x7b' => do
        let (least, most) ← bounds
        parseItems fuel before (← repeated least most parts)
      | '(' => do
        match ← opening with
        | .flags => parseItems fuel before ((.empty, false) :: parts)
        | .group => do
          let r ← parseItems fuel [] []
          unless ← accept ")" do failure
          modify fun t => { t with flags := s.flags }
          parseItems fuel before ((r, true) :: parts)
      | '[' => do
        let set ← charClass fuel
        parseItems fuel before ((.chars set, true) :: parts)
      | '.' => parseItems fuel before ((.chars (dot s.flags), true) :: parts)
      | '^' =>
        let condition := if s.flags.multiLine then Look.lineStart else .textStart
        parseItems fuel before ((.look condition, true) :: parts)
      | '$' =>
        let condition := if s.flags.multiLine then Look.lineEnd else .textEnd
        parseItems fuel before ((.look condition, true) :: parts)
      | '\\' => do
        let r ← match ← escape with
          | .char c => Regex.chars <$> leaf (.single c)
          | .set s => pure (.chars s)
          | .look l => pure (.look l)
        parseItems fuel before ((r, true) :: parts)
      | c =>
        if s.flags.verbose && isSpace c then parseItems fuel before parts
        else if s.flags.verbose && c = '#' then do
          let _ ← takeWhile (· ≠ '\n')
          parseItems fuel before parts
        else do
          let set ← leaf (.single c)
          parseItems fuel before ((.chars set, true) :: parts)

/-- The expression that a text writes, if it writes one. -/
def parse? (text : String) : Option Regex :=
  match (parseItems (2 * text.length + 2) [] []).run { rest := text.toList } with
  | some (r, { rest := [], .. }) => some r
  | _ => none

end TreeDoc.Regex
