/-
  Reading shapes from trees.

  A structure is written as an object or as an array of its fields. Statements
  and expressions carry a tag besides their fields; the whole of such a node is
  read first, and its fields are taken from what was read, so failures in them
  belong to the outermost node and have no place of their own.

  * `Source`: where a tree comes from, which decides on limits, places, paths
    and some wordings;
  * `Tree.read`: a tree read in full as a plain value;
  * `decode`: a tree read as a shape;
  * `readText`, `readFirst`: the value of a text, or of its beginning;
  * `decodeText`, `decodeFirst`, `decodeValue`: texts, their beginnings and
    values read as a shape.
-/
import TreeDoc.Decode.Failure
import TreeDoc.Decode.Layouts
import TreeDoc.Json.Scan

namespace TreeDoc.Decode

open Json Program

/-! ## Sources -/

/-- Where a tree comes from. -/
inductive Source where
  /-- A text that is being read; `levels` more arrays and objects may open
      inside one another. -/
  | text (levels : Nat)
  /-- A plain value. -/
  | value
  /-- A node that has been read in full. -/
  | buffered
deriving Repr, DecidableEq

namespace Source

/-- The offset of a failure: only texts have places. -/
def place (src : Source) (offset : Nat) : Option Nat :=
  match src with
  | .text _ => some offset
  | _ => none

/-- The source inside the array or object that opens at an offset. -/
def enter (src : Source) (start : Nat) : Except Failure Source :=
  match src with
  | .text 0 => .error (.ofFault ⟨.tooDeep, start + 1⟩)
  | .text (n + 1) => .ok (.text n)
  | src => .ok src

/-- A failure at an offset. -/
def failure (src : Source) (cause : Cause) (offset : Nat) : Failure :=
  { cause, offset := src.place offset }

/-- The failure of a part, seen from the whole: the step to the part is added
    to its path, and a failure without a place gets the offset `resume`. Inside
    a buffered node there are neither paths nor places. -/
def within (src : Source) (step : Step) (resume : Nat) (f : Failure) : Failure :=
  match src with
  | .text _ => (f.under step).placed resume
  | .value => f.under step
  | .buffered => f

end Source

/-! ## Reading in full -/

mutual

/-- The value of a tree, if all of it can be read and at most `levels` arrays
    and objects open inside one another. -/
def Tree.read (levels : Nat) : Tree → Except Failure Value
  | .null _ _ => .ok .null
  | .bool b _ _ => .ok (.bool b)
  | .number r _ _ => (r.mapError .ofFault).map .number
  | .string r _ _ => (r.mapError .ofFault).map .string
  | .array start items =>
    match levels with
    | 0 => .error (.ofFault ⟨.tooDeep, start + 1⟩)
    | n + 1 => (readItems n 0 items).map .array
  | .object start entries =>
    match levels with
    | 0 => .error (.ofFault ⟨.tooDeep, start + 1⟩)
    | n + 1 => (readEntries n entries).map .object
  | .broken f _ _ => .error (.ofFault f)

/-- The values of the rest of an array, whose next index is `i`. -/
def readItems (levels i : Nat) : Items → Except Failure (List Value)
  | .close _ => .ok []
  | .item _ value rest => do
    let v ← (Tree.read levels value).mapError (.under (.index i))
    let vs ← readItems levels (i + 1) rest
    return v :: vs
  | items => .error (.ofFault items.fault)

/-- The entries of the rest of an object. -/
def readEntries (levels : Nat) : Entries → Except Failure (List (String × Value))
  | .close _ => .ok []
  | .entry _ (.ok k) _ value rest => do
    let v ← (Tree.read levels value).mapError (.under (.key k))
    let es ← readEntries levels rest
    return (k, v) :: es
  | .colonless _ (.ok _) place found => .error (.ofFault (colonFault place found))
  | entries => .error ((Failure.ofFault entries.fault).under .unknown)

end

/-! ## Scalars -/

/-- The failure of a tree in place of something else: a scalar is read first,
    and an array or object is not entered. -/
def mismatch (src : Source) (expected : String) : Tree → Failure
  | .null _ stop => src.failure (.invalidType .null expected) stop
  | .bool b _ stop => src.failure (.invalidType (.bool b) expected) stop
  | .number (.ok n) _ stop => src.failure (.invalidType (.number n) expected) stop
  | .string (.ok s) _ stop => src.failure (.invalidType (.string s) expected) stop
  | .array start _ => src.failure (.invalidType .sequence expected) start
  | .object start _ => src.failure (.invalidType .map expected) start
  | .number (.error f) _ _ | .string (.error f) _ _ | .broken f _ _ => .ofFault f

/-- A string. -/
def decodeString (src : Source) : Tree → Except Failure String
  | .string (.ok s) _ _ => .ok s
  | t => .error (mismatch src "a string" t)

/-- A truth value. -/
def decodeBool (src : Source) : Tree → Except Failure Bool
  | .bool b _ _ => .ok b
  | t => .error (mismatch src "a boolean" t)

/-- A natural number below `2 ^ bits`. -/
def decodeNat (src : Source) (bits : Nat) (expected : String) : Tree → Except Failure Nat
  | .number (.ok (.int n)) _ stop =>
    if 0 ≤ n ∧ n.toNat < Nat.pow 2 bits then .ok n.toNat
    else .error (src.failure (.invalidValue (.number (.int n)) expected) stop)
  | t => .error (mismatch src expected t)

/-- The literal that a scalar is. An integer that does not fit in 64 bits with a
    sign is rounded to a double. -/
def literal? : Tree → Option Literal
  | .null _ _ => some .null
  | .bool b _ _ => some (.bool b)
  | .number (.ok (.int n)) _ _ =>
    if Int64.minValue.toInt ≤ n ∧ n ≤ Int64.maxValue.toInt then some (.int (Int64.ofInt n))
    else some (.float n.toNat.toUInt64.toFloat)
  | .number (.ok (.float x)) _ _ => some (.float x)
  | .string (.ok s) _ _ => some (.string s)
  | _ => none

/-- A literal. The value is read in full before it is looked at. -/
def decodeLiteral (src : Source) (t : Tree) : Except Failure Literal := do
  if let .text levels := src then
    let _ ← Tree.read levels t
  match literal? t with
  | some l => return l
  | none => .error { cause := .noVariant "Literal" }

/-! ## Enumerations -/

/-- The member with a name, or the failure of an unknown one at an offset. -/
def decodeMember (src : Source) {α : Type} (variants : List (String × α)) (name : String)
    (offset : Nat) : Except Failure α :=
  match Assoc.get? name variants with
  | some a => .ok a
  | none => .error (src.failure (.unknownVariant name (variants.map Prod.fst)) offset)

/-- A null in place of the contents of a member that has none. A node that has
    been read may also have an empty object there. -/
def decodeUnit (src : Source) : Tree → Except Failure Unit
  | .null _ _ => .ok ()
  | .object start (.close p) =>
    if src = .buffered then .ok () else .error (mismatch src "unit" (.object start (.close p)))
  | t => .error (mismatch src "unit" t)

/-- A member written in a text as an object with one entry. -/
def decodeEntryText (src : Source) {α : Type} (variants : List (String × α)) :
    Entries → Except Failure α
  | .entry _ key colon value rest => do
    let k ← key.mapError .ofFault
    let a ← decodeMember src variants k colon
    decodeUnit src value
    match rest with
    | .close _ => return a
    | .finished p => .error (.ofFault ⟨.endOfObject, p⟩)
    | rest => .error (.ofFault ⟨.expectedValue, rest.resume⟩)
  | .colonless _ key place found => do
    let k ← key.mapError .ofFault
    let _ ← decodeMember src variants k place
    .error (.ofFault (colonFault place found))
  | .close p => .error (.ofFault ⟨.keyNotString, p + 1⟩)
  | entries => .error (.ofFault entries.fault)

/-- A member in a text: a string, or an object with one entry. -/
def decodeChoiceText (src : Source) {α : Type} (variants : List (String × α)) :
    Tree → Except Failure α
  | .string (.ok s) _ stop => decodeMember src variants s stop
  | .string (.error f) _ _ => .error (.ofFault f)
  | .object start entries => do
    let src ← src.enter start
    decodeEntryText src variants entries
  | .null start _ | .bool _ start _ | .number _ start _ | .array start _ =>
    .error (.ofFault ⟨.expectedValue, start + 1⟩)
  | .broken f _ start =>
    if f.defect = .expectedIdent ∨ f.defect = .invalidNumber ∨ (f.defect = .endOfValue ∧
        f.offset ≠ start) then .error (.ofFault ⟨.expectedValue, start + 1⟩)
    else .error (.ofFault f)

/-- A member in something that is no text: a string, or an object with one
    entry. -/
def decodeChoiceValue (src : Source) {α : Type} (variants : List (String × α)) :
    Tree → Except Failure α
  | .string (.ok s) _ stop => decodeMember src variants s stop
  | .object _ (.entry _ (.ok k) colon value (.close _)) => do
    let a ← decodeMember src variants k colon
    decodeUnit src value
    return a
  | .object start _ => .error (src.failure (.invalidValue .map "map with a single key") start)
  | t => .error (mismatch src "string or map" t)

/-- A member of an enumeration. -/
def decodeChoice (src : Source) (c : Choice) (t : Tree) : Except Failure c.Carrier :=
  match src with
  | .text _ => decodeChoiceText src c.variants t
  | _ => decodeChoiceValue src c.variants t

/-! ## Tags -/

/-- The key under which a node carries its tag. -/
def tagKey : String := "kind"

/-- The number of the tag that a tree names. In a node that has been read the
    number itself may stand for it. -/
def decodeTag (src : Source) (tags : List String) : Tree → Except Failure Nat
  | .string (.ok s) _ stop =>
    match tags.findIdx? (· = s) with
    | some i => .ok i
    | none => .error (src.failure (.unknownVariant s tags) stop)
  | .number (.ok (.int n)) start stop =>
    if src = .buffered ∧ 0 ≤ n then
      if n.toNat < tags.length then .ok n.toNat
      else .error (src.failure (.invalidValue (.number (.int n))
        ("variant index 0 <= i < " ++ toString tags.length)) stop)
    else .error (mismatch src "variant identifier" (.number (.ok (.int n)) start stop))
  | t => .error (mismatch src "variant identifier" t)

/-- Reads a part of a node in full, unless it is in memory already. -/
def readPart (src : Source) (t : Tree) : Except Failure Unit :=
  match src with
  | .text levels => (Tree.read levels t).map fun _ => ()
  | _ => .ok ()

/-- The tag of a node that is written as an object. Tags are looked at when
    they are met, everything else is read in full. -/
def findTag (src : Source) (tags : List String) (seen : Option Nat) :
    Entries → Except Failure Nat
  | .close p =>
    match seen with
    | some i => .ok i
    | none => .error (src.failure (.missingField tagKey) (p + 1))
  | .entry _ (.ok k) colon value rest =>
    if k = tagKey then
      match seen with
      | some _ => .error (src.failure (.duplicateField tagKey) colon)
      | none => do
        let i ← (decodeTag src tags value).mapError (src.within (.key k) rest.resume)
        findTag src tags (some i) rest
    else do
      (readPart src value).mapError (src.within (.key k) rest.resume)
      findTag src tags seen rest
  | .colonless _ (.ok k) place found =>
    if k = tagKey ∧ seen.isSome then
      .error (src.failure (.duplicateField tagKey) (if found = some '}' then place + 1 else place))
    else .error (.ofFault (colonFault place found))
  | entries => .error ((Failure.ofFault entries.fault).under .unknown)

/-- The tag of a node that is written as an array, whose first element it is;
    the others are read in full. -/
def firstTag (src : Source) (tags : List String) : Items → Except Failure (Nat × Items)
  | .item _ t rest => do
    let i ← (decodeTag src tags t).mapError (src.within (.index 0) rest.resume)
    if let .text levels := src then
      let _ ← readItems levels 1 rest
    return (i, rest)
  | .close p => .error (src.failure (.missingField tagKey) (p + 1))
  | items => .error (.ofFault items.fault)

/-! ## Structures -/

/-- The tree is a null. -/
def isNull : Tree → Bool
  | .null _ _ => true
  | _ => false

/-- Reads a field by reading its shape, or nothing if the field is optional and
    null. -/
def Field.decodeWith (null : Bool) (read : (s : Shape) → Except Failure s.Carrier) :
    (f : Field) → Except Failure f.Carrier
  | .required _ s | .defaulted _ s => read s
  | .optional _ s => if null then .ok none else (read s).map some

/-- How many elements follow. -/
def itemCount : Items → Nat
  | .item _ _ rest => itemCount rest + 1
  | _ => 0

/-- The words for a number of elements. -/
def inSequence : Nat → String
  | 1 => "1 element in sequence"
  | n => toString n ++ " elements in sequence"

/-- The failure of an array that goes on after the last of `count` fields. -/
def surplus (src : Source) (count : Nat) (items : Items) : Option Failure :=
  match src with
  | .text _ => items.surplus.map .ofFault
  | .value =>
    match itemCount items with
    | 0 => none
    | n => some { cause := .invalidLength (count + n) "fewer elements in array" }
  | .buffered =>
    match itemCount items with
    | 0 => none
    | n => some { cause := .invalidLength (count + n) (inSequence count) }

/-- The failure of an array that ends, or breaks off, before the fields do; the
    values of those that may be missing if it ends well. -/
def shortfall (src : Source) (expected : String) (count : Nat) (fs : List Field) :
    Items → Except Failure (Values fs)
  | .close p =>
    match Values.absent count fs with
    | .ok vs => .ok vs
    | .error n => .error (src.failure (.invalidLength n expected) (p + 1))
  | items => .error (.ofFault items.fault)

mutual

/-- A tree read as a shape. -/
def decode (src : Source) (t : Tree) (s : Shape) : Except Failure s.Carrier :=
  match s with
  | .text => decodeString src t
  | .flag => decodeBool src t
  | .position => (decodeNat src 32 "u32" t).map Nat.toUInt32
  | .offset => (decodeNat src 64 "usize" t).map Nat.toUInt64
  | .literal => decodeLiteral src t
  | .choice c => decodeChoice src c t
  | .attributes =>
    match t with
    | .object start entries => do
      let src ← src.enter start
      decodeAttributes src [] entries
    | t => .error (mismatch src "a map" t)
  | .list s =>
    match t with
    | .array start items => do
      let src ← src.enter start
      decodeItems src s 0 items
    | t => .error (mismatch src "a sequence" t)
  | .record r =>
    match t with
    | .array start items => do
      let src ← src.enter start
      (decodeArray src r.layout.elements r.layout.fields 0 items).map r.layout.build
    | .object start entries => do
      let src ← src.enter start
      (decodeObject src r.layout.fields (Slots.empty _) entries).map r.layout.build
    | t => .error (mismatch src r.layout.title t)
  | .expr =>
    match t with
    | .array start (.item place tag rest) => do
      let src ← src.enter start
      let (i, _) ← firstTag src (exprVariants.map Variant.tag) (.item place tag rest)
      match exprVariants[i]? with
      | some v => (decodeArray .buffered v.layout.elements v.layout.fields 0 rest).map v.layout.build
      | none => .error { cause := .missingField tagKey }
    | .array start items => do
      let src ← src.enter start
      let _ ← firstTag src (exprVariants.map Variant.tag) items
      .error { cause := .missingField tagKey }
    | .object start entries => do
      let src ← src.enter start
      let i ← findTag src (exprVariants.map Variant.tag) none entries
      match exprVariants[i]? with
      | some v =>
        (decodeObject .buffered v.layout.fields (Slots.empty _) entries).map v.layout.build
      | none => .error { cause := .missingField tagKey }
    | t => .error (mismatch src "internally tagged enum Expr" t)
  | .stmt =>
    match t with
    | .array start (.item place tag rest) => do
      let src ← src.enter start
      let (i, _) ← firstTag src (stmtVariants.map Variant.tag) (.item place tag rest)
      match stmtVariants[i]? with
      | some v => (decodeArray .buffered v.layout.elements v.layout.fields 0 rest).map v.layout.build
      | none => .error { cause := .missingField tagKey }
    | .array start items => do
      let src ← src.enter start
      let _ ← firstTag src (stmtVariants.map Variant.tag) items
      .error { cause := .missingField tagKey }
    | .object start entries => do
      let src ← src.enter start
      let i ← findTag src (stmtVariants.map Variant.tag) none entries
      match stmtVariants[i]? with
      | some v =>
        (decodeObject .buffered v.layout.fields (Slots.empty _) entries).map v.layout.build
      | none => .error { cause := .missingField tagKey }
    | t => .error (mismatch src "internally tagged enum Stmt" t)

/-- The rest of an array of one shape, whose next index is `i`. -/
def decodeItems (src : Source) (s : Shape) (i : Nat) : Items → Except Failure (List s.Carrier)
  | .close _ => .ok []
  | .item _ value rest => do
    let v ← (decode src value s).mapError (src.within (.index i) rest.resume)
    let vs ← decodeItems src s (i + 1) rest
    return v :: vs
  | items => .error (.ofFault items.fault)

/-- The fields of a structure from the rest of an array, `count` fields being
    read already. -/
def decodeArray (src : Source) (expected : String) (fs : List Field) (count : Nat) :
    Items → Except Failure (Values fs)
  | .item place value rest =>
    match fs with
    | [] =>
      match surplus src count (.item place value rest) with
      | none => .ok ()
      | some f => .error f
    | f :: fs => do
      let v ← (f.decodeWith (isNull value) fun s => decode src value s).mapError
        (src.within (.index count) rest.resume)
      let vs ← decodeArray src expected fs (count + 1) rest
      return (v, vs)
  | items =>
    match fs with
    | [] =>
      match surplus src count items with
      | none => .ok ()
      | some f => .error f
    | f :: fs => shortfall src expected count (f :: fs) items

/-- The fields of a structure from the rest of an object. Unknown keys are
    skipped. -/
def decodeObject (src : Source) (fs : List Field) (slots : Slots fs) :
    Entries → Except Failure (Values fs)
  | .close p =>
    match Slots.finish fs slots with
    | .ok vs => .ok vs
    | .error k => .error (src.failure (.missingField k) (p + 1))
  | .entry _ (.ok k) colon value rest => do
    let put ← Slots.put k (src.failure (.duplicateField k) colon)
      (fun f => (f.decodeWith (isNull value) fun s => decode src value s).mapError
        (src.within (.key k) rest.resume)) fs slots
    match put with
    | some slots => decodeObject src fs slots rest
    | none =>
      match src, value.skip with
      | .text _, some fault => .error ((Failure.ofFault fault).under (.key k))
      | _, _ => decodeObject src fs slots rest
  | .colonless _ (.ok k) place found => do
    let _ ← Slots.put k
      (src.failure (.duplicateField k) (if found = some '}' then place + 1 else place))
      (fun _ => .error (.ofFault (colonFault place found))) fs slots
    .error (.ofFault (colonFault place found))
  | entries => .error ((Failure.ofFault entries.fault).under .unknown)

/-- Attributes from the rest of an object, each key once. -/
def decodeAttributes (src : Source) (found : List (String × String)) :
    Entries → Except Failure (List (String × String))
  | .close _ => .ok found
  | .entry _ (.ok k) _ value rest => do
    let v ← (decodeString src value).mapError (src.within (.key k) rest.resume)
    decodeAttributes src (Assoc.insert k v found) rest
  | .colonless _ (.ok _) place found => .error (.ofFault (colonFault place found))
  | entries => .error ((Failure.ofFault entries.fault).under .unknown)

end

/-! ## Texts and values -/

/-- How many arrays and objects may open inside one another in a text. -/
def maxLevels : Nat := 127

/-- Nothing but blanks may follow the value of a text. -/
def finished (after : Cursor) : Except Failure Unit :=
  match skipBlanks after.rest after.offset with
  | ⟨[], _⟩ => .ok ()
  | ⟨_ :: _, p⟩ => .error (.ofFault ⟨.trailingCharacters, p + 1⟩)

/-- The value at the beginning of a text, every object key once. What follows
    it is not looked at. -/
def readFirst (text : String) : Except Failure Value :=
  (Tree.read maxLevels (Tree.ofText text).1).map Value.merged

/-- The value of a text, every object key once. -/
def readText (text : String) : Except Failure Value := do
  let v ← readFirst text
  finished (Tree.ofText text).2
  return v

/-- The beginning of a text read as a shape. What follows it is not looked
    at. -/
def decodeFirst (text : String) (s : Shape) : Except Failure s.Carrier :=
  decode (.text maxLevels) (Tree.ofText text).1 s

/-- A text read as a shape. -/
def decodeText (text : String) (s : Shape) : Except Failure s.Carrier := do
  let a ← decodeFirst text s
  finished (Tree.ofText text).2
  return a

/-- A value read as a shape. -/
def decodeValue (v : Value) (s : Shape) : Except Failure s.Carrier :=
  decode .value (Tree.ofValue v) s

end TreeDoc.Decode
