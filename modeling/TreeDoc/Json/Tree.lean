/-
  JSON texts as far as they can be read.

  A `Tree` is the syntax tree of a text that may be faulty. It records every
  offset that a later message may need, and at most one fault on each way
  through the text: past a fault the text counts as ended. Reading and skipping
  a value obey different rules, so a scalar may be readable or only skippable,
  and a broken value has a fault for either use.

  * `Tree`, `Items`, `Entries`: values, and what follows an opening bracket or
    brace, or a value inside them;
  * `Items.resume`, `Entries.resume`: where the text goes on when a reader gives
    up after a value and looks for the end of the array or object;
  * `Tree.skip`: the fault met when a value is passed over;
  * `Items.fault`, `Entries.fault`: the fault met when an array or object is
    read and does not go on;
  * `Tree.ofValue`: the tree of a value that was never a text.
-/
import TreeDoc.Json.Value

namespace TreeDoc.Json

mutual

/-- A value in a text. `start` is the offset of its first character, `stop` the
    offset after its last one. -/
inductive Tree where
  | null (start stop : Nat)
  | bool (value : Bool) (start stop : Nat)
  | number (reading : Except Fault Number) (start stop : Nat)
  | string (reading : Except Fault String) (start stop : Nat)
  | array (start : Nat) (items : Items)
  | object (start : Nat) (entries : Entries)
  /-- No value can be read, or even skipped, here. -/
  | broken (reading skipping : Fault) (start : Nat)

/-- What follows the opening bracket of an array, or one of its elements. -/
inductive Items where
  /-- The closing bracket. -/
  | close (place : Nat)
  /-- The end of the text. -/
  | finished (place : Nat)
  /-- Neither a comma nor the closing bracket, after an element. -/
  | stray (place : Nat)
  /-- A comma and the closing bracket. -/
  | dangling (place : Nat)
  /-- A comma and the end of the text. -/
  | cut (place : Nat)
  /-- An element, after a comma unless it is the first one. -/
  | item (place : Nat) (value : Tree) (rest : Items)

/-- What follows the opening brace of an object, or one of its values. `lead` is
    the offset of the first character that is not blank. -/
inductive Entries where
  /-- The closing brace. -/
  | close (lead : Nat)
  /-- The end of the text. -/
  | finished (lead : Nat)
  /-- Neither a comma nor the closing brace, after a value. -/
  | stray (lead : Nat)
  /-- A comma and the closing brace. -/
  | dangling (lead place : Nat)
  /-- A comma and the end of the text. -/
  | cut (lead place : Nat)
  /-- Something else where a key should stand. -/
  | keyless (lead place : Nat)
  /-- A key that does not end. -/
  | brokenKey (lead : Nat) (reading skipping : Fault)
  /-- A key without its colon; `found` is the character in its place. -/
  | colonless (lead : Nat) (key : Except Fault String) (place : Nat) (found : Option Char)
  /-- A key, its colon at the offset `colon`, and a value. -/
  | entry (lead : Nat) (key : Except Fault String) (colon : Nat) (value : Tree) (rest : Entries)

end

/-! ## Looking for the end -/

/-- The offset reached when the end of the array is looked for: past its
    closing bracket, or past a comma and the blanks after it. -/
def Items.resume : Items → Nat
  | .close p => p + 1
  | .finished p | .stray p | .dangling p | .cut p | .item p _ _ => p

/-- The offset reached when the end of the object is looked for: past its
    closing brace, or before whatever stands there. -/
def Entries.resume : Entries → Nat
  | .close p => p + 1
  | .finished p | .stray p | .dangling p _ | .cut p _ | .keyless p _ | .brokenKey p _ _
  | .colonless p _ _ _ | .entry p _ _ _ _ => p

/-- The fault of an array that should end here and does not. -/
def Items.surplus : Items → Option Fault
  | .close _ => none
  | .finished p => some ⟨.endOfList, p⟩
  | .stray p => some ⟨.trailingCharacters, p + 1⟩
  | .dangling p => some ⟨.trailingComma, p + 1⟩
  | .cut p => some ⟨.trailingCharacters, p⟩
  | .item p _ _ => some ⟨.trailingCharacters, p + 1⟩

/-! ## Skipping -/

mutual

/-- The fault met when a value is passed over, if any. Neither the depth of
    the value, nor the range of its numbers, nor the pairing of the surrogates
    in its strings matters. -/
def Tree.skip : Tree → Option Fault
  | .null _ _ | .bool _ _ _ | .number _ _ _ | .string _ _ _ => none
  | .array _ items => items.skip
  | .object _ entries => entries.skip
  | .broken _ f _ => some f

/-- The fault met when the rest of an array is passed over. -/
def Items.skip : Items → Option Fault
  | .close _ => none
  | .finished p => some ⟨.endOfList, p⟩
  | .stray p => some ⟨.expectedListCommaOrEnd, p + 1⟩
  | .dangling p => some ⟨.expectedValue, p + 1⟩
  | .cut p => some ⟨.endOfValue, p⟩
  | .item _ value rest => value.skip <|> rest.skip

/-- The fault met when the rest of an object is passed over. -/
def Entries.skip : Entries → Option Fault
  | .close _ => none
  | .finished p => some ⟨.endOfObject, p⟩
  | .stray p => some ⟨.expectedObjectCommaOrEnd, p + 1⟩
  | .dangling _ p => some ⟨.keyNotString, p + 1⟩
  | .cut _ p => some ⟨.endOfObject, p⟩
  | .keyless _ p => some ⟨.keyNotString, p + 1⟩
  | .brokenKey _ _ f => some f
  | .colonless _ _ p none => some ⟨.endOfObject, p⟩
  | .colonless _ _ p (some _) => some ⟨.expectedColon, p + 1⟩
  | .entry _ _ _ value rest => value.skip <|> rest.skip

end

/-! ## The faults of an array or object that is read -/

/-- The fault of an array that should go on or end here and does neither. One
    that has been read up to here and does go on has surplus characters. -/
def Items.fault : Items → Fault
  | .finished p => ⟨.endOfList, p⟩
  | .stray p => ⟨.expectedListCommaOrEnd, p + 1⟩
  | .dangling p => ⟨.trailingComma, p + 1⟩
  | .cut p => ⟨.endOfValue, p⟩
  | .close p | .item p _ _ => ⟨.trailingCharacters, p + 1⟩

/-- The fault of an object that should go on with a key or end here and does
    neither. -/
def Entries.fault : Entries → Fault
  | .finished p => ⟨.endOfObject, p⟩
  | .stray p => ⟨.expectedObjectCommaOrEnd, p + 1⟩
  | .dangling _ p => ⟨.trailingComma, p + 1⟩
  | .cut _ p => ⟨.endOfValue, p⟩
  | .keyless _ p => ⟨.keyNotString, p + 1⟩
  | .brokenKey _ f _ | .colonless _ (.error f) _ _ | .entry _ (.error f) _ _ _ => f
  | .close p | .colonless p (.ok _) _ _ | .entry p (.ok _) _ _ _ => ⟨.trailingCharacters, p + 1⟩

/-- The fault of a missing colon. -/
def colonFault (place : Nat) : Option Char → Fault
  | none => ⟨.endOfObject, place⟩
  | some _ => ⟨.expectedColon, place + 1⟩

/-! ## Trees without a text -/

mutual

/-- The tree of a value that was never a text: all its offsets are zero. -/
def Tree.ofValue : Value → Tree
  | .null => .null 0 0
  | .bool b => .bool b 0 0
  | .number n => .number (.ok n) 0 0
  | .string s => .string (.ok s) 0 0
  | .array vs => .array 0 (Items.ofValues vs)
  | .object es => .object 0 (Entries.ofEntries es)

/-- The items of an array that was never a text. -/
def Items.ofValues : List Value → Items
  | [] => .close 0
  | v :: vs => .item 0 (Tree.ofValue v) (Items.ofValues vs)

/-- The entries of an object that was never a text. -/
def Entries.ofEntries : List (String × Value) → Entries
  | [] => .close 0
  | (k, v) :: es => .entry 0 (.ok k) 0 (Tree.ofValue v) (Entries.ofEntries es)

end

end TreeDoc.Json
