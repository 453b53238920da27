/-
  JSON values.

  * `Value`: null, booleans, numbers, strings, arrays and objects, the entries
    of an object in the order in which they are written;
  * `Value.merged`: every key once, in the place of its first entry and with
    the value of its last one;
  * `Value.same`: equality up to the order of object entries;
  * `Value.get?`: the value that a JSON pointer selects.
-/
import TreeDoc.Assoc
import TreeDoc.Json.Number
import TreeDoc.Text.Split

namespace TreeDoc.Json

/-- A JSON value. An object may repeat a key. -/
inductive Value where
  | null
  | bool (value : Bool)
  | number (value : Number)
  | string (value : String)
  | array (items : List Value)
  | object (entries : List (String × Value))
deriving Repr

/-! ## Repeated keys -/

mutual

/-- The value with every object key written once. -/
def Value.merged : Value → Value
  | .array items => .array (mergedItems items)
  | .object entries => .object (Assoc.merge (mergedEntries entries))
  | v => v

/-- The items, each with every object key written once. -/
def mergedItems : List Value → List Value
  | [] => []
  | v :: vs => v.merged :: mergedItems vs

/-- The entries, each value with every object key written once. -/
def mergedEntries : List (String × Value) → List (String × Value)
  | [] => []
  | (k, v) :: es => (k, v.merged) :: mergedEntries es

end

/-! ## Equality up to order -/

/-- Numbers are the same if both are integers or both are doubles, and equal
    as such. -/
def Number.same : Number → Number → Bool
  | .int a, .int b => a = b
  | .float a, .float b => a == b
  | _, _ => false

mutual

/-- Equality up to the order of object entries, for values that repeat no
    key. -/
def Value.same : Value → Value → Bool
  | .null, .null => true
  | .bool a, .bool b => a = b
  | .number a, .number b => a.same b
  | .string a, .string b => a = b
  | .array as, .array bs => sameItems as bs
  | .object as, .object bs => as.length = bs.length && sameEntries as bs
  | _, _ => false

/-- The items are the same, one by one. -/
def sameItems : List Value → List Value → Bool
  | [], [] => true
  | a :: as, b :: bs => a.same b && sameItems as bs
  | _, _ => false

/-- Every entry of the first list has an entry of the same key and value in the
    second. -/
def sameEntries : List (String × Value) → List (String × Value) → Bool
  | [], _ => true
  | (k, a) :: as, bs =>
    (match Assoc.get? k bs with
      | some b => a.same b
      | none => false) && sameEntries as bs

end

/-! ## Pointers -/

/-- A pointer's token with its escapes undone: `~1` is a slash, and after that
    `~0` a tilde. -/
def unescapeToken (token : List Char) : List Char := tildes (slashes token)
where
  /-- Replaces `~1` by a slash. -/
  slashes : List Char → List Char
    | '~' :: '1' :: cs => '/' :: slashes cs
    | c :: cs => c :: slashes cs
    | [] => []
  /-- Replaces `~0` by a tilde. -/
  tildes : List Char → List Char
    | '~' :: '0' :: cs => '~' :: tildes cs
    | c :: cs => c :: tildes cs
    | [] => []

/-- The tokens of a pointer: none for the empty one, and else what its slashes
    lead. A pointer that does not begin with a slash has no reading. -/
def pointerTokens? (pointer : String) : Option (List String) :=
  match pointer.toList with
  | [] => some []
  | '/' :: cs => some ((Text.splitChars '/' cs).map fun t => String.ofList (unescapeToken t))
  | _ => none

/-- An array index: decimal digits without a leading zero, within 64 bits. -/
def arrayIndex? (token : String) : Option Nat :=
  match token.toList with
  | [] => none
  | cs =>
    if cs.all (fun c => '0' ≤ c && c ≤ '9') && (cs.head? ≠ some '0' || cs.length = 1) then
      let n := cs.foldl (fun n c => n * 10 + (c.toNat - '0'.toNat)) 0
      if n < Nat.pow 2 64 then some n else none
    else none

/-- The value that a list of tokens leads to. -/
def Value.follow : List String → Value → Option Value
  | [], v => some v
  | t :: ts, .object entries => (Assoc.get? t entries).bind (Value.follow ts)
  | t :: ts, .array items => ((arrayIndex? t).bind fun i => items[i]?).bind (Value.follow ts)
  | _ :: _, _ => none

/-- The value that a JSON pointer selects. -/
def Value.get? (v : Value) (pointer : String) : Option Value :=
  (pointerTokens? pointer).bind fun ts => v.follow ts

end TreeDoc.Json
