/-
  Lists of keyed values that keep the order in which keys were first met.

  * `Assoc.insert`: a new key goes to the end, a known one keeps its place and
    takes the new value;
  * `Assoc.get?`: the value under a key;
  * `Assoc.merge`: the entries inserted one after the other.
-/

namespace TreeDoc.Assoc

variable {α : Type}

/-- Puts a value under a key: in the place of the key's value if there is one,
    at the end if not. -/
def insert (key : String) (value : α) : List (String × α) → List (String × α)
  | [] => [(key, value)]
  | (k, v) :: es => if k = key then (k, value) :: es else (k, v) :: insert key value es

/-- The value under a key. -/
def get? (key : String) : List (String × α) → Option α
  | [] => none
  | (k, v) :: es => if k = key then some v else get? key es

/-- The entries inserted one after the other into a list. -/
def insertAll (start : List (String × α)) : List (String × α) → List (String × α)
  | [] => start
  | (k, v) :: es => insertAll (insert k v start) es

/-- Every key once, in the place of its first entry and with the value of its
    last one. -/
def merge (entries : List (String × α)) : List (String × α) := insertAll [] entries

end TreeDoc.Assoc
