/-
  Regular expressions.

  * `CharSet`: sets of characters;
  * `Look`: conditions on the characters around a point of a text;
  * `Regex`: expressions, and `Regex.ends`, the points that a match from a point
    may end at;
  * `Regex.search`: an expression matches somewhere in a text.
-/
import TreeDoc.Regex.Classes

namespace TreeDoc

namespace Regex

/-! ## Characters -/

/-- A set of characters. -/
inductive CharSet where
  | empty
  | range (first last : Char)
  | digit
  | space
  | word
  | union (a b : CharSet)
  | inter (a b : CharSet)
  | compl (a : CharSet)
  /-- The characters that are in a set in one case or the other. -/
  | folded (a : CharSet)
deriving Repr, DecidableEq

/-- The character is in the set. -/
def CharSet.has (c : Char) : CharSet → Bool
  | .empty => false
  | .range first last => first ≤ c && c ≤ last
  | .digit => isDigit c
  | .space => isSpace c
  | .word => isWord c
  | .union a b => a.has c || b.has c
  | .inter a b => a.has c && b.has c
  | .compl a => !a.has c
  | .folded a => (caseVariants c).any fun d => a.has d

namespace CharSet

/-- A single character. -/
def single (c : Char) : CharSet := .range c c

/-- The characters of the first set that are not in the second. -/
def diff (a b : CharSet) : CharSet := .inter a (.compl b)

/-- The characters of all sets. -/
def unions (sets : List CharSet) : CharSet := sets.foldr .union .empty

end CharSet

/-! ## Points -/

/-- A point of a text: the character before it and those after it. -/
structure Point where
  before : Option Char
  rest : List Char
deriving Repr, DecidableEq

/-- A condition on the characters around a point. -/
inductive Look where
  | textStart
  | textEnd
  | lineStart
  | lineEnd
  | boundary
  | noBoundary
  | wordStart
  | wordEnd
deriving Repr, DecidableEq

/-- A character that occurs in words. -/
def wordAt (c : Option Char) : Bool := (c.map isWord).getD false

/-- The condition holds at the point. -/
def Look.holds (p : Point) : Look → Bool
  | .textStart => p.before = none
  | .textEnd => p.rest = []
  | .lineStart => p.before = none || p.before = some '\n'
  | .lineEnd => p.rest = [] || p.rest.head? = some '\n'
  | .boundary => wordAt p.before != wordAt p.rest.head?
  | .noBoundary => wordAt p.before == wordAt p.rest.head?
  | .wordStart => !wordAt p.before && wordAt p.rest.head?
  | .wordEnd => wordAt p.before && !wordAt p.rest.head?

/-- The points of a list, each once. All of them are points of one text. -/
def distinct : List Point → List Point
  | [] => []
  | p :: ps =>
    let qs := distinct ps
    if qs.any fun q => q.rest.length = p.rest.length then qs else p :: qs

/-- The points reached by exactly `n` steps. -/
def times (step : Point → List Point) : Nat → List Point → List Point
  | 0, ps => ps
  | n + 1, ps => if ps.isEmpty then [] else times step n (distinct (ps.flatMap step))

/-- The points reached by at most `n` steps. -/
def upTo (step : Point → List Point) : Nat → List Point → List Point
  | 0, ps => ps
  | n + 1, ps =>
    let qs := distinct (ps ++ ps.flatMap step)
    if qs.length = ps.length then ps else upTo step n qs

end Regex

/-! ## Expressions -/

/-- A regular expression. -/
inductive Regex where
  | empty
  | chars (set : Regex.CharSet)
  | look (condition : Regex.Look)
  | seq (a b : Regex)
  | alt (a b : Regex)
  /-- At least `least` matches of the body one after the other, and at most
      `most`. -/
  | loop (body : Regex) (least : Nat) (most : Option Nat)
deriving Repr

namespace Regex

/-- The points that a match from a point may end at. More repetitions than there
    are characters reach no further points. -/
def ends : Regex → Point → List Point
  | .empty, p => [p]
  | .chars set, p =>
    match p.rest with
    | [] => []
    | c :: cs => if set.has c then [⟨some c, cs⟩] else []
  | .look condition, p => if condition.holds p then [p] else []
  | .seq a b, p => distinct ((a.ends p).flatMap b.ends)
  | .alt a b, p => distinct (a.ends p ++ b.ends p)
  | .loop body least most, p =>
    let more := p.rest.length
    upTo body.ends (match most with
      | none => more
      | some n => min (n - least) more) (times body.ends least [p])

/-- The expression matches from some point on. -/
def searchFrom (r : Regex) (before : Option Char) : List Char → Bool
  | [] => !(r.ends ⟨before, []⟩).isEmpty
  | c :: cs => !(r.ends ⟨before, c :: cs⟩).isEmpty || r.searchFrom (some c) cs

/-- The expression matches somewhere in the text. -/
def search (r : Regex) (text : String) : Bool := r.searchFrom none text.toList

end Regex

end TreeDoc
