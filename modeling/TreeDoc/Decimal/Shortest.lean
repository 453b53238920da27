/-
  The shortest decimal that reads back as a given binary number.

  A finite nonzero double is `mantissa * 2 ^ exponent`. The reals that round to
  it form an interval around it, whose ends belong to it exactly when the
  mantissa is even. Of the decimals in that interval the shortest is the one
  with the fewest digits, and among those the one nearest to the number.

  * `Binary`, `Binary.ofFloat`: the magnitude of a double as two integers;
  * `Binary.Interval`: the number and the ends of its rounding interval as
    fractions over one denominator;
  * `shortest`: the digits and the place of the point.
-/

namespace TreeDoc.Decimal

/-- The magnitude `mantissa * 2 ^ exponent` of a finite double. `tight` holds
    for a power of two, whose lower neighbour is at half the usual distance. -/
structure Binary where
  mantissa : Nat
  exponent : Int
  tight : Bool
deriving Repr, DecidableEq

/-- The magnitude of a finite double, read off its bit pattern. -/
def Binary.ofFloat (x : Float) : Binary :=
  let bits : Nat := x.toBits.toNat
  let fraction : Nat := bits % Nat.pow 2 52
  let field : Nat := bits / Nat.pow 2 52 % Nat.pow 2 11
  if field = 0 then
    { mantissa := fraction, exponent := -1074, tight := false }
  else
    { mantissa := Nat.pow 2 52 + fraction, exponent := (field : Int) - 1075,
      tight := fraction = 0 && 1 < field }

/-- The double has its sign bit set. -/
def signBit (x : Float) : Bool := x.toBits.toNat / Nat.pow 2 63 = 1

/-- A number and the ends of its rounding interval, all over the denominator
    `den`; `closed` says whether the ends belong to the interval. -/
structure Interval where
  low : Nat
  value : Nat
  high : Nat
  den : Nat
  closed : Bool
deriving Repr, DecidableEq

/-- The rounding interval of a magnitude, in quarters of its last place. -/
def Binary.interval (b : Binary) : Interval :=
  let up := Nat.pow 2 (b.exponent - 2).toNat
  { low := (4 * b.mantissa - if b.tight then 1 else 2) * up
    value := 4 * b.mantissa * up
    high := (4 * b.mantissa + 2) * up
    den := Nat.pow 2 (2 - b.exponent).toNat
    closed := b.mantissa % 2 = 0 }

/-- The fraction `a / b` lies in the interval. -/
def Interval.contains (i : Interval) (a b : Nat) : Bool :=
  if i.closed then i.low * b ≤ a * i.den && a * i.den ≤ i.high * b
  else i.low * b < a * i.den && a * i.den < i.high * b

/-- How many decimal digits the number has before the point. -/
def digitCount (n : Nat) : Nat := (Nat.toDigits 10 n).length

/-- The least `k ≤ bound` with `den ≤ num * 10 ^ k`, starting from `k`. -/
def leadingZeros (num den : Nat) : Nat → Nat → Nat
  | 0, k => k
  | bound + 1, k => if den ≤ num * Nat.pow 10 k then k else leadingZeros num den bound (k + 1)

/-- Where the point stands: the number is at least a tenth of `10 ^ pointPlace`
    and less than it. -/
def Interval.pointPlace (i : Interval) : Int :=
  if i.den ≤ i.value then digitCount (i.value / i.den)
  else 1 - leadingZeros i.value i.den 400 0

/-- The nearest decimal of the grid `10 ^ -scale` inside the interval, if the
    grid has a point there: one of the two neighbours of the number. -/
def Interval.onGrid (i : Interval) (scale : Int) : Option Nat :=
  let up := Nat.pow 10 scale.toNat
  let down := Nat.pow 10 (-scale).toNat
  let below := i.value * up / (i.den * down)
  let above := below + 1
  match i.contains (below * down) up, i.contains (above * down) up with
  | true, true =>
    let gap := i.value * up - below * (i.den * down)
    some (if 2 * gap ≤ i.den * down then below else above)
  | true, false => some below
  | false, true => some above
  | false, false => none

/-- Searches the grids of `digits`, `digits + 1`, … digits. -/
def Interval.search (i : Interval) (point : Int) : Nat → Nat → Nat × Int
  | 0, digits => (i.value / i.den, digits)
  | bound + 1, digits =>
    let scale := digits - point
    match i.onGrid scale with
    | some n => (n, scale)
    | none => i.search point bound (digits + 1)

/-- A decimal: the digits of a number, first digit nonzero, and the place of
    the point before, within or after them. -/
structure Digits where
  digits : List Char
  point : Int
deriving Repr, DecidableEq

/-- The digits without the zeros at their end. -/
def dropTrailingZeros (ds : List Char) : List Char :=
  (ds.reverse.dropWhile (· = '0')).reverse

/-- The shortest decimal that reads back as the magnitude. -/
def Binary.shortest (b : Binary) : Digits :=
  let i := b.interval
  let (n, scale) := i.search i.pointPlace 17 1
  let ds := Nat.toDigits 10 n
  { digits := dropTrailingZeros ds, point := ds.length - scale }

end TreeDoc.Decimal
