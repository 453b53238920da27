/-
  JSON numbers.

  An integer is kept exactly while it fits in 64 bits, signed or unsigned;
  every other number is a double, computed from its digits in two rounded
  steps: the leading digits as one 64-bit integer, times or divided by a power
  of ten.

  * `Number`: an integer or a double;
  * `Numeral`: a number as it is written;
  * `Numeral.read`: the number that a numeral denotes.
-/
import TreeDoc.Json.Fault

namespace TreeDoc.Json

/-- An integer between `-2^63` and `2^64 - 1`, or a finite double. -/
inductive Number where
  | int (value : Int)
  | float (value : Float)
deriving Repr, DecidableEq

/-- The exponent of a numeral: its sign and its digits. -/
structure Exponent where
  negative : Bool
  digits : List Nat
deriving Repr, DecidableEq

/-- A number as it is written: sign, integer digits, fraction digits (empty
    without a point) and exponent. -/
structure Numeral where
  negative : Bool
  whole : List Nat
  fraction : Option (List Nat)
  exponent : Option Exponent
deriving Repr, DecidableEq

/-- The largest significand that is collected. -/
def maxSignificand : Nat := Nat.pow 2 64 - 1

/-- Appends decimal digits to a significand as long as it stays within
    `maxSignificand`, and returns the digits that are left. -/
def collect (significand : Nat) : List Nat → Nat × List Nat
  | [] => (significand, [])
  | d :: ds =>
    if significand * 10 + d ≤ maxSignificand then collect (significand * 10 + d) ds
    else (significand, d :: ds)

/-- The largest power of ten that is a double. -/
def maxPower : Nat := 308

/-- A power of ten, rounded to a double. -/
def powerOfTen (n : Nat) : Float := Float.ofScientific 1 false n

/-- Divides by a power of ten, in steps of `maxPower` while the value is not
    zero. -/
def divideByPower (x : Float) (n : Nat) : Float :=
  if n ≤ maxPower then x / powerOfTen n
  else if x == 0 then x
  else divideByPower (x / powerOfTen maxPower) (n - maxPower)
termination_by n
decreasing_by simp only [maxPower] at *; omega

/-- The double `significand * 10 ^ exponent`, unless it is too large. -/
def scaled (significand : Nat) (exponent : Int) : Option Float :=
  let x := significand.toUInt64.toFloat
  if exponent < 0 then some (divideByPower x (-exponent).toNat)
  else if exponent.toNat ≤ maxPower then
    let y := x * powerOfTen exponent.toNat
    if y.isInf then none else some y
  else if x == 0 then some x
  else none

/-- The largest exponent that is read. -/
def maxExponent : Nat := Nat.pow 2 31 - 1

/-- The value of the exponent digits, or how many of them pass `maxExponent`. -/
def exponentValue (value count : Nat) : List Nat → Except Nat Nat
  | [] => .ok value
  | d :: ds =>
    if value * 10 + d ≤ maxExponent then exponentValue (value * 10 + d) (count + 1) ds
    else .error (count + 1)

/-- The sign applied to a double. -/
def signed (negative : Bool) (x : Float) : Float := if negative then -x else x

/-- An integer numeral of at most 64 bits. A negative one below `-2^63` and
    minus zero are doubles. -/
def integer (negative : Bool) (significand : Nat) : Number :=
  if negative then
    if 1 ≤ significand ∧ significand ≤ Nat.pow 2 63 then .int (-(significand : Int))
    else .float (-significand.toUInt64.toFloat)
  else .int significand

/-- The number that a numeral denotes. `stop` is the offset after the numeral
    and `digitsAt` the offset of its exponent digits. -/
def Numeral.read (n : Numeral) (digitsAt stop : Nat) : Except Fault Number :=
  let (whole, unread) := collect 0 n.whole
  match unread, n.fraction, n.exponent with
  | [], none, none => .ok (integer n.negative whole)
  | _, _, _ =>
    let fraction := n.fraction.getD []
    let (significand, dropped) := collect whole fraction
    let shift : Int := unread.length - (fraction.length - dropped.length : Nat)
    match n.exponent with
    | none => finish significand shift
    | some e =>
      match exponentValue 0 0 e.digits with
      | .ok value => finish significand (if e.negative then shift - value else shift + value)
      | .error count =>
        if significand ≠ 0 ∧ !e.negative then
          .error { defect := .numberOutOfRange, offset := digitsAt + count }
        else .ok (.float (signed n.negative 0))
where
  /-- The double with this significand and exponent. -/
  finish (significand : Nat) (exponent : Int) : Except Fault Number :=
    match scaled significand exponent with
    | some x => .ok (.float (signed n.negative x))
    | none => .error { defect := .numberOutOfRange, offset := stop }

end TreeDoc.Json
