/-
  How a double is written.

  * `Notation`: the decisions of a number format;
  * `Notation.write`: the text of a double;
  * `literalNotation`: the format of number literals;
  * `reportNotation`: the format of numbers quoted in messages.
-/
import TreeDoc.Decimal.Shortest

namespace TreeDoc.Decimal

/-- The decisions of a number format. A number `0.d₁d₂… * 10 ^ point` is written
    in full when `point` lies between `lowest` and `highest`, and otherwise
    with an exponent, whose sign is written as `plus` if it is not negative. -/
structure Notation where
  lowest : Int
  highest : Int
  plus : String
deriving Repr, DecidableEq

/-- The digits in full, with at least one digit on each side of the point. -/
def Digits.inFull (d : Digits) : String :=
  if d.point ≤ 0 then
    "0." ++ String.ofList (List.replicate (-d.point).toNat '0' ++ d.digits)
  else if d.digits.length ≤ d.point.toNat then
    String.ofList (d.digits ++ List.replicate (d.point.toNat - d.digits.length) '0') ++ ".0"
  else
    String.ofList (d.digits.take d.point.toNat) ++ "." ++
      String.ofList (d.digits.drop d.point.toNat)

/-- The digits with one of them before the point, and a power of ten. -/
def Digits.withExponent (plus : String) (d : Digits) : String :=
  let power := d.point - 1
  let mark := if 0 ≤ power then "e" ++ plus else "e"
  let fraction := match d.digits.drop 1 with
    | [] => ""
    | ds => "." ++ String.ofList ds
  String.ofList (d.digits.take 1) ++ fraction ++ mark ++ toString power

/-- The text of a double: its sign, and its shortest decimal. What is not finite
    has a name instead of digits. -/
def Notation.write (f : Notation) (x : Float) : String :=
  let sign := if signBit x then "-" else ""
  let b := Binary.ofFloat x
  if x.isNaN then "NaN"
  else if x.isInf then sign ++ "inf"
  else if b.mantissa = 0 then sign ++ "0.0"
  else
    let d := b.shortest
    sign ++ if f.lowest ≤ d.point && d.point ≤ f.highest then d.inFull else d.withExponent f.plus

/-- Literals are written in full from 0.0001 up to 10^16; a positive exponent
    has no sign. -/
def literalNotation : Notation := { lowest := -3, highest := 16, plus := "" }

/-- Numbers in messages are written in full from 0.00001 up to 10^16; a
    positive exponent has a plus sign. -/
def reportNotation : Notation := { lowest := -4, highest := 16, plus := "+" }

end TreeDoc.Decimal
