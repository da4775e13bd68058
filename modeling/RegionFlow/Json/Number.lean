/-
Module: RegionFlow.Json.Number
Purpose: Written form of floating point numbers: the fewest digits that read back as the number, and
  among those the nearest. Numbers from 1e-5 up to 1e16 are written with a point and at least one
  digit on either side of it, all others with an exponent, which always has a sign.
Main exports: floatText
-/
import RegionFlow.Text.Integer

namespace RegionFlow.Json

/-- A positive number as a fraction. -/
structure Fraction where
  num : Nat
  den : Nat

/-- The number `units · 2 ^ power`. -/
def Fraction.scaled (units : Nat) (power : Int) : Fraction :=
  match power with
  | .ofNat p => ⟨units * Nat.pow 2 p, 1⟩
  | .negSucc p => ⟨units, Nat.pow 2 (p + 1)⟩

/-- The number divided by `10 ^ power`. -/
def Fraction.shifted (x : Fraction) (power : Int) : Fraction :=
  match power with
  | .ofNat p => ⟨x.num, x.den * Nat.pow 10 p⟩
  | .negSucc p => ⟨x.num * Nat.pow 10 (p + 1), x.den⟩

/-- A floating point number with the numbers that round to it, in quarters of its last place. -/
structure Neighbourhood where
  low : Nat
  value : Nat
  high : Nat
  /-- Power of two of a quarter. -/
  power : Int
  /-- Whether the ends round to the number too. -/
  closed : Bool

/-- Neighbourhood of a positive number, from its mantissa bits and exponent bits. -/
def Neighbourhood.ofBits (fraction exponent : Nat) : Neighbourhood :=
  let mantissa := if exponent = 0 then fraction else fraction + Nat.pow 2 52
  let power : Int := (if exponent = 0 then 1 else Int.ofNat exponent) - 1075 - 2
  let low := if fraction = 0 && exponent > 1 then 4 * mantissa - 1 else 4 * mantissa - 2
  ⟨low, 4 * mantissa, 4 * mantissa + 2, power, mantissa % 2 = 0⟩

/-- The digits `count · 10 ^ exponent`, if that number rounds to the given one. -/
def Neighbourhood.contains (n : Neighbourhood) (count : Nat) (exponent : Int) : Bool :=
  let low := (Fraction.scaled n.low n.power).shifted exponent
  let high := (Fraction.scaled n.high n.power).shifted exponent
  if n.closed then low.num ≤ count * low.den && count * high.den ≤ high.num
  else low.num < count * low.den && count * high.den < high.num

/-- The nearer of the two neighbours on the grid `10 ^ exponent` that rounds to the number. -/
def Neighbourhood.onGrid? (n : Neighbourhood) (exponent : Int) : Option Nat :=
  let x := (Fraction.scaled n.value n.power).shifted exponent
  let below := x.num / x.den
  let rest := x.num % x.den
  let belowFits := n.contains below exponent
  let aboveFits := n.contains (below + 1) exponent
  if belowFits && aboveFits then
    if 2 * rest < x.den || (2 * rest = x.den && below % 2 = 0) then some below
    else some (below + 1)
  else if belowFits then some below
  else if aboveFits then some (below + 1)
  else none

/-- Number of decimal digits. -/
def digitCount (n : Nat) : Nat :=
  (Nat.toDigits 10 n).length

/-- Largest exponent of ten that is no greater than a positive number; `budget` bounds the number of
    leading zeros looked for. -/
def leadingExponent (x : Fraction) : Nat → Int
  | 0 => 0
  | budget + 1 =>
    let whole := x.num / x.den
    if whole > 0 then Int.ofNat (digitCount whole) - 1
    else leadingExponent ⟨x.num * 10, x.den⟩ budget - 1

/-- The first grid, from one digit to seventeen, on which a neighbour rounds to the number. -/
def Neighbourhood.shortest (n : Neighbourhood) : Nat → Int → Nat × Int
  | 0, exponent => ((n.onGrid? exponent).getD 0, exponent)
  | budget + 1, exponent =>
    match n.onGrid? exponent with
    | some count => (count, exponent)
    | none => n.shortest budget (exponent - 1)

/-- Move zeros at the end of the digits into the exponent. -/
def dropZeros : Nat → Nat → Int → Nat × Int
  | 0, count, exponent => (count, exponent)
  | budget + 1, count, exponent =>
    if count ≠ 0 && count % 10 = 0 then dropZeros budget (count / 10) (exponent + 1)
    else (count, exponent)

/-- `count` zeros. -/
def zeros (count : Int) : String :=
  String.ofList (List.replicate count.toNat '0')

/-- An exponent with its sign. -/
def exponentText (exponent : Int) : String :=
  (if 0 ≤ exponent then "e+" else "e") ++ Text.intText exponent

/-- Written form of `count · 10 ^ exponent`. -/
def decimalText (count : Nat) (exponent : Int) : String :=
  let digits := Nat.toDigits 10 count
  let length : Int := digits.length
  let point := length + exponent
  if 0 ≤ exponent && point ≤ 16 then String.ofList digits ++ zeros exponent ++ ".0"
  else if 0 < point && point ≤ 16 then
    String.ofList (digits.take point.toNat) ++ "." ++ String.ofList (digits.drop point.toNat)
  else if -5 < point && point ≤ 0 then "0." ++ zeros (-point) ++ String.ofList digits
  else
    let fraction := match digits.drop 1 with
      | [] => ""
      | rest => "." ++ String.ofList rest
    String.ofList (digits.take 1) ++ fraction ++ exponentText (point - 1)

/-- Written form of a finite floating point number. -/
def floatText (value : Float) : String :=
  let bits := value.toBits.toNat
  let sign := if bits / Nat.pow 2 63 = 1 then "-" else ""
  let exponent := bits / Nat.pow 2 52 % Nat.pow 2 11
  let fraction := bits % Nat.pow 2 52
  if exponent = 0 && fraction = 0 then sign ++ "0.0"
  else
    let n := Neighbourhood.ofBits fraction exponent
    let leading := leadingExponent (Fraction.scaled n.value n.power) 400
    let (count, exponent) := n.shortest 17 leading
    let (count, exponent) := dropZeros 20 count exponent
    sign ++ decimalText count exponent

end RegionFlow.Json
