/-
Module: RegionFlow.Text.Integer
Purpose: Decimal integers as texts. A natural number is a non-empty run of the digits 0 to 9; a plus
  sign may stand before it, and a minus sign where negative values are allowed. Readers take the
  range they accept and refuse everything outside it; sums of words wrap around.
Main exports: digits?, natBelow?, wrapSigned64, signed64?, intText
-/

namespace RegionFlow.Text

/-- One of the ten decimal digits. -/
def isDigit (c : Char) : Bool :=
  '0' ≤ c && c ≤ '9'

/-- Value of a run of digits, most significant first, on top of `high`. -/
def digitsValue (high : Nat) : List Char → Nat
  | [] => high
  | c :: rest => digitsValue (high * 10 + (c.toNat - 48)) rest

/-- The number a non-empty run of digits denotes. -/
def digits? (text : List Char) : Option Nat :=
  if text.isEmpty || !text.all isDigit then none else some (digitsValue 0 text)

/-- A number below `bound`, with an optional plus sign. -/
def natBelow? (bound : Nat) (text : List Char) : Option Nat :=
  let body := match text with
    | '+' :: rest => rest
    | other => other
  (digits? body).filter (· < bound)

/-- Smallest value of a signed 64-bit word. -/
def minSigned64 : Int := -9223372036854775808

/-- Largest value of a signed 64-bit word. -/
def maxSigned64 : Int := 9223372036854775807

/-- The signed 64-bit word that stands for an integer: counting wraps around at both ends of the
    range. -/
def wrapSigned64 (value : Int) : Int :=
  value.bmod 18446744073709551616

/-- An integer in the range of signed 64-bit words, with an optional sign. -/
def signed64? (text : List Char) : Option Int :=
  let value : Option Int := match text with
    | '+' :: rest => (digits? rest).map Int.ofNat
    | '-' :: rest => (digits? rest).map fun n => -Int.ofNat n
    | other => (digits? other).map Int.ofNat
  value.filter fun v => minSigned64 ≤ v && v ≤ maxSigned64

/-- Decimal text of an integer. -/
def intText (value : Int) : String :=
  match value with
  | .ofNat n => toString n
  | .negSucc n => "-" ++ toString (n + 1)

end RegionFlow.Text
