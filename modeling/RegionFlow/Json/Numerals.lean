/-
Module: RegionFlow.Json.Numerals
Purpose: Numbers of a JSON text. Digits are collected up to the range of a 64-bit word, further ones only
  move the point. A number whose value is not needed is passed with fewer checks.
Main exports: number, skipNumber
-/
import RegionFlow.Json.Cursor
import RegionFlow.Text.Integer

namespace RegionFlow.Json.Decoder

/-- Largest significand that is kept in full. -/
def significandLimit : Nat := 18446744073709551615

/-- Append digits to a significand while it stays within the limit; the digits left over. -/
def takeDigits (significand : Nat) : List Char → Nat × List Char
  | [] => (significand, [])
  | c :: rest =>
    let grown := significand * 10 + (c.toNat - 48)
    if grown > significandLimit then (significand, c :: rest) else takeDigits grown rest

/-- A power of ten. -/
def powerOfTen (exponent : Nat) : Float :=
  Float.ofScientific 1 false exponent

/-- The number `significand · 10 ^ exponent`, by one rounded division or multiplication per step of
    at most 308 places. `none` is out of range. -/
def scale? (value : Float) : Nat → Int → Option Float
  | 0, _ => some value
  | steps + 1, exponent =>
    if exponent.natAbs ≤ 308 then
      if 0 ≤ exponent then
        let scaled := value * powerOfTen exponent.toNat
        if scaled.isInf then none else some scaled
      else some (value / powerOfTen (-exponent).toNat)
    else if value == 0.0 then some value
    else if 0 ≤ exponent then none
    else scale? (value / 1e308) steps (exponent + 308)

/-- The number with a sign, a significand and an exponent. -/
def floatOf (positive : Bool) (significand : Nat) (exponent : Int) : Decoder Found := do
  match scale? (UInt64.ofNat significand).toFloat (exponent.natAbs + 1) exponent with
  | some value => return .float (if positive then value else -value)
  | none => failHere .numberOutOfRange

/-- Largest exponent that is read in full. -/
def exponentLimit : Nat := 2147483647

/-- Read the digits of an exponent on top of `high`; `none` if it exceeds the limit. -/
def exponentDigits (high : Nat) : Nat → Decoder (Option Nat)
  | 0 => return some high
  | steps + 1 => do
    match ← peek with
    | some c =>
      if Text.isDigit c then
        skip
        let grown := high * 10 + (c.toNat - 48)
        if grown > exponentLimit then return none else exponentDigits grown steps
      else return some high
    | none => return some high

/-- Read an exponent from its mark on. -/
def exponentPart (positive : Bool) (significand : Nat) (start : Int) : Decoder Found := do
  skip
  let upward ← match ← peek with
    | some '+' => do skip; pure true
    | some '-' => do skip; pure false
    | _ => pure true
  match ← peek with
  | none => failHere .endInValue
  | some c =>
    if !Text.isDigit c then failNext .invalidNumber
    else
      skip
      match ← exponentDigits (c.toNat - 48) (← stepsLeft) with
      | some exponent =>
        floatOf positive significand (if upward then start + exponent else start - exponent)
      | none =>
        if significand ≠ 0 && upward then failHere .numberOutOfRange
        else
          let _ ← run Text.isDigit
          return .float (if positive then 0.0 else -0.0)

/-- Read what follows the digits of a floating point number. -/
def floatEnd (positive : Bool) (significand : Nat) (exponent : Int) : Decoder Found := do
  match ← peek with
  | some 'e' | some 'E' => exponentPart positive significand exponent
  | _ => floatOf positive significand exponent

/-- Read a fraction from its point on. -/
def fractionPart (positive : Bool) (significand : Nat) (exponent : Int) : Decoder Found := do
  skip
  let digits ← run Text.isDigit
  if digits.isEmpty then
    match ← peek with
    | some _ => failNext .invalidNumber
    | none => failNext .endInValue
  else
    let (grown, left) := takeDigits significand digits
    floatEnd positive grown (exponent - (digits.length - left.length))

/-- Read a number from behind its sign. -/
def number (positive : Bool) : Decoder Found := do
  match ← peek with
  | none => failHere .endInValue
  | some c =>
    if !Text.isDigit c then failNext .invalidNumber
    else
      skip
      let digits ← if c = '0' then
          match ← peek with
          | some d => if Text.isDigit d then failNext .invalidNumber else pure []
          | none => pure []
        else run Text.isDigit
      let (significand, left) := takeDigits (c.toNat - 48) digits
      match ← peek with
      | some '.' => fractionPart positive significand left.length
      | some 'e' | some 'E' => exponentPart positive significand left.length
      | _ =>
        if !left.isEmpty then floatOf positive significand left.length
        else if positive then return .integer (toString significand)
        else if significand = 0 || significand > 9223372036854775808 then
          return .float (-(UInt64.ofNat significand).toFloat)
        else return .integer ("-" ++ toString significand)

/-- Pass an exponent from its mark on. -/
def skipExponent : Decoder Unit := do
  skip
  match ← peek with
  | some '+' | some '-' => skip
  | _ => pure ()
  match ← peek with
  | none => failHere .invalidNumber
  | some c =>
    if Text.isDigit c then
      let _ ← run Text.isDigit
    else failNext .invalidNumber

/-- Pass an exponent, if there is one. -/
def skipOptionalExponent : Decoder Unit := do
  match ← peek with
  | some 'e' | some 'E' => skipExponent
  | _ => pure ()

/-- Pass a number from behind its sign. -/
def skipNumber : Decoder Unit := do
  match ← peek with
  | none => failHere .invalidNumber
  | some '0' =>
    skip
    match ← peek with
    | some c => if Text.isDigit c then failNext .invalidNumber else pure ()
    | none => pure ()
  | some c =>
    if Text.isDigit c then
      let _ ← run Text.isDigit
    else failNext .invalidNumber
  match ← peek with
  | some '.' =>
    skip
    let digits ← run Text.isDigit
    if digits.isEmpty then failNext .invalidNumber else skipOptionalExponent
  | _ => skipOptionalExponent

end RegionFlow.Json.Decoder
