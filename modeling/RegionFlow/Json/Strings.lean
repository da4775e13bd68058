/-
Module: RegionFlow.Json.Strings
Purpose: Strings of a JSON text: characters that stand for themselves, escapes by letter, and escapes by
  code. A string whose value is not needed is passed with fewer checks.
Main exports: quotedString, skipString
-/
import RegionFlow.Json.Cursor

namespace RegionFlow.Json.Decoder

/-- Value of a hexadecimal digit. -/
def hexDigit? (c : Char) : Option Nat :=
  if '0' ≤ c && c ≤ '9' then some (c.toNat - 48)
  else if 'a' ≤ c && c ≤ 'f' then some (c.toNat - 87)
  else if 'A' ≤ c && c ≤ 'F' then some (c.toNat - 55)
  else none

/-- Value of hexadecimal digits. -/
def hexValue? (digits : List Char) : Option Nat :=
  digits.foldlM (fun high c => (hexDigit? c).map (high * 16 + ·)) 0

/-- Read four bytes as hexadecimal digits. -/
def hexEscape : Decoder Nat := do
  let cursor ← get
  let digits := cursor.rest.take 4
  if Text.byteSize digits < 4 then
    set (⟨[], cursor.offset + Text.byteSize cursor.rest⟩ : Cursor)
    failHere .endInString
  else
    set (⟨cursor.rest.drop 4, cursor.offset + 4⟩ : Cursor)
    match if digits.length = 4 then hexValue? digits else none with
    | some value => return value
    | none => failHere .invalidEscape

/-- Read one character of an escape that has to be there. -/
def escapePart (expected : Char) : Decoder Unit := do
  match ← peek with
  | none => failHere .endInString
  | some c => if c = expected then skip else failNext .unfinishedEscape

/-- Read the rest of an escape by code. Codes above the 16-bit range are written as two. -/
def codeEscape : Decoder Char := do
  let high ← hexEscape
  if 0xDC00 ≤ high && high ≤ 0xDFFF then failHere .loneSurrogate
  else if high < 0xD800 || 0xDBFF < high then return Char.ofNat high
  else
    escapePart '\\'
    escapePart 'u'
    let low ← hexEscape
    if low < 0xDC00 || 0xDFFF < low then failHere .loneSurrogate
    else return Char.ofNat ((high - 0xD800) * 0x400 + (low - 0xDC00) + 0x10000)

/-- The character that an escape by letter stands for. -/
def letterEscape? (c : Char) : Option Char :=
  match c with
  | '"' => some '"'
  | '\\' => some '\\'
  | '/' => some '/'
  | 'b' => some '\x08'
  | 'f' => some '\x0c'
  | 'n' => some '\n'
  | 'r' => some '\r'
  | 't' => some '\t'
  | _ => none

/-- Read the rest of an escape. -/
def escape : Decoder Char := do
  match ← peek with
  | none => failHere .endInString
  | some 'u' =>
    skip
    codeEscape
  | some c =>
    match letterEscape? c with
    | some meant =>
      skip
      return meant
    | none => failNext .invalidEscape

/-- Characters that stand for themselves in a string. -/
def isPlain (c : Char) : Bool :=
  c != '"' && c != '\\' && 0x20 ≤ c.toNat

/-- Read a string from behind its opening quote; `before` holds what was read, in reverse. -/
def stringRest (before : List Char) : Nat → Decoder String
  | 0 => failHere .endInString
  | steps + 1 => do
    let plain ← run isPlain
    let before := plain.reverse ++ before
    match ← peek with
    | none => failHere .endInString
    | some '"' =>
      skip
      return String.ofList before.reverse
    | some '\\' =>
      skip
      let c ← escape
      stringRest (c :: before) steps
    | some _ =>
      skip
      failHere .controlCharacter

/-- Read a string with its opening quote. -/
def quotedString : Decoder String := do
  skip
  stringRest [] (← stepsLeft)

/-- Pass the rest of an escape; its code may be any. -/
def skipEscape : Decoder Unit := do
  match ← peek with
  | none => failHere .endInString
  | some 'u' =>
    skip
    let _ ← hexEscape
  | some c => if (letterEscape? c).isSome then skip else failNext .invalidEscape

/-- Pass a string from behind its opening quote. -/
def skipStringRest : Nat → Decoder Unit
  | 0 => failHere .endInString
  | steps + 1 => do
    let _ ← run isPlain
    match ← peek with
    | none => failHere .endInString
    | some '"' => skip
    | some '\\' =>
      skip
      skipEscape
      skipStringRest steps
    | some _ => failHere .controlCharacter

/-- Pass a string with its opening quote. -/
def skipString : Decoder Unit := do
  skip
  skipStringRest (← stepsLeft)

end RegionFlow.Json.Decoder
