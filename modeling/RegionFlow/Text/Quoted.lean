/-
Module: RegionFlow.Text.Quoted
Purpose: Texts in double quotes, with the quote, the backslash and characters that have no printed
  form escaped. A character without a printed form of its own is written by its code.
Main exports: quoted, quotedList
-/
import RegionFlow.Text.Classes

namespace RegionFlow.Text

/-- Code of a character in hexadecimal, in braces. -/
def codeEscape (c : Char) : String :=
  "\\u\x7b" ++ String.ofList (Nat.toDigits 16 c.toNat) ++ "\x7d"

/-- A character as it stands between quotes. -/
def quotedChar (c : Char) : String :=
  match c with
  | '"' => "\\\""
  | '\\' => "\\\\"
  | '\n' => "\\n"
  | '\r' => "\\r"
  | '\t' => "\\t"
  | '\x00' => "\\0"
  | other => if isPrinted other then other.toString else codeEscape other

/-- A text in double quotes. -/
def quoted (text : String) : String :=
  "\"" ++ String.join (text.toList.map quotedChar) ++ "\""

/-- Quoted texts in square brackets. -/
def quotedList (texts : List String) : String :=
  "[" ++ ", ".intercalate (texts.map quoted) ++ "]"

end RegionFlow.Text
