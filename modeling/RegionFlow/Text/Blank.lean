/-
Module: RegionFlow.Text.Blank
Purpose: Blank characters, trimming and words. A blank is a character with the Unicode property
  White_Space; the table below lists all twenty-five of them. Texts are handled as lists of
  characters, and `String` wrappers stand beside each operation.
Main exports: isBlank, trim, words, trimmed, byteSize, bytePosition
-/

namespace RegionFlow.Text

/-- The characters with the Unicode property White_Space. -/
def isBlank (c : Char) : Bool :=
  let n := c.toNat
  (9 ≤ n && n ≤ 13) || n == 0x20 || n == 0x85 || n == 0xA0 || n == 0x1680
    || (0x2000 ≤ n && n ≤ 0x200A) || n == 0x2028 || n == 0x2029 || n == 0x202F
    || n == 0x205F || n == 0x3000

/-- A space or a tab, the only blanks that may stand between the words of an instruction. -/
def isGap (c : Char) : Bool :=
  c == ' ' || c == '\t'

/-- Drop the blanks at the front. -/
def trimStart (text : List Char) : List Char :=
  text.dropWhile isBlank

/-- Drop the blanks at the end. -/
def trimEnd (text : List Char) : List Char :=
  (text.reverse.dropWhile isBlank).reverse

/-- Drop the blanks at both ends. -/
def trim (text : List Char) : List Char :=
  trimEnd (trimStart text)

/-- The maximal blank-free stretches of a text, in order. -/
def words (text : List Char) : List (List Char) :=
  go [] text
where
  /-- `word` holds the current stretch, last character first. -/
  go (word : List Char) : List Char → List (List Char)
    | [] => if word.isEmpty then [] else [word.reverse]
    | c :: rest =>
      if isBlank c then
        if word.isEmpty then go [] rest else word.reverse :: go [] rest
      else
        go (c :: word) rest

/-- Number of bytes of a text in UTF-8. -/
def byteSize : List Char → Nat
  | [] => 0
  | c :: rest => c.utf8Size + byteSize rest

/-- Byte position of `rest` in `text`, when `rest` is what is left of `text`. -/
def bytePosition (text rest : List Char) : Nat :=
  byteSize text - byteSize rest

/-- `trim` on strings. -/
def trimmed (text : String) : String :=
  String.ofList (trim text.toList)

@[simp] theorem trimStart_nil : trimStart [] = [] := rfl

@[simp] theorem trim_nil : trim [] = [] := rfl

@[simp] theorem byteSize_append (left right : List Char) :
    byteSize (left ++ right) = byteSize left + byteSize right := by
  induction left with
  | nil => simp [byteSize]
  | cons c rest ih => simp [byteSize, ih, Nat.add_assoc]

/-- What is left of a text starts where the consumed part ends. -/
theorem bytePosition_append (consumed rest : List Char) :
    bytePosition (consumed ++ rest) rest = byteSize consumed := by
  simp [bytePosition]

end RegionFlow.Text
