/-
Module: RegionFlow.Text.Split
Purpose: Cutting texts at separators. `splitAtLevel` cuts at the occurrences of a separator that
  stand at level zero, where a weight per character raises and lowers the level; with brackets as
  weights it splits outside all brackets, with no weights it splits everywhere. The level is counted
  before the cut is tried, characters of a separator do not count, and the level may fall below zero.
Main exports: splitAtLevel, splitTop, splitOn, splitOnce, lines
-/

namespace RegionFlow.Text

/-- The text after `start`, if it begins with it. -/
def after? (start text : List Char) : Option (List Char) :=
  if start.isPrefixOf text then some (text.drop start.length) else none

/-- Put a character in front of the first part. -/
def consHead (c : Char) : List (List Char) → List (List Char)
  | [] => [[c]]
  | part :: parts => (c :: part) :: parts

/-- Cut `text` at the occurrences of `separator` at level zero. `level` is the level before the
    text, and `skip` counts the characters of the last separator that are still to be passed. -/
def splitAtLevel (weight : Char → Int) (separator : List Char) (level : Int) (skip : Nat) :
    List Char → List (List Char)
  | [] => [[]]
  | c :: rest =>
    match skip with
    | skip + 1 => splitAtLevel weight separator level skip rest
    | 0 =>
      let level := level + weight c
      if level == 0 && separator.isPrefixOf (c :: rest) then
        [] :: splitAtLevel weight separator level (separator.length - 1) rest
      else
        consHead c (splitAtLevel weight separator level 0 rest)

/-- Opening brackets raise the level by one and closing brackets lower it by one. -/
def bracketWeight (c : Char) : Int :=
  match c with
  | '(' | '[' | '\x7b' => 1
  | ')' | ']' | '\x7d' => -1
  | _ => 0

/-- Cut at the separators outside all brackets. -/
def splitTop (separator text : List Char) : List (List Char) :=
  splitAtLevel bracketWeight separator 0 0 text

/-- Cut at every separator. -/
def splitOn (separator text : List Char) : List (List Char) :=
  splitAtLevel (fun _ => 0) separator 0 0 text

/-- The texts before and after the first `mark`. -/
def splitOnce (mark : Char) : List Char → Option (List Char × List Char)
  | [] => none
  | c :: rest =>
    if c == mark then some ([], rest)
    else (splitOnce mark rest).map fun (left, right) => (c :: left, right)

/-- Whether `part` occurs in the text. -/
def occurs (part : List Char) : List Char → Bool
  | [] => part.isEmpty
  | c :: rest => part.isPrefixOf (c :: rest) || occurs part rest

/-- Join parts with a separator between neighbours. -/
def join (separator : List Char) : List (List Char) → List Char
  | [] => []
  | [part] => part
  | part :: parts => part ++ separator ++ join separator parts

/-- Drop one carriage return at the end of a line. -/
def dropReturn (line : List Char) : List Char :=
  match line.reverse with
  | '\r' :: rest => rest.reverse
  | _ => line

/-- The lines of a text: each ends at a newline, which may follow a carriage return, and nothing
    after the last newline is no line. The last line keeps a carriage return. -/
def lines (text : List Char) : List (List Char) :=
  let parts := splitOn ['\n'] text
  let ended := parts.dropLast.map dropReturn
  match parts.getLast? with
  | some (c :: last) => ended ++ [c :: last]
  | _ => ended

end RegionFlow.Text
