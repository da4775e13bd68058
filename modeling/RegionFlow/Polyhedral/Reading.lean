/-
Module: RegionFlow.Polyhedral.Reading
Purpose: Reading polyhedral text: an optional parameter list, then pieces in braces, separated by
  semicolons. In a piece the first colon outside brackets starts the constraints, and an arrow
  outside brackets separates the tuples.
Main exports: Relation.read, Problem
-/
import RegionFlow.Instruction.Basic
import RegionFlow.Polyhedral.Basic
import RegionFlow.Text.Reader
import RegionFlow.Text.Split

namespace RegionFlow.Polyhedral

open Text

/-- Why a text is no polyhedral set or map. -/
inductive Problem where
  /-- A tuple is opened and not closed at its end. -/
  | unterminatedTuple
  /-- More than one arrow in a piece. -/
  | nestedRelation (piece : String)
  /-- No group in braces. -/
  | expectedBraces
  /-- Text after the closing brace. -/
  | trailing (rest : String)
deriving DecidableEq, Repr, Inhabited

/-- Wording of a problem. -/
def Problem.message : Problem → String
  | unterminatedTuple => "Unterminated tuple"
  | nestedRelation piece => "Nested relation in '" ++ piece ++ "'"
  | expectedBraces => "Expected '\x7b' ... '\x7d'"
  | trailing rest => "Unexpected input after set: " ++ rest

/-- The non-empty parts between top-level commas. -/
def readDims (text : List Char) : List String :=
  (splitTop [','] text).map trim
    |>.filter (fun dim => !dim.isEmpty)
    |>.map String.ofList

/-- A text as a name; the empty text is no name. -/
def nameOf? (text : List Char) : Option String :=
  if text.isEmpty then none else some (String.ofList text)

/-- Read a tuple. A text without a bracket is a name alone. -/
def readTuple (text : List Char) : Except (Located Problem) Tuple :=
  let text := trim text
  match splitOnce '[' text with
  | none => .ok ⟨nameOf? text, []⟩
  | some (name, rest) =>
    if text.getLast? = some ']' then
      .ok ⟨nameOf? (trim name), readDims rest.dropLast⟩
    else
      .error ⟨.unterminatedTuple, byteSize name⟩

/-- Read the tuples of a piece; `piece` is its whole text. -/
def readTuples (piece head : List Char) : Except (Located Problem) (Tuple × Option Tuple) :=
  match splitTop ['-', '>'] head with
  | [input] => do
    let input ← readTuple input
    return (input, none)
  | [input, output] => do
    let input ← readTuple input
    let output ← readTuple output
    return (input, some output)
  | _ => .error ⟨.nestedRelation (String.ofList (trim piece)), 0⟩

/-- The text before the first top-level colon, and the constraints behind it. -/
def cutConstraints (piece : List Char) : List Char × Option String :=
  match splitTop [':'] piece with
  | [] => (piece, none)
  | head :: rest => (head, nameOf? (trim (join [':'] rest)))

/-- Read one piece. -/
def readPiece (piece : List Char) : Except (Located Problem) Piece := do
  let (head, constraints) := cutConstraints piece
  let (input, output) ← readTuples piece head
  return ⟨input, output, constraints⟩

/-- Read pieces in order. -/
def readPieces : List (List Char) → Except (Located Problem) (List Piece)
  | [] => .ok []
  | piece :: rest =>
    if (trim piece).isEmpty then readPieces rest
    else do
      let first ← readPiece piece
      let others ← readPieces rest
      return first :: others

/-- The text inside a bracketed group. -/
def inner (group : List Char) : List Char :=
  (group.drop 1).dropLast

/-- A parameter list with the arrow behind it. -/
def paramsReader : Reader (List Char) := do
  let group ← Reader.bracketed '[' ']'
  Reader.gap
  Reader.token ['-', '>']
  Reader.gap
  return group

/-- Split a text into its parameters and what follows them. -/
def cutParams (text : List Char) : List String × List Char :=
  match paramsReader text with
  | .done group rest => (readDims (inner group), rest)
  | .miss _ | .stuck _ => ([], text)

/-- Read a text without surrounding blanks. -/
def readTrimmed (text : List Char) : Except (Located Problem) Relation :=
  let (params, rest) := cutParams text
  match Reader.bracketed '\x7b' '\x7d' rest with
  | .miss _ | .stuck _ => .error ⟨.expectedBraces, bytePosition text rest⟩
  | .done body rest =>
    if (trim rest).isEmpty then do
      let pieces ← readPieces (splitTop [';'] (trim (inner body)))
      return ⟨params, pieces, String.ofList text⟩
    else .error ⟨.trailing (String.ofList (trim rest)), bytePosition text rest⟩

/-- Read a polyhedral set or map. -/
def Relation.read (text : String) : Except (Located Problem) Relation :=
  readTrimmed (trim text.toList)

end RegionFlow.Polyhedral
