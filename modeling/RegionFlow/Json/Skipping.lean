/-
Module: RegionFlow.Json.Skipping
Purpose: Passing over a value of any form. The brackets that are open are kept in a list, so values may be
  nested to any depth.
Main exports: skipValue
-/
import RegionFlow.Json.Numerals
import RegionFlow.Json.Strings

namespace RegionFlow.Json.Decoder

/-- A bracket that is open. -/
inductive Frame where
  | list | object
deriving DecidableEq

/-- Pass the key of an entry and the colon behind it. -/
def skipKey : Decoder Unit := do
  match ← peekPart with
  | some '"' => skipString
  | some _ => failNext .keyNotString
  | none => failNext .endInObject
  match ← peekPart with
  | some ':' => skip
  | some _ => failNext .expectedColon
  | none => failNext .endInObject

/-- What follows a complete part inside the open brackets: brackets are closed until a comma leads to
    another part. Returns the brackets that are then open. -/
def closeFrames (mayContinue : Bool) : List Frame → Decoder (List Frame)
  | [] => return []
  | frame :: outer => do
    match ← peekPart with
    | some c =>
      if c = ',' && mayContinue then
        skip
        return frame :: outer
      else if c = (match frame with | .list => ']' | .object => '\x7d') then
        skip
        closeFrames true outer
      else if mayContinue then
        failNext (match frame with | .list => .expectedListEnd | .object => .expectedObjectEnd)
      else return frame :: outer
    | none => failNext (match frame with | .list => .endInList | .object => .endInObject)

/-- Pass a value inside the brackets that are open, and all that follows until they are closed. -/
def skipParts (frames : List Frame) : Nat → Decoder Unit
  | 0 => failNext .endInValue
  | steps + 1 => do
    let (opened, frames) ← match ← peekPart with
      | none => failNext .endInValue
      | some 'n' => do skip; word ['u', 'l', 'l']; pure (false, frames)
      | some 't' => do skip; word ['r', 'u', 'e']; pure (false, frames)
      | some 'f' => do skip; word ['a', 'l', 's', 'e']; pure (false, frames)
      | some '-' => do skip; skipNumber; pure (false, frames)
      | some '"' => do skipString; pure (false, frames)
      | some '[' => do skip; pure (true, Frame.list :: frames)
      | some '\x7b' => do skip; pure (true, Frame.object :: frames)
      | some c => do
        if Text.isDigit c then skipNumber else failNext .expectedValue
        pure (false, frames)
    match ← closeFrames (!opened) frames with
    | [] => return ()
    | .list :: outer => skipParts (.list :: outer) steps
    | .object :: outer => do
      skipKey
      skipParts (.object :: outer) steps

/-- Pass one value of any form. -/
def skipValue : Decoder Unit := do
  skipParts [] (← stepsLeft)

end RegionFlow.Json.Decoder
