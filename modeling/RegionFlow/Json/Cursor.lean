/-
Module: RegionFlow.Json.Cursor
Purpose: Reading of a JSON text from front to back. A problem is met either at the place reading has come
  to or at the byte behind it; a problem with data is placed later, where the enclosing brackets end.
Main exports: Fault, Cursor, Decoder
-/
import RegionFlow.Json.Problem
import RegionFlow.Text.Blank

namespace RegionFlow.Json

/-- A problem with its byte offset, once that is known. -/
structure Fault where
  problem : Problem
  offset : Option Nat

/-- What is left of a text, and how many bytes were read. -/
structure Cursor where
  rest : List Char
  offset : Nat

/-- A decoder reads from a cursor; a fault leaves the cursor where it was met. -/
abbrev Decoder : Type → Type := EStateM Fault Cursor

namespace Decoder

variable {α : Type}

/-- Fail at the place reading has come to. -/
def failHere (problem : Problem) : Decoder α := do
  throw ⟨problem, some (← get).offset⟩

/-- Fail at the next byte. -/
def failNext (problem : Problem) : Decoder α := do
  let cursor ← get
  throw ⟨problem, some (if cursor.rest.isEmpty then cursor.offset else cursor.offset + 1)⟩

/-- Fail with a problem that is not placed yet. -/
def failUnplaced (problem : Problem) : Decoder α :=
  throw ⟨problem, none⟩

/-- The next character. -/
def peek : Decoder (Option Char) := do
  return (← get).rest.head?

/-- Pass the next character. -/
def skip : Decoder Unit :=
  modify fun cursor =>
    match cursor.rest with
    | [] => cursor
    | c :: rest => ⟨rest, cursor.offset + c.utf8Size⟩

/-- Read the longest run of characters in a class. -/
def run (accept : Char → Bool) : Decoder (List Char) := do
  let cursor ← get
  let taken := cursor.rest.takeWhile accept
  set (⟨cursor.rest.dropWhile accept, cursor.offset + Text.byteSize taken⟩ : Cursor)
  return taken

/-- Blanks between the parts of a JSON text. -/
def isBlank (c : Char) : Bool :=
  c == ' ' || c == '\n' || c == '\t' || c == '\r'

/-- Pass blanks; the next character. -/
def peekPart : Decoder (Option Char) := do
  let _ ← run isBlank
  peek

/-- A bound on the number of steps left: each step of a loop reads at least one character. -/
def stepsLeft : Decoder Nat := do
  return (← get).rest.length + 1

/-- Place the fault of a decoder where reading ended, unless it is placed. -/
def placed (body : Decoder α) : Decoder α := fun cursor =>
  match body cursor with
  | .ok value after => .ok value after
  | .error fault after => .error ⟨fault.problem, fault.offset.or (some after.offset)⟩ after

/-- Read a body and then its closing bracket. The bracket is also tried after a fault, which it may
    move the place of. -/
def enclosed (close : Decoder Unit) (body : Decoder α) : Decoder α :=
  placed fun cursor =>
    match body cursor with
    | .ok value after =>
      match close after with
      | .ok _ done => .ok value done
      | .error fault done => .error fault done
    | .error fault after =>
      match close after with
      | .ok _ done | .error _ done => .error fault done

/-- Read the rest of a word. -/
def word : List Char → Decoder Unit
  | [] => pure ()
  | expected :: rest => do
    match ← peek with
    | none => failHere .endInValue
    | some c =>
      if c = expected then
        skip
        word rest
      else failNext .expectedWord

end Decoder

end RegionFlow.Json
