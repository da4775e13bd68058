/-
Module: RegionFlow.Expectation.Matching
Purpose: Whether a text meets expectations. Directives are looked at in order. An ordered directive is
  found after what was found before it; an unordered one after the last ordered find. What must be
  absent is looked for between the last ordered find before it and the next one after it.
Main exports: Needle, Needle.find?, meets
-/
import RegionFlow.Expectation.Reading

namespace RegionFlow.Expectation

open Text (isWordChar isAlphanumeric)

/-- What a pattern looks for once its variables are known. -/
structure Needle where
  text : List Char
  /-- The text begins at a word boundary. -/
  atStart : Bool
  /-- The text ends at a word boundary. -/
  atEnd : Bool
deriving DecidableEq, Repr, Inhabited

/-- Whether exactly one of two neighbours stands in a word. -/
def isBoundary (left right : Option Char) : Bool :=
  left.any isWordChar != right.any isWordChar

namespace Needle

/-- Whether the needle stands at the start of a text, with `before` in front of it. -/
def fitsAt (needle : Needle) (before : Option Char) (text : List Char) : Bool :=
  needle.text.isPrefixOf text
    && (!needle.atStart || isBoundary before text.head?)
    && (!needle.atEnd ||
      isBoundary (needle.text.getLast?.or before) (text.drop needle.text.length).head?)

/-- Number of characters before the first place where the needle stands. -/
def findFrom? (needle : Needle) (before : Option Char) : List Char → Option Nat
  | [] => if needle.fitsAt before [] then some 0 else none
  | c :: rest =>
    if needle.fitsAt before (c :: rest) then some 0
    else (needle.findFrom? (some c) rest).map (· + 1)

/-- The first place of the needle between two positions of a text: where it begins and ends. Word
    boundaries are judged as if nothing else were there. -/
def find? (needle : Needle) (text : List Char) (start stop : Nat) : Option (Nat × Nat) :=
  (needle.findFrom? none ((text.drop start).take (stop - start))).map fun offset =>
    (start + offset, start + offset + needle.text.length)

end Needle

/-- Variables with the texts they stand for; the last definition counts. -/
abbrev Bindings : Type := List (List Char × List Char)

/-- The text of a part of a pattern. -/
def PatternPart.resolve (bindings : Bindings) : PatternPart → Except Problem (List Char)
  | .text chars => .ok chars
  | .named name =>
    match bindings.lookup name with
    | some value => .ok value
    | none => .error (.undefinedVariable (String.ofList name))

/-- Whether a part is text whose first character is a letter or a number. -/
def PatternPart.beginsWord : PatternPart → Bool
  | .text chars => chars.head?.any isAlphanumeric
  | .named _ => false

/-- Whether a part is text whose last character is a letter or a number. -/
def PatternPart.endsWord : PatternPart → Bool
  | .text chars => chars.getLast?.any isAlphanumeric
  | .named _ => false

/-- What a pattern looks for. Text that begins or ends with a letter or a number does so at a word
    boundary. -/
def Pattern.resolve (pattern : Pattern) (bindings : Bindings) : Except Problem Needle := do
  let texts ← pattern.mapM (PatternPart.resolve bindings)
  return ⟨texts.flatten, pattern.head?.any PatternPart.beginsWord,
    pattern.getLast?.any PatternPart.endsWord⟩

/-- How far matching has come. -/
structure Progress where
  /-- End of the last ordered find. -/
  lastOrdered : Nat
  /-- End of the farthest find. -/
  farthest : Nat
  bindings : Bindings
  /-- What must be absent, with the position from which on. -/
  pending : List (Nat × Needle)
deriving Repr, Inhabited

/-- Position after the line that a position belongs to. -/
def lineEnd (text : List Char) (position : Nat) : Nat :=
  match (text.drop position).findIdx? (· == '\n') with
  | some offset => position + offset + 1
  | none => text.length

/-- Check that nothing pending stands before a position. -/
def checkPending (text : List Char) (pending : List (Nat × Needle)) (stop : Nat) :
    Except Problem Unit :=
  if pending.any fun (start, needle) => (needle.find? text start stop).isSome then .error .mismatch
  else .ok ()

/-- Find a pattern in a range, as the next ordered find. -/
def ordered (text : List Char) (progress : Progress) (pattern : Pattern) (start stop : Nat) :
    Except Problem Progress := do
  let needle ← Pattern.resolve pattern progress.bindings
  match needle.find? text start stop with
  | none => throw .mismatch
  | some (found, stop) =>
    checkPending text progress.pending found
    return { progress with lastOrdered := stop, farthest := stop, pending := [] }

/-- Carry out one directive. -/
def step (text : List Char) (progress : Progress) (directive : Directive) :
    Except Problem Progress :=
  match directive with
  | .check pattern => ordered text progress pattern progress.farthest text.length
  | .sameLine pattern =>
    ordered text progress pattern progress.farthest (lineEnd text progress.farthest)
  | .nextLine pattern =>
    let start := lineEnd text progress.farthest
    ordered text progress pattern start (lineEnd text start)
  | .unordered pattern => do
    let needle ← Pattern.resolve pattern progress.bindings
    match needle.find? text progress.lastOrdered text.length with
    | none => throw .mismatch
    | some (_, stop) => return { progress with farthest := max progress.farthest stop }
  | .absent pattern => do
    let needle ← Pattern.resolve pattern progress.bindings
    return { progress with pending := progress.pending ++ [(progress.lastOrdered, needle)] }
  | .define name value =>
    .ok { progress with bindings := (name, value) :: progress.bindings }

/-- Carry out directives in order, then check what must be absent from the rest. -/
def run (text : List Char) (directives : List Directive) : Except Problem Unit := do
  let progress ← directives.foldlM (step text) ⟨0, 0, [], []⟩
  checkPending text progress.pending text.length

/-- Whether a text meets the expectations that a list of lines holds. -/
def meets (actual expected : String) : Except Problem Unit := do
  run actual.toList (← readDirectives expected)

end RegionFlow.Expectation
