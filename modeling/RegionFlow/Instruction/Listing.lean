/-
Module: RegionFlow.Instruction.Listing
Purpose: Listings of instructions, and the reference a printed value denotes. Lines end at a newline
  or at the two characters backslash and n; lines of blanks only do not count.
Main exports: listingLines, readListing, definedReference?
-/
import RegionFlow.Instruction.Reading
import RegionFlow.Text.Split

namespace RegionFlow.Instruction

open Text

/-- The lines of a listing, without surrounding blanks and without empty lines. -/
def listingLines (listing : String) : List String :=
  (splitOn ['\n'] listing.toList).flatMap (splitOn ['\\', 'n'])
    |>.map trim
    |>.filter (fun line => !line.isEmpty)
    |>.map String.ofList

/-- A line of a listing that is no instruction. -/
structure ListingProblem where
  /-- Number of the line, from one. -/
  number : Nat
  /-- The line. -/
  line : String
  problem : Problem
deriving DecidableEq, Repr, Inhabited

/-- Wording of a problem in a listing. -/
def ListingProblem.message (p : ListingProblem) : String :=
  "line " ++ toString p.number ++ ": " ++ p.problem.message ++ " ('" ++ p.line ++ "')"

/-- Read lines numbered from `number` on, each paired with its instruction. -/
def readLines (number : Nat) :
    List String → Except (Located ListingProblem) (List (String × Instruction))
  | [] => .ok []
  | line :: rest =>
    match read line with
    | .error fault => .error ⟨⟨number, line, fault.problem⟩, fault.position⟩
    | .ok instruction =>
      match readLines (number + 1) rest with
      | .error fault => .error fault
      | .ok others => .ok ((line, instruction) :: others)

/-- Read a listing. The first line that is no instruction is reported. -/
def readListing (listing : String) :
    Except (Located ListingProblem) (List (String × Instruction)) :=
  readLines 1 (listingLines listing)

/-- Whether a word is written as a reference. -/
def isReferenceWord (text : List Char) : Bool :=
  match text with
  | c :: _ => c == '%' || c == '@'
  | [] => false

/-- A word without the commas at its end. -/
def dropCommas (text : List Char) : List Char :=
  (text.reverse.dropWhile (· == ',')).reverse

/-- The local reference left of the first equals sign. -/
def assigned? (text : List Char) : Option (List Char) := do
  let (left, _) ← splitOnce '=' text
  let name := trim left
  if name.head? == some '%' && !name.contains ' ' then some name else none

/-- The reference a printed value denotes: what an instruction defines, or the last reference of a
    typed operand. Literals denote none. -/
def definedReference? (printed : String) : Option String :=
  let text := trim printed.toList
  match assigned? text with
  | some name => some (String.ofList name)
  | none =>
    ((words text).reverse.find? isReferenceWord).map fun name => String.ofList (dropCommas name)

end RegionFlow.Instruction
