/-
Module: RegionFlow.Failure
Purpose: Why a region cannot be lifted. Every cause has one wording and belongs to one category.
Main exports: Part, ParseProblem, Failure, Failure.message, Failure.category
-/
import RegionFlow.Graph.Defect
import RegionFlow.Instruction.Listing
import RegionFlow.Json.Decoder
import RegionFlow.Polyhedral.Reading
import RegionFlow.Region.Finding
import RegionFlow.Text.Quoted

namespace RegionFlow

/-- A part of a record that holds polyhedral text. -/
inductive Part where
  | accessRelation (statement : String)
  | domain (statement : String)
  | schedule
  | dependence (name : String)
  | context
deriving DecidableEq, Repr, Inhabited

/-- Description of a part. -/
def Part.text : Part → String
  | accessRelation statement => "access relation of " ++ statement
  | domain statement => "domain of " ++ statement
  | schedule => "schedule"
  | dependence name => name ++ " dependences"
  | context => "context"

/-- What is wrong with a text of a record. -/
inductive ParseProblem where
  /-- A printed value is no instruction. -/
  | instruction (problem : Instruction.Problem)
  /-- A line of a listing is no instruction. -/
  | listing (problem : Instruction.ListingProblem)
  /-- A part is no polyhedral set or map. -/
  | polyhedral (part : Part) (problem : Polyhedral.Problem)
  | duplicateArray (name : String)
  | duplicateStatement (name : String)
  | unsupportedType (type parameter : String)
  | namesNoArray (relation statement : String)
  | affineFlag (statement : String)
deriving DecidableEq, Repr, Inhabited

/-- Wording of a problem. -/
def ParseProblem.message : ParseProblem → String
  | instruction problem => problem.message
  | listing problem => problem.message
  | polyhedral part problem => part.text ++ ": " ++ problem.message
  | duplicateArray name => "Duplicate array '" ++ name ++ "'"
  | duplicateStatement name => "Duplicate statement '" ++ name ++ "'"
  | unsupportedType type parameter =>
    "Unsupported type '" ++ type ++ "' of parameter " ++ parameter
  | namesNoArray relation statement =>
    "Access relation '" ++ relation ++ "' of " ++ statement ++ " names no array"
  | affineFlag statement => "Statement " ++ statement ++ ": 'affine' must be true or false"

/-- Why a region cannot be lifted. -/
inductive Failure where
  /-- A text of the record cannot be read. -/
  | parse (problem : ParseProblem) (position : Nat)
  /-- The record itself cannot be read. -/
  | record (misfit : Json.Misfit)
  /-- Every statement depends on a merge without a form. -/
  | unrepresentableMerge (region : String) (statements : List String)
  /-- A reference has no producer. -/
  | noProducer (reference owner : String)
  /-- The region is inconsistent. -/
  | finding (finding : Region.Finding)
  /-- The graph cannot be made or does not agree with the region. -/
  | defect (defect : Defect)
  /-- No statement iterates. -/
  | unprofitable (region : String)
  /-- The consumer of the graph failed. -/
  | backend (message : String)

namespace Failure

/-- A problem in a text, at a position. -/
def parseText (position : Nat) (message : String) : String :=
  "parse error: Parse error at position " ++ toString position ++ ": " ++ message

/-- Wording of a problem with the record. -/
def misfitText (misfit : Json.Misfit) : String :=
  let line := toString misfit.line
  let column := toString misfit.column
  parseText misfit.column ("Malformed extraction record at line " ++ line ++ ": "
    ++ misfit.problem.message ++ " at line " ++ line ++ " column " ++ column)

/-- Wording of a finding: unresolved values are told apart from other flaws. -/
def findingText (finding : Region.Finding) : String :=
  match finding.flaw with
  | .unresolved _ => "unresolved value " ++ finding.location ++ ": " ++ finding.flaw.message
  | _ => "structural inconsistency: " ++ finding.text

/-- Wording of a failure. -/
def message : Failure → String
  | parse problem position => parseText position problem.message
  | record misfit => misfitText misfit
  | unrepresentableMerge region statements =>
    "unrepresentable merge in region " ++ region ++ ": dropped " ++ Text.quotedList statements
  | noProducer reference owner =>
    "unresolved value " ++ reference ++ ": no producer in the region (used by " ++ owner ++ ")"
  | finding found => findingText found
  | defect cause => "generation defect: " ++ cause.message
  | unprofitable region => "region " ++ region ++ " is not profitable: no statement iterates"
  | backend message => "backend failure: " ++ message

/-- Category of a failure. -/
def category : Failure → String
  | parse _ _ | record _ => "ParseError"
  | unrepresentableMerge _ _ => "UnrepresentableMerge"
  | noProducer _ _ => "UnresolvedValue"
  | finding found =>
    match found.flaw with
    | .unresolved _ => "UnresolvedValue"
    | _ => "StructuralInconsistency"
  | defect _ => "GenerationDefect"
  | unprofitable _ => "Unprofitable"
  | backend _ => "Backend"

/-- One line that tells category and wording. -/
def line (failure : Failure) : String :=
  "error: " ++ failure.category ++ ": " ++ failure.message ++ "\n"

end Failure

end RegionFlow
