/-
Module: RegionFlow.Graph.Defect
Purpose: Why a region has no graph, or why a graph does not compute what its region computes.
Main exports: Defect, Defect.message
-/
import RegionFlow.Graph.Basic

namespace RegionFlow

/-- Why a graph cannot be made, or is not the graph of a region. -/
inductive Defect where
  /-- No piece of the domain belongs to the statement. -/
  | emptyDomain (statement : String)
  /-- Several pieces of the domain belong to the statement. -/
  | unionDomain (statement : String) (pieces : Nat)
  /-- A dimension lacks a bound. -/
  | unbounded (dim statement : String)
  /-- A value is read that is no access. -/
  | notAnAccess (value : ValueId)
  /-- A value reaches itself. -/
  | dependsOnItself (reference : String)
  /-- A place in an argument list holds no value. -/
  | missingValue (value : ValueId)
  /-- An induction variable belongs to no dimension. -/
  | bindsNoDimension (reference statement : String)
  /-- A read belongs to no access. -/
  | readWithoutAccess (reference : String)
  /-- A selection does not have three operands. -/
  | selectionOperands (reference : String) (count : Nat)
  /-- A pass-through merge does not have one operand. -/
  | forwardedValues (reference : String) (count : Nat)
  /-- A value that can be no operand. -/
  | notAnOperand (reference kind : String)
  /-- A write does not have one stored value. -/
  | nothingStored (key statement : String)
  /-- A write is no access. -/
  | writeNotAnAccess (key : String)
  /-- A statement has no scope. -/
  | noScope (statement : String)
  /-- A write has no node. -/
  | noWriteNode (key statement : String)
  /-- The node of a write stores elsewhere. -/
  | storesElsewhere (key statement array : String) (subscript : List String)
      (expected : Option String) (expectedSubscript : List String)
  /-- The node of a write, or the write, does not have one input. -/
  | malformedWrite (key statement : String) (node : NodeId)
  /-- A node does not compute a value. -/
  | computesOther (key statement : String) (node : NodeId) (found reference kind : String)
  /-- There are more or fewer nodes that write than writes. -/
  | writeCount (nodes writes : Nat)
deriving DecidableEq, Repr, Inhabited

/-- Wording of a defect. -/
def Defect.message : Defect → String
  | emptyDomain statement => "Statement " ++ statement ++ " has an empty domain"
  | unionDomain statement pieces =>
    "Domain of " ++ statement ++ " is a union of " ++ toString pieces ++ " pieces"
  | unbounded dim statement =>
    "Dimension " ++ dim ++ " of " ++ statement ++ " has no derivable lower and upper bound"
  | notAnAccess value => "Value " ++ value.text ++ " is not an access"
  | dependsOnItself reference => "Value " ++ reference ++ " depends on itself"
  | missingValue value => "Value " ++ value.text ++ " is missing"
  | bindsNoDimension reference statement =>
    "Induction variable " ++ reference ++ " binds no dimension of " ++ statement
  | readWithoutAccess reference => "Read " ++ reference ++ " has no access"
  | selectionOperands reference count =>
    "Selection " ++ reference ++ " has " ++ toString count ++ " operands"
  | forwardedValues reference count =>
    "Merge " ++ reference ++ " forwards " ++ toString count ++ " values"
  | notAnOperand reference kind =>
    "Value " ++ reference ++ " (" ++ kind ++ ") cannot be an operand"
  | nothingStored key statement => "Write " ++ key ++ " of " ++ statement ++ " has no stored value"
  | writeNotAnAccess key => "Write " ++ key ++ " is not an access"
  | noScope statement => "Statement " ++ statement ++ " has no iteration scope"
  | noWriteNode key statement => "Write " ++ key ++ " of " ++ statement ++ " has no write node"
  | storesElsewhere key statement array subscript expected expectedSubscript =>
    "Write " ++ key ++ " of " ++ statement ++ " stores to " ++ NodeKind.element array subscript
      ++ " but the region stores to " ++ NodeKind.element (expected.getD "?") expectedSubscript
  | malformedWrite key statement node =>
    "Write " ++ key ++ " of " ++ statement ++ " has a malformed node " ++ node.text
  | computesOther key statement node found reference kind =>
    "Write " ++ key ++ " of " ++ statement ++ ": node " ++ node.text ++ " (" ++ found
      ++ ") does not compute " ++ reference ++ " (" ++ kind ++ ")"
  | writeCount nodes writes =>
    "Graph has " ++ toString nodes ++ " write nodes but the region has " ++ toString writes
      ++ " writes"

end RegionFlow
