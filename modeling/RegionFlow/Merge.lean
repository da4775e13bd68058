/-
Module: RegionFlow.Merge
Purpose: Merges without control flow. A merge passes one value on, or selects between two by the
  condition of a branch seen before it, or has neither form. The first branch with both of its
  targets among the incoming labels decides; failing that, the last incoming edge is looked up among
  the targets and the first incoming edge stands for the other side.
Main exports: Branch, MergeForm, resolveMerge?
-/
import RegionFlow.Instruction.Basic

namespace RegionFlow

/-- A two-way branch seen before a merge. -/
structure Branch where
  condition : Operand
  ifTrue : String
  ifFalse : String
deriving DecidableEq, Repr, Inhabited

/-- A merge without control flow. -/
inductive MergeForm where
  /-- Every edge carries this value. -/
  | forward (value : Operand)
  /-- The condition chooses between two values. -/
  | select (condition ifTrue ifFalse : Operand)
deriving DecidableEq, Repr, Inhabited

namespace MergeForm

/-- Operands in order; the condition of a selection comes first. -/
def operands : MergeForm → List Operand
  | forward value => [value]
  | select condition ifTrue ifFalse => [condition, ifTrue, ifFalse]

/-- Whether the merge is a selection. -/
def isSelect : MergeForm → Bool
  | forward _ => false
  | select _ _ _ => true

end MergeForm

/-- The value on the first edge with a label. -/
def valueAt? (incoming : List Incoming) (label : String) : Option Operand :=
  (incoming.find? fun edge => edge.label == label).map Incoming.value

/-- Selection by a branch whose two targets are distinct incoming labels. -/
def selectByTargets? (incoming : List Incoming) (branch : Branch) : Option MergeForm :=
  if branch.ifTrue = branch.ifFalse then none
  else
    match valueAt? incoming branch.ifTrue, valueAt? incoming branch.ifFalse with
    | some ifTrue, some ifFalse => some (.select branch.condition ifTrue ifFalse)
    | _, _ => none

/-- Selection by a branch one of whose targets is the label of the last edge. -/
def selectByLast? (first last : Incoming) (branch : Branch) : Option MergeForm :=
  if last.label = branch.ifTrue then
    some (.select branch.condition last.value first.value)
  else if last.label = branch.ifFalse then
    some (.select branch.condition first.value last.value)
  else none

/-- The form of a merge, given the branches seen so far. An undefined incoming value leaves it
    without one; edges that agree in label or in value pass the first value on. -/
def resolveMerge? (incoming : List Incoming) (branches : List Branch) : Option MergeForm :=
  match incoming.head?, incoming.getLast? with
  | some first, some last =>
    if incoming.any fun edge => edge.value.isUndefined then none
    else if incoming.all (fun edge => edge.label == first.label)
        || incoming.all (fun edge => edge.value == first.value) then
      some (.forward first.value)
    else
      match branches.findSome? (selectByTargets? incoming) with
      | some form => some form
      | none => branches.findSome? (selectByLast? first last)
  | _, _ => none

end RegionFlow
