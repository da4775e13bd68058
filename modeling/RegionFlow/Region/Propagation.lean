/-
Module: RegionFlow.Region.Propagation
Purpose: Propagation of values: every placeholder in an argument list is replaced by the value its
  reference denotes, or taken out where it denotes none. A reference denotes a parameter, failing that
  a computation, a read, or an induction variable.
Main exports: Region.lookup?, Region.propagate, Region.Report
-/
import RegionFlow.Region.Basic

namespace RegionFlow.Region

/-- A reference that was taken out of an argument list. -/
structure DroppedReference where
  /-- Reference of the value with the argument list. -/
  owner : String
  reference : String
deriving DecidableEq, Repr, Inhabited

/-- What propagation did. -/
structure Report where
  /-- Number of placeholders replaced. -/
  substituted : Nat
  dropped : List DroppedReference
deriving DecidableEq, Repr, Inhabited

/-- Whether nothing was done. -/
def Report.isNoop (report : Report) : Bool :=
  report.substituted == 0 && report.dropped.isEmpty

/-- The value a reference denotes. -/
def lookup? (region : Region) (reference : String) : Option ValueId :=
  match region.parameters.get? reference with
  | some parameter => some parameter.value
  | none =>
    match region.computations.get? reference with
    | some id => some id
    | none =>
      match region.findRead? reference with
      | some id => some id
      | none => region.findInductionVariable? reference

/-- What becomes of one argument. -/
inductive Resolution where
  /-- It is no placeholder. -/
  | kept (id : ValueId)
  /-- It is replaced. -/
  | replaced (id : ValueId)
  /-- It is taken out. -/
  | dropped (reference : String)
deriving DecidableEq, Repr, Inhabited

namespace Resolution

/-- The argument afterwards. -/
def id? : Resolution → Option ValueId
  | kept id | replaced id => some id
  | dropped _ => none

/-- Whether the argument was replaced. -/
def isReplaced : Resolution → Bool
  | replaced _ => true
  | kept _ | dropped _ => false

/-- The reference that was taken out. -/
def dropped? : Resolution → Option String
  | dropped reference => some reference
  | kept _ | replaced _ => none

end Resolution

/-- What becomes of an argument. -/
def resolveArg (region : Region) (id : ValueId) : Resolution :=
  match region.arena.get? id with
  | none => .kept id
  | some value =>
    if value.isPlaceholder then
      match region.lookup? value.reference with
      | some producer => .replaced producer
      | none => .dropped value.reference
    else .kept id

/-- Whether a place holds a placeholder. -/
def isPlaceholderAt (region : Region) (id : ValueId) : Bool :=
  ((region.arena.get? id).map Value.isPlaceholder).getD false

/-- The values with a placeholder among their arguments, each with what becomes of its arguments. -/
def plan (region : Region) : List (ValueId × List Resolution) :=
  region.argumentOwners.filterMap fun owner =>
    let args := region.arena.args owner
    if args.any region.isPlaceholderAt then some (owner, args.map region.resolveArg) else none

/-- The references that are taken out of the arguments of one value. -/
def droppedOf (region : Region) (owner : ValueId) (resolutions : List Resolution) :
    List DroppedReference :=
  let name := ((region.arena.get? owner).map Value.reference).getD owner.text
  (resolutions.filterMap Resolution.dropped?).map fun reference => ⟨name, reference⟩

/-- What a plan does. -/
def reportOf (region : Region) (plan : List (ValueId × List Resolution)) : Report :=
  { substituted := (plan.flatMap Prod.snd).countP Resolution.isReplaced
    dropped := plan.flatMap fun entry => region.droppedOf entry.1 entry.2 }

/-- Put the arguments of a plan in place. -/
def applyPlan (arena : Arena) (plan : List (ValueId × List Resolution)) : Arena :=
  plan.foldl (fun arena entry => arena.setArgs entry.1 (entry.2.filterMap Resolution.id?)) arena

/-- Resolve all arguments at once: every reference is looked up in the region as it was. -/
def propagate (region : Region) : Region × Report :=
  let plan := region.plan
  ({ region with arena := applyPlan region.arena plan }, region.reportOf plan)

end RegionFlow.Region
