/-
Module: RegionFlow.Region.Order
Purpose: Order of the statements of a region. The schedule gives a statement a vector whose
  components are integers or symbols; vectors compare lexicographically, integers come before symbols,
  and statements without a vector come last. Statements that compare equal keep their order.
Main exports: Component, Region.scheduleVector?, Region.statementOrder
-/
import RegionFlow.Region.Basic
import RegionFlow.Text.Blank
import RegionFlow.Text.Integer

namespace RegionFlow

/-- One component of a schedule vector. -/
inductive Component where
  | int (value : Int)
  | symbol (text : String)
deriving DecidableEq, Repr, Inhabited

namespace Component

/-- The component a text denotes: an integer of 64 bits, or any other text. -/
def ofText (text : String) : Component :=
  let text := Text.trim text.toList
  match Text.signed64? text with
  | some value => int value
  | none => symbol (String.ofList text)

/-- Comparison of components. -/
def order : Component → Component → Ordering
  | int a, int b => compare a b
  | int _, symbol _ => .lt
  | symbol _, int _ => .gt
  | symbol a, symbol b => compare a b

/-- Lexicographic comparison of vectors; a vector comes after those it continues. -/
def orderVectors : List Component → List Component → Ordering
  | [], [] => .eq
  | [], _ :: _ => .lt
  | _ :: _, [] => .gt
  | a :: as, b :: bs => (order a b).then (orderVectors as bs)

/-- Comparison of vectors that may be missing; a missing one comes last. -/
def orderKeys : Option (List Component) → Option (List Component) → Ordering
  | some a, some b => orderVectors a b
  | some _, none => .lt
  | none, some _ => .gt
  | none, none => .eq

end Component

namespace Region

/-- Schedule vector of a statement, if the schedule maps it. -/
def scheduleVector? (region : Region) (statement : String) : Option (List Component) := do
  let piece ← region.schedule.piece? statement
  let target ← piece.output
  return target.dims.map Component.ofText

/-- Names of the statements with their vectors, in order of execution. -/
def scheduledStatements (region : Region) : List (String × Option (List Component)) :=
  (region.statements.keys.map fun name => (name, region.scheduleVector? name)).mergeSort
    fun a b => (Component.orderKeys a.2 b.2).isLE

/-- Names of the statements in order of execution. -/
def statementOrder (region : Region) : List String :=
  region.scheduledStatements.map Prod.fst

end Region

end RegionFlow
