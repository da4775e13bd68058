/-
Module: RegionFlow.Region.Metadata
Purpose: Facts about a region that the consumer of its graph needs besides the graph: types of
  parameters, parameters with a fixed value, extents of arrays, and access ranges.
Main exports: Metadata, Region.metadata
-/
import RegionFlow.Region.Basic
import RegionFlow.Text.Blank
import RegionFlow.Text.Integer
import RegionFlow.Text.Split

namespace RegionFlow

/-- Facts about a region. -/
structure Metadata where
  name : String
  /-- Types of the parameters by name. -/
  parameters : Table ScalarType
  /-- Values of the parameters that the context fixes. -/
  constants : Table Int
  /-- Extents of the arrays, outermost first. -/
  sizeHints : Table (List String)
  accessRanges : List Region.AccessRange

namespace Region

/-- The parameter that a constraint fixes, with its value: an equation between a parameter and an
    integer of 64 bits, either way round. -/
def pinned? (params : List String) (conjunct : List Char) : Option (String × Int) :=
  if conjunct.any fun c => c == '<' || c == '>' || c == '!' then none
  else
    match Text.splitOnce '=' conjunct with
    | none => none
    | some (left, right) =>
      let left := Text.trim left
      let right := Text.trim right
      match Text.signed64? left, Text.signed64? right with
      | none, some value =>
        let name := String.ofList left
        if params.contains name then some (name, value) else none
      | some value, none =>
        let name := String.ofList right
        if params.contains name then some (name, value) else none
      | _, _ => none

/-- The parameters that a context fixes, in the order of the constraints. -/
def pinnedParameters (context : Polyhedral.Relation) : List (String × Int) :=
  (context.pieces.filterMap Polyhedral.Piece.constraints).flatMap fun constraints =>
    (Text.splitOn " and ".toList constraints.toList).filterMap (pinned? context.params)

/-- Arrays in memory, as opposed to scalars. -/
def arrays (region : Region) : List Storage :=
  region.storage.values.filter fun storage => storage.kind = .array

/-- Facts about a region. -/
def metadata (region : Region) : Metadata :=
  { name := region.name
    parameters := Table.ofList (region.parameters.values.map fun parameter =>
      (parameter.name, parameter.type))
    constants := Table.ofList (pinnedParameters region.context)
    sizeHints := Table.ofList (region.arrays.map fun storage =>
      (storage.name, storage.shape.map Extent.text))
    accessRanges := region.accessRanges.flatten }

end Region

end RegionFlow
