/-
Module: RegionFlow.Record.Basic
Purpose: The record of one extracted region. Its fields hold the texts an extractor prints:
  instructions, polyhedral sets and maps, and values with their types.
Main exports: Record, Record.Parameter, Record.Array, Record.Statement, Record.Access
-/
import RegionFlow.Storage
import RegionFlow.Value.Basic

namespace RegionFlow

/-- A parameter of an extracted region. -/
structure Record.Parameter where
  /-- Name in polyhedral text. -/
  name : String
  /-- The value it stands for, as printed. -/
  printed : String
  /-- Spelling of its type. -/
  type : String
deriving DecidableEq, Repr, Inhabited

/-- An array, or a scalar kept in memory, of an extracted region. -/
structure Record.Array where
  name : String
  kind : StorageKind
  /-- Texts of the extents. -/
  sizes : List String
  /-- Spelling of the element type. -/
  type : String
  /-- The base pointer, as printed. -/
  pointer : String
deriving DecidableEq, Repr, Inhabited

/-- Texts of the dependence relations. -/
structure Record.Dependences where
  raw : String
  war : String
  waw : String
  red : String
  tcRed : String
deriving DecidableEq, Repr, Inhabited

/-- A memory access of a statement. -/
structure Record.Access where
  direction : AccessKind
  /-- Text of the map from statement instances to array elements. -/
  relation : String
  /-- The instruction that accesses memory, as printed. -/
  instruction : String
  /-- The stored value of a write, as printed. -/
  incoming : String
deriving DecidableEq, Repr, Inhabited

/-- A statement of an extracted region. -/
structure Record.Statement where
  name : String
  /-- Text of the set of instances. -/
  domain : String
  /-- Whether the statement is affine; `none` where the record does not tell. -/
  affine : Option Bool
  /-- Induction variables of the surrounding loops, as printed, outermost first. -/
  loops : List String
  accesses : List Record.Access
  /-- A listing for this statement alone. -/
  instructions : Option String
deriving DecidableEq, Repr, Inhabited

/-- Texts of the lowest and the highest element accessed. -/
structure Record.Range where
  minimal : String
  maximal : String
deriving DecidableEq, Repr, Inhabited

/-- Ranges that may overlap. -/
structure Record.AliasGroup where
  readwrite : List Record.Range
  readonly : List Record.Range
deriving DecidableEq, Repr, Inhabited

/-- The record of one extracted region. -/
structure Record where
  name : String
  /-- Text of the constraints on the parameters. -/
  context : String
  /-- Text of the map from statement instances to schedule vectors. -/
  schedule : String
  parameters : List Record.Parameter
  arrays : List Record.Array
  dependences : Record.Dependences
  /-- The listing of the region. -/
  instructions : String
  statements : List Record.Statement
  aliasGroups : List Record.AliasGroup
deriving DecidableEq, Repr, Inhabited

end RegionFlow
