/-
Module: RegionFlow.Region.Basic
Purpose: Lifted regions: storage, parameters, computations, statements with their accesses and loops,
  and the relations between statement instances. Tables name values by their place in one arena.
Main exports: Region, Region.Statement, Region.Access, Region.Parameter
-/
import RegionFlow.Polyhedral.Basic
import RegionFlow.Storage
import RegionFlow.Table
import RegionFlow.Value.Basic

namespace RegionFlow

open Polyhedral (Relation)

/-- A symbolic scalar of a region. -/
structure Region.Parameter where
  /-- Name in polyhedral text. -/
  name : String
  /-- Reference of its value. -/
  reference : String
  type : ScalarType
  value : ValueId
deriving DecidableEq, Repr, Inhabited

/-- A memory access of a statement. -/
structure Region.Access where
  value : ValueId
  /-- Map from statement instances to array elements. -/
  relation : Relation
deriving DecidableEq, Repr, Inhabited

/-- A statement of a region. -/
structure Region.Statement where
  name : String
  /-- The set of its instances. -/
  domain : Relation
  affine : Bool
  /-- Number of surrounding loops. -/
  depth : Nat
  /-- Accesses; reads by the reference they define, writes by their instruction. -/
  accesses : Table Region.Access
  /-- Induction variables by reference. -/
  loops : Table ValueId

instance : Inhabited Region.Statement := ⟨⟨"", default, true, 0, Table.empty, Table.empty⟩⟩

namespace Region.Statement

/-- Whether an access reads. -/
def isReadIn (arena : Arena) (access : Region.Access) : Bool :=
  ((arena.get? access.value).map Value.isRead).getD false

/-- Reads of a statement with their keys, in order. -/
def reads (statement : Statement) (arena : Arena) : List (String × Region.Access) :=
  statement.accesses.entries.filter fun entry => isReadIn arena entry.2

/-- Writes of a statement with their keys, in order. -/
def writes (statement : Statement) (arena : Arena) : List (String × Region.Access) :=
  statement.accesses.entries.filter fun entry => !isReadIn arena entry.2

end Region.Statement

/-- The relations between instances that depend on each other. -/
structure Region.Dependences where
  raw : Relation
  war : Relation
  waw : Relation
  red : Relation
  tcRed : Relation
deriving DecidableEq, Repr, Inhabited

namespace Region.Dependences

/-- The relations with their names. -/
def toList (dependences : Dependences) : List (String × Relation) :=
  [("RAW", dependences.raw), ("WAR", dependences.war), ("WAW", dependences.waw),
    ("RED", dependences.red), ("TC_RED", dependences.tcRed)]

/-- The relations without the pieces that mention one of `names`. -/
def without (dependences : Dependences) (names : List String) : Dependences :=
  ⟨dependences.raw.without names, dependences.war.without names, dependences.waw.without names,
    dependences.red.without names, dependences.tcRed.without names⟩

end Region.Dependences

/-- A statement that is left out because it depends on a merge without a form. -/
structure Region.DroppedStatement where
  name : String
  /-- Reference of the merge. -/
  merge : String
deriving DecidableEq, Repr, Inhabited

/-- Range of elements that one member of an alias group accesses. -/
structure Region.AccessRange where
  minimal : String
  maximal : String
  readonly : Bool
deriving DecidableEq, Repr, Inhabited

/-- A lifted region. -/
structure Region where
  name : String
  arena : Arena
  storage : Table Storage
  /-- Parameters by reference. -/
  parameters : Table Region.Parameter
  /-- Computations and merges by reference. -/
  computations : Table ValueId
  statements : Table Region.Statement
  /-- Map from statement instances to schedule vectors. -/
  schedule : Relation
  dependences : Region.Dependences
  /-- Constraints on the parameters. -/
  context : Relation
  dropped : List Region.DroppedStatement
  /-- Access ranges, group by group. -/
  accessRanges : List (List Region.AccessRange)

namespace Region

/-- The read with a key in the first statement that has one. -/
def findRead? (region : Region) (reference : String) : Option ValueId :=
  region.statements.values.findSome? fun statement =>
    match statement.accesses.get? reference with
    | some access => if Statement.isReadIn region.arena access then some access.value else none
    | none => none

/-- The induction variable with a reference in the first statement that has one. -/
def findInductionVariable? (region : Region) (reference : String) : Option ValueId :=
  region.statements.values.findSome? fun statement => statement.loops.get? reference

/-- The values that have arguments to resolve: computations in order, then accesses statement by
    statement. -/
def argumentOwners (region : Region) : List ValueId :=
  region.computations.values
    ++ region.statements.values.flatMap fun statement =>
      statement.accesses.values.map Access.value

/-- Whether a loop surrounds some statement. -/
def hasLoops (region : Region) : Bool :=
  region.statements.values.any fun statement =>
    statement.depth > 0 || statement.domain.pieces.any fun piece => !piece.input.dims.isEmpty

/-- The array an access touches, and the direction. -/
def accessArray? (region : Region) (id : ValueId) : Option (String × AccessKind) :=
  match region.arena.get? id with
  | some value =>
    match value.kind with
    | .access direction array _ _ => some (array, direction)
    | _ => none
  | none => none

/-- The access of any statement that a value belongs to. -/
def accessOf? (region : Region) (id : ValueId) : Option Access :=
  region.statements.values.findSome? fun statement =>
    statement.accesses.values.find? fun access => access.value == id

end Region

end RegionFlow
