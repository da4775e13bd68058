/-
Module: RegionFlow.Region.Dump
Purpose: Written form of a region, one line per part. Relations are normalised; values are written as
  the expressions they stand for.
Main exports: Region.dump
-/
import RegionFlow.Region.Basic
import RegionFlow.Value.Expansion

namespace RegionFlow.Region

/-- What a write stores, as an expression. -/
def storedText (region : Region) (id : ValueId) : String :=
  match (region.arena.args id).head? with
  | some stored => region.arena.render stored
  | none => "?"

/-- Line of an access; nothing where the value is no access. -/
def accessLine (region : Region) (key : String) (access : Access) : String :=
  match region.accessArray? access.value with
  | some (array, .read) => "  read " ++ array ++ " " ++ key ++ "\n"
  | some (array, .write) =>
    "  write " ++ array ++ " <- " ++ region.storedText access.value ++ "\n"
  | none => ""

/-- Lines of a statement. -/
def statementLines (region : Region) (statement : Statement) : String :=
  "stmt " ++ statement.name ++ " " ++ statement.domain.render
    ++ (if statement.affine then "" else " nonaffine") ++ "\n"
    ++ String.join (statement.loops.keys.map fun reference => "  loop " ++ reference ++ "\n")
    ++ String.join (statement.accesses.entries.map fun (key, access) =>
      region.accessLine key access)

/-- Line of a computation; nothing where there is no value. -/
def computationLine (region : Region) (reference : String) (id : ValueId) : String :=
  match region.arena.get? id with
  | none => ""
  | some value =>
    value.kind.name ++ " " ++ reference ++ ": " ++ value.type.name ++ " = "
      ++ region.arena.render id ++ "\n"

/-- Line of a parameter. -/
def parameterLine (parameter : Parameter) : String :=
  "param " ++ parameter.name ++ " = " ++ parameter.reference ++ ": " ++ parameter.type.name ++ "\n"

/-- Written form of a region. -/
def dump (region : Region) : String :=
  let dependences := region.dependences.toList.filter fun entry => !entry.2.isEmpty
  "region " ++ region.name ++ "\n"
    ++ "context " ++ region.context.render ++ "\n"
    ++ "schedule " ++ region.schedule.render ++ "\n"
    ++ String.join (region.storage.values.map fun storage => "array " ++ storage.text ++ "\n")
    ++ String.join (region.parameters.values.map parameterLine)
    ++ String.join (region.computations.entries.map fun (reference, id) =>
      region.computationLine reference id)
    ++ String.join (region.statements.values.map region.statementLines)
    ++ String.join (region.dropped.map fun dropped =>
      "dropped " ++ dropped.name ++ " (merge " ++ dropped.merge ++ ")\n")
    ++ String.join (dependences.map fun (name, relation) =>
      "dep " ++ name ++ " " ++ relation.render ++ "\n")

end RegionFlow.Region
