/-
Module: RegionFlow.Region.Verification
Purpose: Verification of a region: values are free of placeholders and cycles, domains and access
  relations belong to their statements and fit their arrays, induction variables belong to loops of the
  statement that uses them, and relations name declared statements only.
Main exports: Region.findings, Region.verify
-/
import RegionFlow.Failure
import RegionFlow.Region.Basic
import RegionFlow.Value.Validity

namespace RegionFlow.Region

open Polyhedral (Relation Piece)

/-- Reference of the value at a place. -/
def referenceAt (region : Region) (id : ValueId) : String :=
  ((region.arena.get? id).map Value.reference).getD id.text

/-- Where an access stands. -/
def accessLocation (statement key : String) : String :=
  statement ++ "/" ++ key

/-- A placeholder or a cycle below a value. -/
def valueFindings (region : Region) (location : String) (id : ValueId) : List Finding :=
  match region.arena.validate id with
  | .ok () => []
  | .error (.unresolved place) => [⟨location, .unresolved (region.referenceAt place)⟩]
  | .error (.cycle place) => [⟨location, .cycle (region.referenceAt place)⟩]

/-- Flaws of the values: computations first, then accesses. -/
def allValueFindings (region : Region) : List Finding :=
  (region.computations.entries.flatMap fun (reference, id) => region.valueFindings reference id)
    ++ region.statements.values.flatMap fun statement =>
      statement.accesses.entries.flatMap fun (key, access) =>
        region.valueFindings (accessLocation statement.name key) access.value

/-- Flaws of one piece of a domain. -/
def domainPieceFlaws (statement : Statement) (piece : Piece) : List Flaw :=
  let dims := piece.input.dims.length
  (if piece.input.name = some statement.name then [] else [.foreignDomain piece.input.name])
    ++ if dims > statement.depth then [.tooManyDims dims statement.depth] else []

/-- Flaws of one piece of an access relation. -/
def accessPieceFlaws (statement : Statement) (array : String) (storage : Storage)
    (piece : Piece) : List Flaw :=
  let count := (piece.output.map fun target => target.dims.length).getD 0
  (if piece.input.name = some statement.name then [] else [.foreignRelation])
    ++ if count = storage.rank then [] else [.subscriptCount array count storage.rank]

/-- Flaws of an access. -/
def accessFlaws (region : Region) (statement : Statement) (access : Access) : List Flaw :=
  match region.accessArray? access.value with
  | none => [.notAnAccess]
  | some (array, _) =>
    match region.storage.get? array with
    | none => [.undeclaredArray array]
    | some storage => access.relation.pieces.flatMap (accessPieceFlaws statement array storage)

/-- The flaw of a value that stands for an induction variable of another statement. -/
def loopFlaw? (region : Region) (statement : Statement) (id : ValueId) : Option Flaw :=
  match region.arena.get? id with
  | none => none
  | some value =>
    match value.kind with
    | .inductionVariable _ =>
      if statement.loops.contains value.reference then none
      else some (.unboundVariable value.reference)
    | _ => none

/-- Flaws of the induction variables that the accesses of a statement lead to. -/
def loopFlaws (region : Region) (statement : Statement) : List Flaw :=
  (region.arena.closure (statement.accesses.values.map Access.value)).filterMap
    (region.loopFlaw? statement)

/-- Flaws of a statement. -/
def statementFindings (region : Region) (statement : Statement) : List Finding :=
  ((statement.domain.pieces.flatMap (domainPieceFlaws statement)).map
      fun flaw => ⟨statement.name, flaw⟩)
    ++ (statement.accesses.entries.flatMap fun (key, access) =>
      (region.accessFlaws statement access).map
        fun flaw => ⟨accessLocation statement.name key, flaw⟩)
    ++ (region.loopFlaws statement).map fun flaw => ⟨statement.name, flaw⟩

/-- Names in a relation that no statement has. -/
def undeclaredNames (region : Region) (relation : Relation) : List String :=
  relation.names.filter fun name => !region.statements.contains name

/-- Everything wrong with a region, values first. -/
def findings (region : Region) : List Finding :=
  region.allValueFindings
    ++ region.statements.values.flatMap region.statementFindings
    ++ ((region.undeclaredNames region.schedule).map
      fun name => ⟨"schedule", .scheduledStatement name⟩)
    ++ region.dependences.toList.flatMap fun (dependence, relation) =>
      (region.undeclaredNames relation).map fun name => ⟨dependence, .dependentStatement name⟩

/-- Check a region; the first finding is reported. -/
def verify (region : Region) : Except Failure Unit :=
  match region.findings with
  | [] => .ok ()
  | finding :: _ => .error (.finding finding)

end RegionFlow.Region
