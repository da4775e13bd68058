/-
Module: RegionFlow.Graph.Generation
Purpose: The dataflow graph of a region. Statements become scopes in order of execution. A scope has
  a node for every read of its statement, then for every value that a write leads to and for the write
  itself. Within a scope a value has one node; a pass-through merge shares the node of what it passes
  on.
Main exports: Graph.ofRegion
-/
import RegionFlow.Graph.Defect
import RegionFlow.Polyhedral.Bounds
import RegionFlow.Region.Metadata
import RegionFlow.Region.Order
import RegionFlow.Value.Expansion

namespace RegionFlow.Graph

open Polyhedral (Relation DimBounds)

/-- Subscripts that an access relation leads to. -/
def subscriptOf (relation : Relation) : List String :=
  match relation.pieces.head? with
  | some piece => (piece.output.map Polyhedral.Tuple.dims).getD []
  | none => []

/-- Range of a dimension that has both bounds. -/
def rangeOf (statement : String) (bounds : DimBounds) : Except Defect IndexRange :=
  match bounds.lower, bounds.upper with
  | some lower, some upper => .ok ⟨bounds.name, lower, upper⟩
  | _, _ => .error (.unbounded bounds.name statement)

/-- Iteration space of a statement. -/
structure Space where
  ranges : List IndexRange
  conditions : List String
  /-- Dimensions in loop order. -/
  dims : List String
deriving DecidableEq, Repr, Inhabited

/-- Iteration space of a statement whose domain has one piece, bounded in every dimension. -/
def spaceOf (statement : Region.Statement) : Except Defect Space :=
  match statement.domain.pieces.filter fun piece => piece.input.name == some statement.name with
  | [] => .error (.emptyDomain statement.name)
  | [piece] => do
    let bounds := piece.bounds
    let ranges ← bounds.dims.mapM (rangeOf statement.name)
    return ⟨ranges, bounds.conditions.map (·.render), piece.input.dims⟩
  | pieces => .error (.unionDomain statement.name pieces.length)

/-- The dimension that an induction variable of a statement counts. -/
def dimOf? (statement : Region.Statement) (dims : List String) (reference : String) :
    Option String :=
  match statement.loops.indexOf? reference with
  | some position => dims[position]?
  | none => none

/-- What has been emitted: all nodes of the graph, and the node of each value of the scope. -/
structure Emission where
  nodes : Array Node
  memo : List (ValueId × NodeId)

/-- Emission of nodes, which may meet a defect. -/
abbrev Emitting : Type → Type :=
  StateT Emission (Except Defect)

/-- Let a node stand for a value. -/
def remember (id : ValueId) (node : NodeId) : Emitting Unit :=
  modify fun emission => { emission with memo := (id, node) :: emission.memo }

/-- Add a node for a value. -/
def emitNode (origin : ValueId) (type : ScalarType) (kind : NodeKind) (inputs : List NodeId) :
    Emitting NodeId := do
  let id : NodeId := ⟨(← get).nodes.size⟩
  modify fun emission => { emission with nodes := emission.nodes.push ⟨kind, type, inputs, origin⟩ }
  remember origin id
  return id

/-- Kind of the node for a read at an access relation. -/
def readKind (region : Region) (id : ValueId) (reference : String) (relation : Relation) :
    Except Defect NodeKind :=
  match region.accessArray? id with
  | some (array, _) => .ok (.read array (subscriptOf relation) reference)
  | none => .error (.notAnAccess id)

/-- Kind of the node for a value that is no pass-through merge. -/
def kindOf (region : Region) (statement : Region.Statement) (dims : List String) (id : ValueId)
    (value : Value) : Except Defect NodeKind :=
  match value.kind with
  | .constant literal => .ok (.constant literal)
  | .parameter name => .ok (.symbol name value.reference)
  | .inductionVariable _ =>
    match dimOf? statement dims value.reference with
    | some dim => .ok (.index dim value.reference)
    | none => .error (.bindsNoDimension value.reference statement.name)
  | .access .read _ _ _ =>
    match region.accessOf? id with
    | some access => readKind region id value.reference access.relation
    | none => .error (.readWithoutAccess value.reference)
  | .computation opcode _ => .ok (.compute opcode)
  | .selection _ =>
    if value.args.length = 3 then .ok .select
    else .error (.selectionOperands value.reference value.args.length)
  | .forward _ | .access .write _ _ _ | .placeholder =>
    .error (.notAnOperand value.reference value.kind.name)

/-- The value that a pass-through merge passes on. -/
def passedOn (value : Value) : Except Defect ValueId :=
  match value.args with
  | [passed] => .ok passed
  | args => .error (.forwardedValues value.reference args.length)

/-- Emit the node of a value, which was reached along `path`. Places on a path are distinct, so
    `depth` bounds its length. -/
def emitBelow (region : Region) (statement : Region.Statement) (dims : List String) :
    (depth : Nat) → (path : List ValueId) → ValueId → Emitting NodeId
  | 0, _, id => throw (.missingValue id)
  | depth + 1, path, id => do
    match (← get).memo.lookup id with
    | some node => return node
    | none =>
      match region.arena.get? id with
      | none => throw (.missingValue id)
      | some value =>
        if id ∈ path then throw (.dependsOnItself value.reference)
        else
          match value.kind with
          | .forward _ =>
            let passed ← passedOn value
            let node ← emitBelow region statement dims depth (id :: path) passed
            remember id node
            return node
          | _ =>
            let kind ← kindOf region statement dims id value
            let inputs ←
              value.operands.mapM (emitBelow region statement dims depth (id :: path))
            emitNode id value.type kind inputs

/-- Emit the node of a read of the statement. -/
def emitRead (region : Region) (access : Region.Access) : Emitting Unit := do
  match region.arena.get? access.value with
  | none => throw (.missingValue access.value)
  | some value =>
    let kind ← readKind region access.value value.reference access.relation
    let _ ← emitNode access.value value.type kind []

/-- Emit the node of a write after that of the value it stores. -/
def emitWrite (region : Region) (statement : Region.Statement) (dims : List String)
    (key : String) (access : Region.Access) : Emitting Unit := do
  match region.arena.get? access.value with
  | none => throw (.missingValue access.value)
  | some value =>
    match value.args with
    | [stored] =>
      let input ← emitBelow region statement dims (region.arena.size + 1) [] stored
      match region.accessArray? access.value with
      | none => throw (.writeNotAnAccess key)
      | some (array, _) =>
        let kind := .write array (subscriptOf access.relation)
        let _ ← emitNode access.value value.type kind [input]
    | _ => throw (.nothingStored key statement.name)

/-- Emit the nodes of a statement: reads, then writes. -/
def emitStatement (region : Region) (statement : Region.Statement) (dims : List String) :
    Emitting Unit := do
  (statement.reads region.arena).forM fun entry => emitRead region entry.2
  (statement.writes region.arena).forM fun entry =>
    emitWrite region statement dims entry.1 entry.2

/-- The places from one number up to, and without, another. -/
def placesBetween (start stop : Nat) : List NodeId :=
  (List.range' start (stop - start)).map NodeId.mk

/-- Add the scope of a statement. -/
def addScope (region : Region) (graph : Graph) (statement : Region.Statement) :
    Except Defect Graph := do
  let space ← spaceOf statement
  let start := graph.nodes.size
  let (_, emission) ← (emitStatement region statement space.dims).run ⟨graph.nodes, []⟩
  let scope : Scope :=
    ⟨statement.name, space.ranges, space.conditions, placesBetween start emission.nodes.size⟩
  return { graph with scopes := graph.scopes ++ [scope], nodes := emission.nodes }

/-- Declaration of an array. -/
def declarationOf (storage : Storage) : ArrayDecl :=
  ⟨storage.name, storage.element, storage.shape⟩

/-- The graph of a region: its arrays, and a scope for every statement in order of execution. -/
def ofRegion (region : Region) : Except Defect Graph :=
  let declared := (region.arrays.map declarationOf).foldl declareArray (empty region.name)
  (region.statementOrder.filterMap region.statements.get?).foldlM (addScope region) declared

end RegionFlow.Graph
