/-
Module: RegionFlow.Graph.Agreement
Purpose: Whether a graph computes what a region computes. Every write of the region must have a node
  in the scope of its statement that stores to the same element, and what is stored must agree with
  the value that the region stores, argument by argument. Each pair of a value and a node is compared
  once in a statement.
Main exports: Graph.agree
-/
import RegionFlow.Graph.Generation

namespace RegionFlow.Graph

/-- Pairs found to agree. Comparison fails with the first pair that does not. -/
abbrev Comparing : Type → Type :=
  StateT (List (ValueId × NodeId)) (Except (ValueId × NodeId))

/-- Subscripts of the access that a read belongs to. -/
def readSubscript? (region : Region) (id : ValueId) : Option (List String) :=
  (region.accessOf? id).map fun access => subscriptOf access.relation

/-- Whether a node is of the kind that computes a value, apart from its inputs. -/
def kindAgrees (region : Region) (statement : Region.Statement) (dims : List String)
    (id : ValueId) (value : Value) (kind : NodeKind) : Bool :=
  match value.kind, kind with
  | .constant literal, .constant emitted => literal == emitted
  | .parameter _, .symbol _ reference => reference == value.reference
  | .inductionVariable _, .index dim reference =>
    reference == value.reference && dimOf? statement dims reference == some dim
  | .access .read array _ _, .read emitted subscript reference =>
    array == emitted && reference == value.reference
      && readSubscript? region id == some subscript
  | .computation opcode _, .compute emitted => opcode == emitted
  | .selection _, .select => true
  | _, _ => false

/-- Compare a value and a node. Pairs on a path are distinct unless both sides have a cycle, so
    `depth` bounds its length. -/
def compareBelow (region : Region) (graph : Graph) (statement : Region.Statement)
    (dims : List String) : (depth : Nat) → ValueId → NodeId → Comparing Unit
  | 0, id, nodeId => throw (id, nodeId)
  | depth + 1, id, nodeId => do
    if (id, nodeId) ∈ (← get) then return ()
    match graph.node? nodeId, region.arena.get? id with
    | some node, some value =>
      match value.kind with
      | .forward _ =>
        match value.args with
        | [passed] =>
          compareBelow region graph statement dims depth passed nodeId
          modify ((id, nodeId) :: ·)
        | _ => throw (id, nodeId)
      | _ =>
        if node.type = value.type && kindAgrees region statement dims id value node.kind
            && value.operands.length == node.inputs.length then
          (value.operands.zip node.inputs).forM fun pair =>
            compareBelow region graph statement dims depth pair.1 pair.2
          modify ((id, nodeId) :: ·)
        else throw (id, nodeId)
    | _, _ => throw (id, nodeId)

/-- Bound on the number of pairs on a path. -/
def pairBound (region : Region) (graph : Graph) : Nat :=
  (region.arena.size + 1) * (graph.nodes.size + 1)

/-- The node of a scope that stands for a write. -/
def writeNode? (graph : Graph) (scope : Scope) (origin : ValueId) : Option NodeId :=
  scope.nodes.find? fun id =>
    match graph.node? id with
    | some node => node.origin == origin && node.kind.isWrite
    | none => false

/-- The defect that a pair which does not agree means for a write. -/
def pairDefect (region : Region) (graph : Graph) (key statement : String)
    (pair : ValueId × NodeId) : Defect :=
  let found := ((graph.node? pair.2).map fun node => node.kind.text).getD "missing"
  let value := region.arena.get? pair.1
  .computesOther key statement pair.2 found
    ((value.map Value.reference).getD pair.1.text)
    ((value.map fun value => value.kind.name).getD "missing")

/-- Compare the element that a node stores to with the element that a write stores to. -/
def checkElement (region : Region) (statement : String) (key : String) (access : Region.Access)
    (array : String) (subscript : List String) : Except Defect Unit :=
  let expected := (region.accessArray? access.value).map Prod.fst
  let expectedSubscript := subscriptOf access.relation
  if expected = some array ∧ subscript = expectedSubscript then .ok ()
  else .error (.storesElsewhere key statement array subscript expected expectedSubscript)

/-- Compare what a node stores with what a write stores, given the pairs found to agree before. -/
def checkStored (region : Region) (graph : Graph) (statement : Region.Statement)
    (dims : List String) (key : String) (access : Region.Access) (id : NodeId)
    (inputs : List NodeId) (agreed : List (ValueId × NodeId)) :
    Except Defect (List (ValueId × NodeId)) :=
  match region.arena.args access.value, inputs with
  | [stored], [input] =>
    let comparison := compareBelow region graph statement dims (pairBound region graph) stored input
    match comparison.run agreed with
    | .ok (_, agreed) => .ok agreed
    | .error pair => .error (pairDefect region graph key statement.name pair)
  | _, _ => .error (.malformedWrite key statement.name id)

/-- Check a write of a statement against its node. -/
def checkWrite (region : Region) (graph : Graph) (statement : Region.Statement)
    (dims : List String) (scope : Scope) (agreed : List (ValueId × NodeId))
    (entry : String × Region.Access) : Except Defect (List (ValueId × NodeId)) := do
  match graph.writeNode? scope entry.2.value with
  | none => throw (.noWriteNode entry.1 statement.name)
  | some id =>
    match graph.node? id with
    | some ⟨.write array subscript, _, inputs, _⟩ =>
      checkElement region statement.name entry.1 entry.2 array subscript
      checkStored region graph statement dims entry.1 entry.2 id inputs agreed
    | _ => throw (.noWriteNode entry.1 statement.name)

/-- Dimensions of the domain of a statement. -/
def domainDims (statement : Region.Statement) : List String :=
  ((statement.domain.piece? statement.name).map fun piece => piece.input.dims).getD []

/-- Check the writes of a statement against the first scope of that name. -/
def checkStatement (region : Region) (graph : Graph) (statement : Region.Statement) :
    Except Defect Unit :=
  match graph.scopes.find? fun scope => scope.statement == statement.name with
  | none => .error (.noScope statement.name)
  | some scope => do
    let _ ← (statement.writes region.arena).foldlM
      (checkWrite region graph statement (domainDims statement) scope) []

/-- Number of writes of a region. -/
def regionWrites (region : Region) : Nat :=
  (region.statements.values.flatMap fun statement => statement.writes region.arena).length

/-- Check that a graph computes what a region computes, and writes nothing else. -/
def agree (region : Region) (graph : Graph) : Except Defect Unit := do
  region.statements.values.forM (checkStatement region graph)
  let written := graph.writes.length
  if written ≠ regionWrites region then
    throw (.writeCount written (regionWrites region))

end RegionFlow.Graph
