/-
Module: RegionFlow.Graph.Basic
Purpose: Dataflow graphs. A graph declares arrays and has one iteration scope per statement; nodes
  live in one arena and are connected by ordered inputs; a scope lists the nodes evaluated in it.
Main exports: NodeId, NodeKind, Node, ArrayDecl, IndexRange, Scope, Graph, Graph.writes, Graph.dump
-/
import RegionFlow.Storage
import RegionFlow.Table
import RegionFlow.Value.Basic

namespace RegionFlow

/-- Place of a node in its graph. -/
structure NodeId where
  index : Nat
deriving DecidableEq, Repr, Inhabited

/-- Written form of a place. -/
def NodeId.text (id : NodeId) : String :=
  "n" ++ toString id.index

/-- What a node computes. -/
inductive NodeKind where
  /-- A read of an array element. -/
  | read (array : String) (subscript : List String) (reference : String)
  /-- A write of an array element; its input is the stored value. -/
  | write (array : String) (subscript : List String)
  /-- An operation on the inputs. -/
  | compute (opcode : Opcode)
  /-- A choice: condition, value if true, value if false. -/
  | select
  /-- A literal. -/
  | constant (literal : String)
  /-- A parameter of the region. -/
  | symbol (name reference : String)
  /-- The index of a dimension of the scope. -/
  | index (dim reference : String)
deriving DecidableEq, Repr, Inhabited

namespace NodeKind

/-- An array element as written. -/
def element (array : String) (subscript : List String) : String :=
  array ++ "[" ++ ", ".intercalate subscript ++ "]"

/-- Written form of what a node computes. -/
def text : NodeKind → String
  | read array subscript reference => "read " ++ element array subscript ++ " (" ++ reference ++ ")"
  | write array subscript => "write " ++ element array subscript
  | compute opcode => opcode.name
  | select => "select"
  | constant literal => "const " ++ literal
  | symbol name _ => "symbol " ++ name
  | index dim _ => "index " ++ dim

/-- Whether a node writes an array element. -/
def isWrite : NodeKind → Bool
  | write _ _ => true
  | _ => false

end NodeKind

/-- A node of a graph. -/
structure Node where
  kind : NodeKind
  type : ScalarType
  /-- Inputs in order. -/
  inputs : List NodeId
  /-- The value of the region the node stands for. -/
  origin : ValueId
deriving DecidableEq, Repr, Inhabited

/-- An array of a graph. -/
structure ArrayDecl where
  name : String
  /-- Spelling of the element type. -/
  element : String
  shape : List Extent
deriving DecidableEq, Repr, Inhabited

/-- Range of a dimension, both ends included. -/
structure IndexRange where
  dim : String
  lower : String
  upper : String
deriving DecidableEq, Repr, Inhabited

/-- The iteration space of a statement with the nodes evaluated in it. -/
structure Scope where
  statement : String
  ranges : List IndexRange
  /-- Constraints that bound no single dimension. -/
  conditions : List String
  nodes : List NodeId
deriving DecidableEq, Repr, Inhabited

/-- Dataflow graph of a region. -/
structure Graph where
  name : String
  arrays : Table ArrayDecl
  scopes : List Scope
  nodes : Array Node

namespace Graph

/-- The graph without arrays, scopes and nodes. -/
def empty (name : String) : Graph := ⟨name, Table.empty, [], #[]⟩

instance : Inhabited Graph := ⟨empty ""⟩

/-- The node at a place. -/
def node? (graph : Graph) (id : NodeId) : Option Node :=
  graph.nodes[id.index]?

/-- Inputs of the node at a place; a place without a node has none. -/
def inputs (graph : Graph) (id : NodeId) : List NodeId :=
  ((graph.node? id).map Node.inputs).getD []

/-- The place of the next node. -/
def nextId (graph : Graph) : NodeId :=
  ⟨graph.nodes.size⟩

/-- Add a node at the next place. -/
def addNode (graph : Graph) (node : Node) : Graph :=
  { graph with nodes := graph.nodes.push node }

/-- Declare an array. -/
def declareArray (graph : Graph) (array : ArrayDecl) : Graph :=
  { graph with arrays := graph.arrays.insert array.name array }

/-- Whether a place holds a node that writes. -/
def isWriteAt (graph : Graph) (id : NodeId) : Bool :=
  ((graph.node? id).map fun node => node.kind.isWrite).getD false

/-- The nodes that write, scope by scope. -/
def writes (graph : Graph) : List (Scope × NodeId) :=
  graph.scopes.flatMap fun scope =>
    (scope.nodes.filter graph.isWriteAt).map fun id => (scope, id)

/-- Written form of an array. -/
def arrayLine (array : ArrayDecl) : String :=
  "array " ++ array.name ++ ": " ++ array.element ++ Storage.shapeText array.shape ++ "\n"

/-- Written form of the node at a place; nothing where there is none. -/
def nodeLine (graph : Graph) (id : NodeId) : String :=
  match graph.node? id with
  | none => ""
  | some node =>
    let inputs := if node.inputs.isEmpty then ""
      else " " ++ ", ".intercalate (node.inputs.map NodeId.text)
    "  " ++ id.text ++ " = " ++ node.kind.text ++ inputs ++ " : " ++ node.type.name ++ "\n"

/-- Written form of a scope with its nodes. -/
def scopeLines (graph : Graph) (scope : Scope) : String :=
  let ranges := scope.ranges.map fun range =>
    " [" ++ range.lower ++ " <= " ++ range.dim ++ " <= " ++ range.upper ++ "]"
  let conditions := scope.conditions.map fun condition => " if " ++ condition
  "scope " ++ scope.statement ++ String.join ranges ++ String.join conditions ++ "\n"
    ++ String.join (scope.nodes.map graph.nodeLine)

/-- Written form of a graph. -/
def dump (graph : Graph) : String :=
  "graph " ++ graph.name ++ "\n" ++ String.join (graph.arrays.values.map arrayLine)
    ++ String.join (graph.scopes.map graph.scopeLines)

end Graph

end RegionFlow
