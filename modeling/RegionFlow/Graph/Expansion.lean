/-
Module: RegionFlow.Graph.Expansion
Purpose: The expression that a node of a graph computes. A write computes what it stores. Every node
  is expanded once and its expression is remembered. A node that reaches itself, that leads to a place
  without a node, or that has an unexpected number of inputs has no expression.
Main exports: Graph.expand?
-/
import RegionFlow.Expr
import RegionFlow.Graph.Basic

namespace RegionFlow

/-- The expression of a node, given those of its inputs. -/
def Node.assemble? (node : Node) (inputs : List Expr) : Option Expr :=
  match node.kind, inputs with
  | .read array _ reference, _ => some (.read array reference)
  | .write _ _, [stored] => some stored
  | .write _ _, _ => none
  | .compute opcode, inputs => some (.op opcode node.type inputs)
  | .select, [condition, ifTrue, ifFalse] => some (.select condition ifTrue ifFalse)
  | .select, _ => none
  | .constant literal, _ => some (.const literal)
  | .symbol _ reference, _ => some (.param reference)
  | .index _ reference, _ => some (.index reference)

namespace Graph

/-- Expansions found so far. A computation fails where there is no expression. -/
abbrev Expanding : Type → Type :=
  StateT (List (NodeId × Expr)) Option

/-- Expand the node at `id`, which was reached along `path`. Places on a path are distinct, so
    `depth` bounds its length. -/
def expandBelow (graph : Graph) : (depth : Nat) → (path : List NodeId) → NodeId → Expanding Expr
  | 0, _, _ => failure
  | depth + 1, path, id => do
    match (← get).lookup id with
    | some expr => return expr
    | none =>
      if id ∈ path then failure
      else
        match graph.node? id with
        | none => failure
        | some node =>
          let inputs ← node.inputs.mapM (expandBelow graph depth (id :: path))
          match node.assemble? inputs with
          | none => failure
          | some expr =>
            modify ((id, expr) :: ·)
            return expr

/-- The expression of the node at a place. -/
def expand? (graph : Graph) (root : NodeId) : Option Expr :=
  (expandBelow graph (graph.nodes.size + 1) [] root).run' []

end Graph

end RegionFlow
