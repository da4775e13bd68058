/-
Module: RegionFlow.Value.Expansion
Purpose: Expansion of values to expressions. Every value is expanded once and its expression is
  remembered, so shared arguments share their expression. A write expands to what it stores and a
  pass-through merge to what it passes on. A value that reaches itself, or that leads to a place
  without a value, has no expansion.
Main exports: Arena.expand, Arena.render
-/
import RegionFlow.Expr
import RegionFlow.Value.Basic

namespace RegionFlow

/-- The places a value is expanded from. -/
def Value.operands (value : Value) : List ValueId :=
  if value.kind.isComposite then value.args else []

/-- The expression of a value, given those of its operands. Selections and writes with an unexpected
    number of operands stay operations. -/
def Value.assemble (value : Value) (operands : List Expr) : Expr :=
  match value.kind, operands with
  | .constant literal, _ => .const literal
  | .placeholder, _ => .unknown value.reference
  | .parameter _, _ => .param value.reference
  | .inductionVariable _, _ => .index value.reference
  | .access .read array _ _, _ => .read array value.reference
  | .selection _, [condition, ifTrue, ifFalse] => .select condition ifTrue ifFalse
  | .forward _, [passed] => passed
  | .access .write _ _ _, [stored] => stored
  | .computation opcode _, operands => .op opcode value.type operands
  | _, operands => .op .select value.type operands

namespace Arena

/-- Expansions found so far. A computation fails with the place that has none. -/
abbrev Expanding : Type → Type :=
  StateT (List (ValueId × Expr)) (Except ValueId)

/-- Expand the value at `id`, which was reached along `path`. Places on a path are distinct, so
    `depth` bounds its length. -/
def expandBelow (arena : Arena) : (depth : Nat) → (path : List ValueId) → ValueId → Expanding Expr
  | 0, _, id => throw id
  | depth + 1, path, id => do
    match (← get).lookup id with
    | some expr => return expr
    | none =>
      if id ∈ path then throw id
      else
        match arena.get? id with
        | none => throw id
        | some value =>
          let operands ← value.operands.mapM (expandBelow arena depth (id :: path))
          let expr := value.assemble operands
          modify ((id, expr) :: ·)
          return expr

/-- The expression of the value at a place, or a place that keeps it from having one. -/
def expand (arena : Arena) (root : ValueId) : Except ValueId Expr :=
  (expandBelow arena (arena.size + 1) [] root).run' []

/-- Written form of a value: its expression, or its reference where it has none. -/
def render (arena : Arena) (id : ValueId) : String :=
  match arena.expand id with
  | .ok expr => expr.text
  | .error _ => ((arena.get? id).map Value.reference).getD id.text

end Arena

end RegionFlow
