/-
Module: RegionFlow.Value.Basic
Purpose: Values of a region and the arena that holds them. A value has a reference, a type, a kind and
  a list of arguments, which are other values named by their place in the arena. Arguments may be
  shared, may name places that do not exist, and may form cycles; placeholders stand for references
  that are still to be resolved.
Main exports: ValueId, AccessKind, ValueKind, Value, Arena
-/
import RegionFlow.Opcode

namespace RegionFlow

/-- Place of a value in its arena. -/
structure ValueId where
  index : Nat
deriving DecidableEq, Repr, Inhabited

/-- Written form of a place. -/
def ValueId.text (id : ValueId) : String :=
  "v" ++ toString id.index

/-- Direction of a memory access. -/
inductive AccessKind where
  | read | write
deriving DecidableEq, Repr, Inhabited

/-- Name of a direction. -/
def AccessKind.name : AccessKind → String
  | read => "read"
  | write => "write"

/-- What a value is. -/
inductive ValueKind where
  /-- A literal. -/
  | constant (literal : String)
  /-- A reference that is still to be resolved. -/
  | placeholder
  /-- A symbolic parameter of the region. -/
  | parameter (name : String)
  /-- An operation on the arguments. -/
  | computation (opcode : Opcode) (instruction : String)
  /-- A read or a write of an array element. The argument of a write is the stored value. -/
  | access (direction : AccessKind) (array instruction : String) (incoming : Option String)
  /-- The variable that counts a loop. -/
  | inductionVariable (instruction : String)
  /-- A merge as a choice: condition, value if true, value if false. -/
  | selection (instruction : String)
  /-- A merge that passes its argument on. -/
  | forward (instruction : String)
deriving DecidableEq, Repr, Inhabited

namespace ValueKind

/-- Short name of a kind. -/
def name : ValueKind → String
  | constant _ => "const"
  | placeholder => "unresolved"
  | parameter _ => "param"
  | computation _ _ => "compute"
  | access direction _ _ _ => direction.name
  | inductionVariable _ => "indvar"
  | selection _ => "select"
  | forward _ => "forward"

/-- Whether values of this kind are made from their arguments. -/
def isComposite : ValueKind → Bool
  | computation _ _ | access .write _ _ _ | selection _ | forward _ => true
  | constant _ | placeholder | parameter _ | access .read _ _ _ | inductionVariable _ => false

end ValueKind

/-- One value of a region. -/
structure Value where
  /-- Name of the value within its region. -/
  reference : String
  type : ScalarType
  kind : ValueKind
  /-- Arguments in order. -/
  args : List ValueId
deriving DecidableEq, Repr, Inhabited

namespace Value

/-- Whether a value is still to be resolved. -/
def isPlaceholder (value : Value) : Bool :=
  match value.kind with
  | .placeholder => true
  | _ => false

/-- Whether a value is a read of an array element. -/
def isRead (value : Value) : Bool :=
  match value.kind with
  | .access .read _ _ _ => true
  | _ => false

end Value

/-- All values of a region, in order of creation. -/
structure Arena where
  values : Array Value
  /-- Number of constants created so far. -/
  constants : Nat
deriving Repr, Inhabited

namespace Arena

/-- The arena without values. -/
def empty : Arena := ⟨#[], 0⟩

/-- Number of values. -/
def size (arena : Arena) : Nat :=
  arena.values.size

/-- The value at a place. -/
def get? (arena : Arena) (id : ValueId) : Option Value :=
  arena.values[id.index]?

/-- Arguments of the value at a place; a place without a value has none. -/
def args (arena : Arena) (id : ValueId) : List ValueId :=
  ((arena.get? id).map Value.args).getD []

/-- The place of the next value. -/
def nextId (arena : Arena) : ValueId :=
  ⟨arena.values.size⟩

/-- Add a value at the next place. -/
def push (arena : Arena) (value : Value) : Arena :=
  { arena with values := arena.values.push value }

/-- Add a constant; constants are numbered to get a reference. -/
def pushConstant (arena : Arena) (literal : String) (type : ScalarType) : Arena :=
  let value : Value := ⟨"$c" ++ toString arena.constants, type, .constant literal, []⟩
  { values := arena.values.push value, constants := arena.constants + 1 }

/-- Add a placeholder for a reference. -/
def pushPlaceholder (arena : Arena) (reference : String) (type : ScalarType) : Arena :=
  arena.push ⟨reference, type, .placeholder, []⟩

/-- Replace the arguments of the value at a place. -/
def setArgs (arena : Arena) (id : ValueId) (args : List ValueId) : Arena :=
  { arena with values := arena.values.modify id.index fun value => { value with args } }

/-- Every place that holds a value. -/
def ids (arena : Arena) : List ValueId :=
  (List.range arena.size).map ValueId.mk

end Arena

end RegionFlow
