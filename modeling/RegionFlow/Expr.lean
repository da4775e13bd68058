/-
Module: RegionFlow.Expr
Purpose: Expressions: what a stored value is, spelled out down to reads, parameters, induction
  variables and constants. Both the values of a region and the nodes of a graph expand to
  expressions.
Main exports: Expr, Expr.size, Expr.containsSelect, Expr.text
-/
import RegionFlow.Opcode

namespace RegionFlow

/-- Expanded form of a value. -/
inductive Expr where
  /-- A literal. -/
  | const (literal : String)
  /-- A parameter of the region, by reference. -/
  | param (reference : String)
  /-- An induction variable, by reference. -/
  | index (reference : String)
  /-- A read of an array element, by array and defining reference. -/
  | read (array : String) (reference : String)
  /-- An operation on operands. -/
  | op (opcode : Opcode) (type : ScalarType) (operands : List Expr)
  /-- A choice between two expressions. -/
  | select (condition ifTrue ifFalse : Expr)
  /-- A reference without a known producer. -/
  | unknown (reference : String)
deriving Repr, Inhabited

namespace Expr

mutual

/-- Number of nodes of the tree. -/
def size : Expr → Nat
  | const _ | param _ | index _ | read _ _ | unknown _ => 1
  | op _ _ operands => 1 + sizeAll operands
  | select condition ifTrue ifFalse => 1 + condition.size + ifTrue.size + ifFalse.size

/-- Number of nodes of several trees together. -/
def sizeAll : List Expr → Nat
  | [] => 0
  | e :: rest => e.size + sizeAll rest

end

mutual

/-- Whether a choice occurs at the root or below operations. -/
def containsSelect : Expr → Bool
  | select _ _ _ => true
  | op _ _ operands => anyContainsSelect operands
  | const _ | param _ | index _ | read _ _ | unknown _ => false

/-- Whether one of several trees contains a choice. -/
def anyContainsSelect : List Expr → Bool
  | [] => false
  | e :: rest => e.containsSelect || anyContainsSelect rest

end

/-- A reference without its leading percent signs. -/
def bareName (reference : String) : String :=
  String.ofList (reference.toList.dropWhile (· == '%'))

mutual

/-- Written form of an expression. Subscripts of reads are left out. -/
def text : Expr → String
  | const literal => literal
  | param reference | index reference | unknown reference => bareName reference
  | read array _ => array ++ "[..]"
  | op opcode type operands => opcode.apply type (texts operands)
  | select condition ifTrue ifFalse =>
    "(" ++ condition.text ++ " ? " ++ ifTrue.text ++ " : " ++ ifFalse.text ++ ")"

/-- Written forms of several expressions. -/
def texts : List Expr → List String
  | [] => []
  | e :: rest => e.text :: texts rest

end

end Expr

end RegionFlow
