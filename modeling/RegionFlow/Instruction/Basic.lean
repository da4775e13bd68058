/-
Module: RegionFlow.Instruction.Basic
Purpose: Instructions of a listing. Only what data flow needs is kept: the result, the spelling of
  the type, the operation and the operands.
Main exports: Operand, Incoming, TypedOperand, Instruction, Instruction.result?
-/
import RegionFlow.Opcode

namespace RegionFlow

/-- Operand of an instruction. -/
inductive Operand where
  /-- A local reference or a global symbol, with its sigil. -/
  | ref (name : String)
  /-- A literal, as written. -/
  | literal (text : String)
deriving DecidableEq, Repr, Inhabited

namespace Operand

/-- The operand as written. -/
def text : Operand → String
  | ref name => name
  | literal text => text

/-- Whether the operand stands for an undefined value. -/
def isUndefined : Operand → Bool
  | literal text => text == "undef" || text == "poison"
  | ref _ => false

end Operand

/-- One edge into a merge: the value that arrives from a labelled block. -/
structure Incoming where
  value : Operand
  label : String
deriving DecidableEq, Repr, Inhabited

/-- An operand with the spelling of its type. -/
structure TypedOperand where
  type : String
  value : Operand
deriving DecidableEq, Repr, Inhabited

/-- One instruction of a listing. -/
inductive Instruction where
  /-- A merge of values by the block control came from. -/
  | phi (result type : String) (incoming : List Incoming)
  /-- A two-way branch. -/
  | branchIf (condition : Operand) (ifTrue ifFalse : String)
  /-- A jump. -/
  | branch (target : String)
  /-- A load from memory. -/
  | load (result type : String) (address : Operand)
  /-- A store to memory. -/
  | store (type : String) (value address : Operand)
  /-- An instruction whose result is a pointer. -/
  | address (result opcode : String)
  /-- An instruction that computes a scalar. -/
  | compute (result type : String) (opcode : Opcode) (operands : List TypedOperand)
  /-- An instruction without a result. -/
  | effect (opcode : String)
deriving DecidableEq, Repr, Inhabited

namespace Instruction

/-- The reference an instruction defines. -/
def result? : Instruction → Option String
  | phi result _ _ | load result _ _ | address result _ | compute result _ _ _ => some result
  | branchIf _ _ _ | branch _ | store _ _ _ | effect _ => none

end Instruction

/-- Why a line is not an instruction. -/
inductive Instruction.Problem where
  /-- No operation is named. -/
  | expectedOpcode
  /-- A tail marker is followed by no operation. -/
  | expectedCall
  /-- The operation is not known in this position. -/
  | unknownOpcode (word : String)
  /-- Something other than attributes follows the instruction. -/
  | trailing (opcode rest : String)
  /-- The operands do not have the form the operation asks for. -/
  | malformed (opcode : String)
deriving DecidableEq, Repr, Inhabited

/-- Wording of a problem. -/
def Instruction.Problem.message : Instruction.Problem → String
  | expectedOpcode => "Expected opcode"
  | expectedCall => "Expected call after tail marker"
  | unknownOpcode word => "Unknown opcode: " ++ word
  | trailing opcode rest => "Unexpected input after " ++ opcode ++ ": " ++ rest
  | malformed opcode => "Malformed " ++ opcode ++ " instruction"

/-- A problem with the byte position it was met at. -/
structure Located (ε : Type) where
  problem : ε
  position : Nat
deriving DecidableEq, Repr, Inhabited

end RegionFlow
