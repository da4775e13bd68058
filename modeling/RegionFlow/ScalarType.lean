/-
Module: RegionFlow.ScalarType
Purpose: Scalar types of values: booleans, integers and floating point numbers of some width, with the
  spellings a listing uses for them. Several spellings share a floating type, so reading is not
  injective; the name is the common one.
Main exports: ScalarType, ScalarType.ofSpelling?, ScalarType.name
-/
import RegionFlow.Text.Blank
import RegionFlow.Text.Integer

namespace RegionFlow

/-- Type of a scalar value. -/
inductive ScalarType where
  /-- One bit, read as a truth value. -/
  | bool
  /-- Integers of the given number of bits. -/
  | int (bits : Nat)
  /-- Floating point numbers of the given number of bits. -/
  | float (bits : Nat)
deriving DecidableEq, Repr, Inhabited

namespace ScalarType

/-- Widths are 32-bit words. -/
def widthLimit : Nat := 4294967296

/-- Type denoted by a spelling without surrounding blanks. -/
def ofTrimmed? (spelling : List Char) : Option ScalarType :=
  match String.ofList spelling with
  | "i1" => some .bool
  | "half" | "bfloat" => some (.float 16)
  | "float" => some (.float 32)
  | "double" => some (.float 64)
  | "x86_fp80" => some (.float 80)
  | "fp128" | "ppc_fp128" => some (.float 128)
  | _ =>
    match spelling with
    | 'i' :: width => ((Text.digits? width).filter (· < widthLimit)).map .int
    | _ => none

/-- Type denoted by a spelling; blanks around it do not matter. -/
def ofSpelling? (spelling : String) : Option ScalarType :=
  ofTrimmed? (Text.trim spelling.toList)

/-- Width in bits. -/
def bits : ScalarType → Nat
  | bool => 1
  | int width => width
  | float width => width

/-- Truth values and integers. -/
def isInteger : ScalarType → Bool
  | bool | int _ => true
  | float _ => false

/-- Floating point numbers. -/
def isFloat : ScalarType → Bool
  | float _ => true
  | bool | int _ => false

/-- The common spelling of a type. -/
def name : ScalarType → String
  | bool => "i1"
  | int width => "i" ++ toString width
  | float 16 => "half"
  | float 32 => "float"
  | float 64 => "double"
  | float 80 => "x86_fp80"
  | float 128 => "fp128"
  | float width => "f" ++ toString width

end ScalarType

end RegionFlow
