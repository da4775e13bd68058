/-
Module: RegionFlow.Storage
Purpose: Storage that accesses refer to: arrays in memory and scalars that carry values between
  statements, each with a shape.
Main exports: StorageKind, Extent, Storage
-/
import RegionFlow.ScalarType
import RegionFlow.Text.Blank
import RegionFlow.Text.Integer

namespace RegionFlow

/-- Class of a piece of storage. -/
inductive StorageKind where
  /-- An array in memory. -/
  | array
  /-- A scalar carried between statements. -/
  | value
  /-- A scalar behind a merge. -/
  | phi
  /-- A scalar behind a merge at the exit of the region. -/
  | exitPhi
deriving DecidableEq, Repr, Inhabited

/-- Name of a class of storage. -/
def StorageKind.name : StorageKind → String
  | array => "array"
  | value => "value"
  | phi => "phi"
  | exitPhi => "exit_phi"

/-- Extent of one dimension of an array. -/
inductive Extent where
  /-- Unknown. -/
  | unranked
  /-- A number. -/
  | fixed (size : Nat)
  /-- A term over parameters. -/
  | symbolic (term : String)
deriving DecidableEq, Repr, Inhabited

namespace Extent

/-- Numbers of an extent are 64-bit words. -/
def sizeLimit : Nat := 18446744073709551616

/-- The extent a text denotes: a star, a number, or any other term. -/
def ofText (text : String) : Extent :=
  let text := Text.trim text.toList
  if text = ['*'] then unranked
  else
    match Text.natBelow? sizeLimit text with
    | some size => fixed size
    | none => symbolic (String.ofList text)

/-- Written form of an extent. -/
def text : Extent → String
  | unranked => "*"
  | fixed size => toString size
  | symbolic term => term

end Extent

/-- An array or a scalar that accesses refer to. -/
structure Storage where
  name : String
  kind : StorageKind
  /-- Extents, outermost first. -/
  shape : List Extent
  /-- Spelling of the element type. -/
  element : String
  /-- The base pointer as printed. -/
  pointer : String
deriving DecidableEq, Repr, Inhabited

namespace Storage

/-- Number of dimensions. -/
def rank (storage : Storage) : Nat :=
  storage.shape.length

/-- Type of the elements, if its spelling is known. -/
def elementType? (storage : Storage) : Option ScalarType :=
  ScalarType.ofSpelling? storage.element

/-- The extents in square brackets. -/
def shapeText (shape : List Extent) : String :=
  String.join (shape.map fun extent => "[" ++ extent.text ++ "]")

/-- Written form: name, element type, shape and class. -/
def text (storage : Storage) : String :=
  storage.name ++ ": " ++ storage.element ++ shapeText storage.shape
    ++ " (" ++ storage.kind.name ++ ")"

end Storage

end RegionFlow
