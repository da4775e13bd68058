/-
Module: RegionFlow.Polyhedral.Basic
Purpose: Polyhedral sets and maps in the notation of isl, as unions of pieces. A piece has an input
  tuple, an output tuple if it belongs to a map, and its constraints as text. The text a relation
  was read from is kept with it.
Main exports: Tuple, Piece, Relation, Relation.render, Relation.without
-/

namespace RegionFlow.Polyhedral

/-- A tuple of dimensions, with or without a name. -/
structure Tuple where
  name : Option String
  dims : List String
deriving DecidableEq, Repr, Inhabited

namespace Tuple

/-- The tuple without name and dimensions. -/
def anonymous : Tuple := ⟨none, []⟩

/-- Written form of a tuple. -/
def render (tuple : Tuple) : String :=
  tuple.name.getD "" ++ "[" ++ ", ".intercalate tuple.dims ++ "]"

end Tuple

/-- One member of the union that a set or a map is. -/
structure Piece where
  /-- The tuple of a set, or the tuple a map starts from. -/
  input : Tuple
  /-- The tuple a map leads to. -/
  output : Option Tuple
  /-- Text of the constraints, unless there are none. -/
  constraints : Option String
deriving DecidableEq, Repr, Inhabited

namespace Piece

/-- Whether neither tuple is written. -/
def isAnonymous (piece : Piece) : Bool :=
  piece.input == Tuple.anonymous && piece.output.isNone

/-- Written form of a piece. -/
def render (piece : Piece) : String :=
  if piece.isAnonymous then
    match piece.constraints with
    | none => ":"
    | some constraints => ": " ++ constraints
  else
    let target := match piece.output with
      | none => ""
      | some output => " -> " ++ output.render
    let condition := match piece.constraints with
      | none => ""
      | some constraints => " : " ++ constraints
    piece.input.render ++ target ++ condition

/-- Names of the tuples of a piece, input first. -/
def names (piece : Piece) : List String :=
  piece.input.name.toList ++ (piece.output.bind Tuple.name).toList

end Piece

/-- A polyhedral set or map. -/
structure Relation where
  /-- Symbolic parameters. -/
  params : List String
  pieces : List Piece
  /-- The text the relation was read from. -/
  text : String
deriving DecidableEq, Repr, Inhabited

namespace Relation

/-- Whether there are no pieces. -/
def isEmpty (relation : Relation) : Bool :=
  relation.pieces.isEmpty

/-- Names of all tuples, piece by piece. -/
def names (relation : Relation) : List String :=
  relation.pieces.flatMap Piece.names

/-- The first piece that starts at a tuple with the given name. -/
def piece? (relation : Relation) (name : String) : Option Piece :=
  relation.pieces.find? fun piece => piece.input.name == some name

/-- Written form of parameters and pieces. -/
def renderParts (params : List String) (pieces : List Piece) : String :=
  let binder := if params.isEmpty then "" else "[" ++ ", ".intercalate params ++ "] -> "
  let body := if pieces.isEmpty then "\x7b  \x7d"
    else "\x7b " ++ "; ".intercalate (pieces.map Piece.render) ++ " \x7d"
  binder ++ body

/-- Written form of a relation, normalised. -/
def render (relation : Relation) : String :=
  renderParts relation.params relation.pieces

/-- The relation without the pieces that mention one of `names`; its text is written anew. -/
def without (relation : Relation) (names : List String) : Relation :=
  let pieces := relation.pieces.filter fun piece =>
    !piece.names.any fun name => names.contains name
  ⟨relation.params, pieces, renderParts relation.params pieces⟩

end Relation

end RegionFlow.Polyhedral
