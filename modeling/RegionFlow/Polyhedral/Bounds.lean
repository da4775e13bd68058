/-
Module: RegionFlow.Polyhedral.Bounds
Purpose: Bounds of the dimensions of a piece. The constraints are cut into conjuncts and each
  conjunct is read as a chain of comparisons. A link of a chain that compares a dimension with
  another term bounds that dimension, strict links after tightening by one; every other link, a link
  for a bound that is already there, and every conjunct that is no chain stays a condition.
Main exports: Comparison, Link, DimBounds, Condition, Bounds, Piece.bounds
-/
import RegionFlow.Polyhedral.Basic
import RegionFlow.Text.Blank
import RegionFlow.Text.Integer
import RegionFlow.Text.Split

namespace RegionFlow.Polyhedral

open Text

/-- Comparison sign of a chain. -/
inductive Comparison where
  | lt | le | gt | ge | eq
deriving DecidableEq, Repr, Inhabited

namespace Comparison

/-- How a comparison is written. -/
def sign : Comparison → String
  | lt => "<"
  | le => "<="
  | gt => ">"
  | ge => ">="
  | eq => "="

/-- The comparison with its sides exchanged. -/
def flip : Comparison → Comparison
  | lt => gt
  | le => ge
  | gt => lt
  | ge => le
  | eq => eq

end Comparison

/-- One comparison of a chain. -/
structure Link where
  left : String
  comparison : Comparison
  right : String
deriving DecidableEq, Repr, Inhabited

/-- Written form of a link. -/
def Link.text (link : Link) : String :=
  link.left ++ " " ++ link.comparison.sign ++ " " ++ link.right

/-- Cut a text at its comparison signs outside parentheses and square brackets: the first term, and
    each sign with the term behind it. -/
def cutChain (level : Int) : List Char → List Char × List (Comparison × List Char)
  | [] => ([], [])
  | c :: rest =>
    if level = 0 ∧ c = '<' then
      match rest with
      | '=' :: rest =>
        let (term, more) := cutChain level rest
        ([], (.le, term) :: more)
      | other =>
        let (term, more) := cutChain level other
        ([], (.lt, term) :: more)
    else if level = 0 ∧ c = '>' then
      match rest with
      | '=' :: rest =>
        let (term, more) := cutChain level rest
        ([], (.ge, term) :: more)
      | other =>
        let (term, more) := cutChain level other
        ([], (.gt, term) :: more)
    else if level = 0 ∧ c = '=' then
      let (term, more) := cutChain level rest
      ([], (.eq, term) :: more)
    else
      let level := match c with
        | '(' | '[' => level + 1
        | ')' | ']' => level - 1
        | _ => level
      let (term, more) := cutChain level rest
      (c :: term, more)

/-- The links between neighbouring terms. -/
def linksFrom (left : String) : List (Comparison × List Char) → List Link
  | [] => []
  | (comparison, term) :: rest =>
    let right := String.ofList (trim term)
    ⟨left, comparison, right⟩ :: linksFrom right rest

/-- Read a text as a chain of comparisons between non-empty terms. Inequations make no chain. -/
def chain? (text : List Char) : Option (List Link) :=
  if occurs ['!', '='] text then none
  else
    let (first, rest) := cutChain 0 text
    if rest.isEmpty || (trim first).isEmpty || rest.any fun (_, term) => (trim term).isEmpty then
      none
    else some (linksFrom (String.ofList (trim first)) rest)

/-- Bounds of one dimension, both inclusive. -/
structure DimBounds where
  name : String
  lower : Option String
  upper : Option String
deriving DecidableEq, Repr, Inhabited

/-- A constraint that bounds no dimension. -/
inductive Condition where
  /-- A comparison. -/
  | link (comparison : Link)
  /-- A constraint that is not taken apart. -/
  | text (words : String)
deriving DecidableEq, Repr, Inhabited

/-- Written form of a condition. -/
def Condition.render : Condition → String
  | .link comparison => comparison.text
  | .text words => words

/-- Bounds of the dimensions of a piece, with the conditions that are left. -/
structure Bounds where
  dims : List DimBounds
  conditions : List Condition
deriving DecidableEq, Repr, Inhabited

namespace Bounds

/-- A term moved by `delta`; integer literals are folded, as words that wrap around. -/
def shift (term : String) (delta : Int) : String :=
  match signed64? term.toList with
  | some value => intText (wrapSigned64 (value + delta))
  | none =>
    if delta < 0 then term ++ " - " ++ intText (-delta) else term ++ " + " ++ intText delta

/-- Position of a term among the dimensions. -/
def dimIndex? (dims : List String) (term : String) : Option Nat :=
  dims.findIdx? (· == term)

/-- The dimension a link bounds, the comparison seen from it, and the other term. Between two
    dimensions the later one is bounded. -/
def target? (dims : List String) (link : Link) : Option (Nat × Comparison × String) :=
  match dimIndex? dims link.left, dimIndex? dims link.right with
  | some left, some right =>
    if right > left then some (right, link.comparison.flip, link.left)
    else some (left, link.comparison, link.right)
  | some left, none => some (left, link.comparison, link.right)
  | none, some right => some (right, link.comparison.flip, link.left)
  | none, none => none

/-- Lower and upper bound that a comparison with a term gives. -/
def limits (comparison : Comparison) (term : String) : Option String × Option String :=
  match comparison with
  | .lt => (none, some (shift term (-1)))
  | .le => (none, some term)
  | .gt => (some (shift term 1), none)
  | .ge => (some term, none)
  | .eq => (some term, some term)

/-- Whether bounds are already taken by new ones. -/
def clashes (entry : DimBounds) (lower upper : Option String) : Bool :=
  (lower.isSome && entry.lower.isSome) || (upper.isSome && entry.upper.isSome)

/-- Take a condition up. -/
def addCondition (bounds : Bounds) (condition : Condition) : Bounds :=
  { bounds with conditions := bounds.conditions ++ [condition] }

/-- Take a link up: as a bound of a dimension if it gives one that is free. -/
def addLink (dims : List String) (bounds : Bounds) (link : Link) : Bounds :=
  match target? dims link with
  | none => bounds.addCondition (.link link)
  | some (dim, comparison, term) =>
    match bounds.dims[dim]? with
    | none => bounds.addCondition (.link link)
    | some entry =>
      let (lower, upper) := limits comparison term
      if clashes entry lower upper then bounds.addCondition (.link link)
      else
        let entry : DimBounds :=
          ⟨entry.name, lower.or entry.lower, upper.or entry.upper⟩
        { bounds with dims := bounds.dims.set dim entry }

/-- Take a conjunct up, link by link if it is a chain. -/
def addConjunct (dims : List String) (bounds : Bounds) (conjunct : List Char) : Bounds :=
  let conjunct := trim conjunct
  match chain? conjunct with
  | none => bounds.addCondition (.text (String.ofList conjunct))
  | some links => links.foldl (addLink dims) bounds

/-- No bounds and no conditions. -/
def unbounded (dims : List String) : Bounds :=
  ⟨dims.map fun name => ⟨name, none, none⟩, []⟩

end Bounds

/-- Whether constraints are taken as one condition: they are a disjunction or quantify. -/
def isIndivisible (constraints : List Char) : Bool :=
  (splitTop " or ".toList constraints).length > 1 || occurs "exists".toList constraints

/-- Bounds of the input dimensions of a piece. -/
def Piece.bounds (piece : Piece) : Bounds :=
  let dims := piece.input.dims
  match piece.constraints with
  | none => Bounds.unbounded dims
  | some constraints =>
    if isIndivisible constraints.toList then
      (Bounds.unbounded dims).addCondition (.text constraints)
    else
      (splitTop " and ".toList constraints.toList).foldl (Bounds.addConjunct dims)
        (Bounds.unbounded dims)

end RegionFlow.Polyhedral
