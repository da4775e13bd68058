/-
Module: RegionFlow.Proofs.Satisfaction
Purpose: What constraints mean. A valuation gives every term an integer and says of every constraint
  that is not taken apart whether it holds. Constraints are alternatives, each a conjunction; a
  conjunct that is a chain holds if all its links hold. All of this can be computed, if the
  valuation can.
Main exports: Polyhedral.Valuation, Polyhedral.Valuation.Meets, Polyhedral.Valuation.Satisfies
-/
import RegionFlow.Polyhedral.Bounds

namespace RegionFlow.Polyhedral

open Text

/-- Whether two integers compare so. -/
def Comparison.Holds : Comparison → Int → Int → Prop
  | lt, left, right => left < right
  | le, left, right => left ≤ right
  | gt, left, right => left > right
  | ge, left, right => left ≥ right
  | eq, left, right => left = right

instance (comparison : Comparison) (left right : Int) : Decidable (comparison.Holds left right) :=
  match comparison with
  | .lt => inferInstanceAs (Decidable (left < right))
  | .le => inferInstanceAs (Decidable (left ≤ right))
  | .gt => inferInstanceAs (Decidable (left > right))
  | .ge => inferInstanceAs (Decidable (left ≥ right))
  | .eq => inferInstanceAs (Decidable (left = right))

/-- A reading of terms and constraints, in which an integer literal has its own value. -/
structure Valuation where
  /-- The integer that a term stands for. -/
  term : String → Int
  /-- Whether a constraint holds that is not taken apart. -/
  truth : String → Prop
  literal : ∀ {text : String} {value : Int}, signed64? text.toList = some value → term text = value

namespace Valuation

/-- The valuation that reads literals as they are and all other terms as given; constraints that are
    not taken apart hold. -/
def ofTerms (terms : String → Int) : Valuation where
  term text := (signed64? text.toList).getD (terms text)
  truth _ := True
  literal found := by rw [found, Option.getD_some]

instance (terms : String → Int) : DecidablePred (ofTerms terms).truth :=
  fun _ => inferInstanceAs (Decidable True)

variable (valuation : Valuation)

/-- A link holds. -/
def MeetsLink (link : Link) : Prop :=
  link.comparison.Holds (valuation.term link.left) (valuation.term link.right)

instance (link : Link) : Decidable (valuation.MeetsLink link) :=
  inferInstanceAs (Decidable (link.comparison.Holds _ _))

/-- A conjunct holds. -/
def Meets (conjunct : List Char) : Prop :=
  match chain? (trim conjunct) with
  | some links => ∀ link ∈ links, valuation.MeetsLink link
  | none => valuation.truth (String.ofList (trim conjunct))

instance [DecidablePred valuation.truth] (conjunct : List Char) :
    Decidable (valuation.Meets conjunct) :=
  match found : chain? (trim conjunct) with
  | some links => decidable_of_iff (∀ link ∈ links, valuation.MeetsLink link) (by rw [Meets, found])
  | none => decidable_of_iff (valuation.truth (String.ofList (trim conjunct))) (by rw [Meets, found])

/-- A conjunction holds. -/
def MeetsAll (conjunction : List Char) : Prop :=
  ∀ conjunct ∈ splitTop " and ".toList conjunction, valuation.Meets conjunct

instance [DecidablePred valuation.truth] (conjunction : List Char) :
    Decidable (valuation.MeetsAll conjunction) :=
  inferInstanceAs (Decidable (∀ conjunct ∈ splitTop _ conjunction, valuation.Meets conjunct))

/-- The constraints of a piece hold. -/
def Satisfies (piece : Piece) : Prop :=
  ∀ constraints ∈ piece.constraints,
    ∃ alternative ∈ splitTop " or ".toList constraints.toList, valuation.MeetsAll alternative

instance [DecidablePred valuation.truth] (piece : Piece) : Decidable (valuation.Satisfies piece) :=
  inferInstanceAs (Decidable (∀ constraints ∈ piece.constraints,
    ∃ alternative ∈ splitTop _ constraints.toList, valuation.MeetsAll alternative))

/-- The constraints of some piece hold. -/
def SatisfiesSome (relation : Relation) : Prop :=
  ∃ piece ∈ relation.pieces, valuation.Satisfies piece

instance [DecidablePred valuation.truth] (relation : Relation) :
    Decidable (valuation.SatisfiesSome relation) :=
  inferInstanceAs (Decidable (∃ piece ∈ relation.pieces, valuation.Satisfies piece))

end Valuation

end RegionFlow.Polyhedral
