/-
Module: RegionFlow.Proofs.Constants
Purpose: What the constants of a region are worth. The constant of a parameter comes from the last
  text between two separators that equates the parameter with an integer, wherever in the context
  this text stands. Every valuation that meets a conjunction with this text as a conjunct has the
  constant. Valuations of other pieces or of other alternatives, or of a formula in brackets, need
  not have it.
Main exports: Region.Pinning, Region.exists_pinning_iff, Region.IsFlat, Region.constants_hold
-/
import RegionFlow.Proofs.Cutting
import RegionFlow.Proofs.Satisfaction
import RegionFlow.Proofs.Sequencing
import RegionFlow.Proofs.Tables
import RegionFlow.Region.Metadata
import RegionFlow.Region.OfRecord

namespace RegionFlow

open Polyhedral Sequencing Text

/-! ### Plain texts -/

/-- A text is plain if what is left after trimming is. -/
theorem Polyhedral.isPlain_of_trim {text : List Char}
    (plain : ∀ c ∈ trim text, isPlain c = true) : ∀ c ∈ text, isPlain c = true := by
  obtain ⟨before, after, parts, blankBefore, blankAfter⟩ := exists_trim text
  intro c member
  rw [parts, List.mem_append, List.mem_append] at member
  rcases member with (front | inside) | back
  · exact isPlain_of_class (by decide) (blankBefore c front)
  · exact plain c inside
  · exact isPlain_of_class (by decide) (blankAfter c back)

theorem Text.isPlain_of_digits? {text : List Char} {value : Nat}
    (read : digits? text = some value) : text ≠ [] ∧ ∀ c ∈ text, isPlain c = true := by
  unfold digits? at read
  split at read
  · cases read
  · rename_i digits
    simp only [Bool.or_eq_true, List.isEmpty_iff, Bool.not_eq_true', not_or,
      Bool.not_eq_false] at digits
    refine ⟨digits.1, fun c member => ?_⟩
    exact isPlain_of_class (by decide) (List.all_eq_true.1 digits.2 c member)

/-- An integer is written in plain characters. -/
theorem Text.isPlain_of_signed64? {text : List Char} {value : Int}
    (read : signed64? text = some value) : text ≠ [] ∧ ∀ c ∈ text, isPlain c = true := by
  have behind : ∀ {sign : Char} {rest : List Char} {number : Nat}, isPlain sign = true →
      digits? rest = some number → sign :: rest ≠ [] ∧ ∀ c ∈ sign :: rest, isPlain c = true := by
    intro sign rest number plain digits
    refine ⟨List.cons_ne_nil _ _, fun c member => ?_⟩
    rcases List.mem_cons.1 member with rfl | later
    · exact plain
    · exact (isPlain_of_digits? digits).2 c later
  unfold signed64? at read
  obtain ⟨read, _⟩ := Option.filter_eq_some_iff.1 read
  split at read <;> obtain ⟨number, digits, _⟩ := Option.map_eq_some_iff.1 read
  · exact behind (by decide) digits
  · exact behind (by decide) digits
  · exact isPlain_of_digits? digits

namespace Region

/-- A name that can stand as a term of a chain. -/
def IsTerm (name : String) : Prop :=
  name ≠ "" ∧ name.toList.all isPlain = true

/-- A conjunct that fixes a parameter equates it with an integer. -/
theorem exists_of_pinned? {params : List String} {conjunct : List Char} {name : String} {value : Int}
    (pins : pinned? params conjunct = some (name, value)) :
    ∃ left right literal, conjunct = left ++ '=' :: right ∧ '!' ∉ conjunct ∧
      signed64? literal = some value ∧
      (trim left = name.toList ∧ trim right = literal ∨
        trim left = literal ∧ trim right = name.toList) := by
  unfold pinned? at pins
  split at pins
  · cases pins
  · rename_i equation
    have noBang : '!' ∉ conjunct := by
      intro member
      exact equation (List.any_eq_true.2 ⟨'!', member, rfl⟩)
    split at pins
    · cases pins
    · rename_i left right cut
      obtain ⟨parts, _⟩ := splitOnce_eq_some cut
      dsimp only at pins
      split at pins
      · rename_i number _ read
        split at pins
        · cases pins
          exact ⟨left, right, _, parts, noBang, read, .inl ⟨(String.toList_ofList).symm, rfl⟩⟩
        · cases pins
      · rename_i number read _
        split at pins
        · cases pins
          exact ⟨left, right, _, parts, noBang, read, .inr ⟨rfl, (String.toList_ofList).symm⟩⟩
        · cases pins
      · cases pins

/-- Where a conjunct holds that fixes a parameter, the parameter has that value. -/
theorem term_of_pinned? {params : List String} {conjunct : List Char} {name : String} {value : Int}
    (isTerm : IsTerm name) (pins : pinned? params conjunct = some (name, value))
    {valuation : Valuation} (met : valuation.Meets conjunct) : valuation.term name = value := by
  obtain ⟨left, right, literal, rfl, noBang, read, sides⟩ := exists_of_pinned? pins
  obtain ⟨solid, plain⟩ := isPlain_of_signed64? read
  have named : name.toList ≠ [] := fun nothing => isTerm.1 (String.toList_eq_nil_iff.1 nothing)
  have plainName := List.all_eq_true.1 isTerm.2
  have value : valuation.term (String.ofList literal) = value :=
    valuation.literal (by rw [String.toList_ofList, read])
  unfold Valuation.Meets at met
  rcases sides with ⟨atLeft, atRight⟩ | ⟨atLeft, atRight⟩
  · rw [chain?_equation (isPlain_of_trim (atLeft ▸ plainName)) (isPlain_of_trim (atRight ▸ plain))
      (atLeft ▸ named) (atRight ▸ solid) noBang, atLeft, atRight, String.ofList_toList] at met
    exact (met _ List.mem_cons_self).trans value
  · rw [chain?_equation (isPlain_of_trim (atLeft ▸ plain)) (isPlain_of_trim (atRight ▸ plainName))
      (atLeft ▸ solid) (atRight ▸ named) noBang, atLeft, atRight, String.ofList_toList] at met
    exact (met _ List.mem_cons_self).symm.trans value

/-- The parts of a piece that are searched for constants: what stands between two separators, be it
    inside brackets or beside an alternative. -/
def searched (piece : Piece) : List (List Char) :=
  piece.constraints.toList.flatMap fun constraints => splitOn " and ".toList constraints.toList

theorem pinnedParameters_eq (context : Relation) :
    pinnedParameters context =
      (context.pieces.flatMap searched).filterMap (pinned? context.params) := by
  simp only [pinnedParameters, searched, List.filterMap_eq_flatMap_toList Piece.constraints,
    List.flatMap_assoc, List.filterMap_flatMap]

/-- A conjunct is the one that a constant comes from. -/
structure Pinning (context : Relation) (name : String) (value : Int) (conjunct : List Char) :
    Prop where
  /-- It equates the parameter with the constant. -/
  pins : pinned? context.params conjunct = some (name, value)
  /-- No later one equates the parameter with an integer. -/
  last : ∃ before after, context.pieces.flatMap searched = before ++ conjunct :: after ∧
    ∀ later ∈ after, ∀ other, pinned? context.params later ≠ some (name, other)
  /-- Where it is part of a conjunction that holds, the parameter has this value. -/
  holds : ∀ (valuation : Valuation) (conjunction : List Char),
    conjunct ∈ splitTop " and ".toList conjunction → valuation.MeetsAll conjunction →
      valuation.term name = value

theorem exists_pinning_iff {region : Region} {name : String} {value : Int} (isTerm : IsTerm name) :
    region.metadata.constants.get? name = some value ↔
      ∃ conjunct, Pinning region.context name value conjunct := by
  have stored : region.metadata.constants =
      Table.ofList ((region.context.pieces.flatMap searched).filterMap
        (pinned? region.context.params)) := by
    rw [← pinnedParameters_eq]
    rfl
  rw [stored, Table.get?_ofList_eq_some_iff]
  constructor
  · rintro ⟨before, after, split, absent⟩
    obtain ⟨front, back, parts, _, found⟩ := List.filterMap_eq_append_iff.1 split
    obtain ⟨unpinned, conjunct, rest, rfl, nothing, pins, rfl⟩ := List.filterMap_eq_cons_iff.1 found
    refine ⟨conjunct, pins, ⟨front ++ unpinned, rest, by simp [parts], ?_⟩, ?_⟩
    · intro later member other again
      apply absent
      apply List.mem_map.2
      exact ⟨(name, other), List.mem_filterMap.2 ⟨later, member, again⟩, rfl⟩
    · intro valuation conjunction part met
      exact term_of_pinned? isTerm pins (met conjunct part)
  · rintro ⟨conjunct, pins, ⟨before, after, parts, absent⟩, _⟩
    refine ⟨_, _, by rw [parts, List.filterMap_append, List.filterMap_cons_some pins], ?_⟩
    intro member
    obtain ⟨⟨_, other⟩, listed, rfl⟩ := List.mem_map.1 member
    obtain ⟨later, behind, again⟩ := List.mem_filterMap.1 listed
    exact absent later behind other again

/-- The constraints of a piece are one conjunction, and no separator stands inside brackets. -/
def IsFlat (piece : Piece) : Prop :=
  ∀ constraints ∈ piece.constraints,
    splitTop " or ".toList constraints.toList = [constraints.toList] ∧
      splitTop " and ".toList constraints.toList = splitOn " and ".toList constraints.toList

instance (piece : Piece) : Decidable (IsFlat piece) :=
  inferInstanceAs (Decidable (∀ constraints ∈ piece.constraints, _ ∧ _))

/-- A flat piece that fixes a parameter does so for every valuation that satisfies it. -/
theorem IsFlat.term_of_pinned? {piece : Piece} (flat : IsFlat piece) {params : List String}
    {name : String} {value : Int} (isTerm : IsTerm name) {conjunct : List Char}
    (part : conjunct ∈ searched piece) (pins : pinned? params conjunct = some (name, value))
    {valuation : Valuation} (satisfied : valuation.Satisfies piece) :
    valuation.term name = value := by
  obtain ⟨constraints, given, listed⟩ := List.mem_flatMap.1 part
  rw [Option.mem_toList] at given
  obtain ⟨whole, outside⟩ := flat constraints given
  -- the one alternative is the whole text, and its conjuncts are what is searched
  obtain ⟨alternative, only, met⟩ := satisfied constraints given
  rw [whole, List.mem_singleton] at only
  subst only
  apply Region.term_of_pinned? isTerm pins
  apply met
  rw [outside]
  exact listed

/-- A constant comes from the last conjunct that gives one, and holds of every valuation that meets
    a conjunction with this conjunct. It holds of every valuation of the context if each piece is
    flat and, unless it is the only one, gives the same constant. -/
theorem constants_hold {region : Region} {name : String} {value : Int} (isTerm : IsTerm name) :
    (region.metadata.constants.get? name = some value ↔
      ∃ conjunct, Pinning region.context name value conjunct) ∧
    (region.metadata.constants.get? name = some value →
      (∀ piece ∈ region.context.pieces, IsFlat piece ∧ (region.context.pieces = [piece] ∨
        ∃ conjunct ∈ searched piece, pinned? region.context.params conjunct = some (name, value))) →
      ∀ valuation : Valuation, valuation.SatisfiesSome region.context →
        valuation.term name = value) := by
  refine ⟨exists_pinning_iff isTerm, ?_⟩
  rintro reported each valuation ⟨piece, member, satisfied⟩
  obtain ⟨flat, only | ⟨conjunct, part, pins⟩⟩ := each piece member
  · obtain ⟨conjunct, pinning⟩ := (exists_pinning_iff isTerm).1 reported
    obtain ⟨before, after, parts, _⟩ := pinning.last
    have part : conjunct ∈ searched piece := by
      rw [only, List.flatMap_singleton] at parts
      simp [parts]
    exact flat.term_of_pinned? isTerm part pinning.pins satisfied
  · exact flat.term_of_pinned? isTerm part pins satisfied

/-- A record with nothing but a context. -/
def bounded (context : String) : Record where
  name := "bounded"
  context := context
  schedule := ""
  parameters := []
  arrays := []
  dependences := ⟨"", "", "", "", ""⟩
  instructions := ""
  statements := []
  aliasGroups := []

/-- In a context that is one flat piece, beside a chain and a constraint in brackets, the constant holds. -/
theorem bounded_constants_hold :
    ∃ region, ofRecord (bounded "[n, m] -> \x7b : 0 <= m < n and n = 256 and (m = 1 or m = 2) \x7d") =
        .ok region ∧
      region.metadata.constants.get? "n" = some 256 ∧
      (∃ conjunct, Pinning region.context "n" 256 conjunct) ∧
      (∃ valuation : Valuation, valuation.SatisfiesSome region.context) ∧
      ∀ valuation : Valuation, valuation.SatisfiesSome region.context →
        valuation.term "n" = 256 := by
  have evaluated : succeeds (ofRecord
        (bounded "[n, m] -> \x7b : 0 <= m < n and n = 256 and (m = 1 or m = 2) \x7d")) (fun region =>
      decide (region.metadata.constants.get? "n" = some 256) &&
        decide (region.context.pieces.length = 1 ∧ ∀ piece ∈ region.context.pieces, IsFlat piece) &&
        decide ((Valuation.ofTerms fun term => if term = "n" then 256 else 1).SatisfiesSome
          region.context)) = true := by
    decide +kernel
  obtain ⟨region, built, evaluated⟩ := exists_of_succeeds evaluated
  simp only [Bool.and_eq_true, decide_eq_true_eq] at evaluated
  obtain ⟨⟨reported, alone, flat⟩, satisfied⟩ := evaluated
  have isTerm : IsTerm "n" := ⟨by decide, by decide⟩
  obtain ⟨origin, sound⟩ := @constants_hold region "n" 256 isTerm
  refine ⟨region, built, reported, origin.1 reported, ⟨_, satisfied⟩, sound reported ?_⟩
  intro piece member
  obtain ⟨only, pieces⟩ := List.length_eq_one_iff.1 alone
  rw [pieces, List.mem_singleton] at member
  subst member
  exact ⟨flat _ (by simp [pieces]), .inl pieces⟩

/-- Not every valuation of a context has the constants of its region: a context of two pieces has
    valuations that have not the constant of the last. -/
theorem bounded_misses_constant :
    ¬ ∀ (record : Record) (region : Region) (valuation : Valuation) (name : String) (value : Int),
      ofRecord record = .ok region → valuation.SatisfiesSome region.context →
      region.metadata.constants.get? name = some value → valuation.term name = value := by
  intro every
  have evaluated : succeeds (ofRecord (bounded "[n] -> \x7b : n = 4; : n = 5 \x7d")) (fun region =>
      decide (region.metadata.constants.get? "n" = some 5) &&
        decide ((Valuation.ofTerms fun _ => 4).SatisfiesSome region.context)) = true := by
    decide +kernel
  obtain ⟨region, built, evaluated⟩ := exists_of_succeeds evaluated
  simp only [Bool.and_eq_true, decide_eq_true_eq] at evaluated
  have wrong := every _ region _ "n" 5 built evaluated.2 evaluated.1
  exact absurd wrong (by decide)

end Region

end RegionFlow
