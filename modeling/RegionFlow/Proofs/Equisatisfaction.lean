/-
Module: RegionFlow.Proofs.Equisatisfaction
Purpose: Bounds keep the integer points of a piece. Constraints hold exactly where every dimension
  lies within its bounds and the conditions that are left hold: a link that gives a bound is
  replaced by it, a strict one by a bound that is one tighter, and every other link and conjunct is
  kept as it is.
Main exports: Polyhedral.Valuation.Admits, Polyhedral.Valuation.Within,
  Polyhedral.Valuation.admits_iff_within_bounds
-/
import RegionFlow.Proofs.Bounding
import RegionFlow.Proofs.Satisfaction

namespace RegionFlow

/-! ### Reading integers back -/

namespace Text

theorem digitsValue_cons (high : Nat) (c : Char) (text : List Char) :
    digitsValue high (c :: text) = digitsValue (high * 10 + (c.toNat - 48)) text := by
  rw [digitsValue.eq_def]

theorem digitsValue_eq_ofDigitChars (text : List Char) (high : Nat) :
    digitsValue high text = Nat.ofDigitChars 10 text high := by
  induction text generalizing high with
  | nil => exact Nat.ofDigitChars_nil.symm
  | cons c text ih =>
    have zero : '0'.toNat = 48 := by decide
    rw [digitsValue_cons, ih, Nat.ofDigitChars_cons, Nat.mul_comm, zero]

theorem digits?_toString (number : Nat) : digits? (toString number).toList = some number := by
  have digits : (toString number).toList.all isDigit = true := by
    rw [List.all_eq_true]
    intro c member
    exact isDigit_of_mem_toString member
  have some : (toString number).toList.isEmpty = false := by
    rw [Nat.toString_eq_repr, Nat.toList_repr, List.isEmpty_eq_false_iff]
    exact Nat.toDigits_ne_nil
  have value : digitsValue 0 (toString number).toList = number := by
    rw [digitsValue_eq_ofDigitChars, Nat.toString_eq_repr, Nat.toList_repr]
    exact Nat.ofDigitChars_ten_toDigits
  rw [digits?, digits, some, value]
  rfl

/-- The text of an integer that fits a word is read as that integer. -/
theorem signed64?_intText {value : Int} (least : minSigned64 ≤ value) (most : value ≤ maxSigned64) :
    signed64? (intText value).toList = some value := by
  have within : (decide (minSigned64 ≤ value) && decide (value ≤ maxSigned64)) = true := by
    rw [decide_eq_true least, decide_eq_true most]
    rfl
  cases value with
  | ofNat number =>
    -- no digit is taken for a sign
    have unsigned : signed64? (toString number).toList =
        ((digits? (toString number).toList).map Int.ofNat).filter
          fun v => minSigned64 ≤ v && v ≤ maxSigned64 := by
      unfold signed64?
      split
      · rename_i rest spelled
        have sign : '+' ∈ (toString number).toList := by
          rw [spelled]
          exact List.mem_cons_self
        exact absurd (isDigit_of_mem_toString sign) (by decide)
      · rename_i rest spelled
        have sign : '-' ∈ (toString number).toList := by
          rw [spelled]
          exact List.mem_cons_self
        exact absurd (isDigit_of_mem_toString sign) (by decide)
      · rfl
    rw [intText, unsigned, digits?_toString, Option.map_some, Option.filter_some, within]
    rfl
  | negSucc number =>
    have spelled : (intText (.negSucc number)).toList = '-' :: (toString (number + 1)).toList := by
      simp [intText]
    have signed : -Int.ofNat (number + 1) = Int.negSucc number := rfl
    rw [spelled, signed64?, digits?_toString, Option.map_some, signed, Option.filter_some, within]
    rfl

theorem signed64?_range {text : List Char} {value : Int} (read : signed64? text = some value) :
    minSigned64 ≤ value ∧ value ≤ maxSigned64 := by
  have kept := (Option.filter_eq_some_iff.1 read).2
  simpa using kept

/-- Wrapping leaves words alone. -/
theorem wrapSigned64_of_range {value : Int} (least : minSigned64 ≤ value) (most : value ≤ maxSigned64) :
    wrapSigned64 value = value := by
  unfold minSigned64 at least
  unfold maxSigned64 at most
  exact Int.bmod_eq_of_le (by omega) (by omega)

/-- Wrapping gives words only. -/
theorem wrapSigned64_range (value : Int) :
    minSigned64 ≤ wrapSigned64 value ∧ wrapSigned64 value ≤ maxSigned64 := by
  unfold minSigned64 maxSigned64 wrapSigned64
  have least : -(18446744073709551616 / 2) ≤ value.bmod 18446744073709551616 :=
    Int.le_bmod (by decide)
  have most : value.bmod 18446744073709551616 < (18446744073709551616 + 1) / 2 :=
    Int.bmod_lt (by decide)
  omega

end Text

namespace Polyhedral

open Text

/-! ### Points of constraints and of bounds -/

/-- The links that are looked at for bounds: those of constraints that can be taken apart. -/
def Piece.compared (piece : Piece) : List Link :=
  piece.constraints.toList.flatMap fun constraints =>
    if isIndivisible constraints.toList then [] else linksOf constraints.toList

/-- Tightening a bound by one stays in the range of words. -/
def Tightens (comparison : Comparison) (term : String) : Prop :=
  ∀ value ∈ signed64? term.toList,
    (comparison = .lt → value ≠ minSigned64) ∧ (comparison = .gt → value ≠ maxSigned64)

instance (comparison : Comparison) (term : String) : Decidable (Tightens comparison term) :=
  inferInstanceAs (Decidable (∀ value ∈ signed64? term.toList, _))

/-- No strict bound stands at the end of the range of words. -/
def Piece.Tightens (piece : Piece) : Prop :=
  ∀ link ∈ piece.compared, ∀ bound ∈ Bounds.target? piece.input.dims link,
    Polyhedral.Tightens bound.2.1 bound.2.2

instance (piece : Piece) : Decidable piece.Tightens :=
  inferInstanceAs (Decidable (∀ link ∈ piece.compared,
    ∀ bound ∈ Bounds.target? piece.input.dims link, _))

/-- A literal that is moved is a literal again. At the ends of the range it wraps around. -/
theorem signed64?_shift {term : String} {value : Int} (literal : signed64? term.toList = some value)
    (delta : Int) :
    signed64? (Bounds.shift term delta).toList = some (wrapSigned64 (value + delta)) := by
  obtain ⟨least, most⟩ := wrapSigned64_range (value + delta)
  rw [Bounds.shift, literal]
  exact signed64?_intText least most

example : Bounds.shift "-9223372036854775808" (-1) = "9223372036854775807" := by decide +kernel

namespace Valuation

variable (valuation : Valuation)

/-- The text that a strict comparison with a term makes of it has the value of the term moved by one. -/
def Offsets (comparison : Comparison) (term : String) : Prop :=
  signed64? term.toList = none →
    (comparison = .lt → valuation.term (term ++ " - 1") = valuation.term term - 1) ∧
      (comparison = .gt → valuation.term (term ++ " + 1") = valuation.term term + 1)

instance (comparison : Comparison) (term : String) : Decidable (valuation.Offsets comparison term) :=
  inferInstanceAs (Decidable (_ → _))

/-- The texts that the strict bounds of a piece make have the values of their terms moved by one. -/
def OffsetsAll (piece : Piece) : Prop :=
  ∀ link ∈ piece.compared, ∀ bound ∈ Bounds.target? piece.input.dims link,
    valuation.Offsets bound.2.1 bound.2.2

instance (piece : Piece) : Decidable (valuation.OffsetsAll piece) :=
  inferInstanceAs (Decidable (∀ link ∈ piece.compared,
    ∀ bound ∈ Bounds.target? piece.input.dims link, _))

/-- The constraints of a piece hold. Constraints that are not taken apart hold or fail as a whole. -/
def Admits (piece : Piece) : Prop :=
  ∀ constraints ∈ piece.constraints,
    if isIndivisible constraints.toList then valuation.truth constraints
    else valuation.MeetsAll constraints.toList

instance [DecidablePred valuation.truth] (piece : Piece) : Decidable (valuation.Admits piece) :=
  inferInstanceAs (Decidable (∀ constraints ∈ piece.constraints, _))

/-- A dimension lies within the bounds that it has. -/
def WithinDim (entry : DimBounds) : Prop :=
  (∀ lower ∈ entry.lower, valuation.term lower ≤ valuation.term entry.name) ∧
    ∀ upper ∈ entry.upper, valuation.term entry.name ≤ valuation.term upper

instance (entry : DimBounds) : Decidable (valuation.WithinDim entry) :=
  inferInstanceAs (Decidable (_ ∧ _))

/-- A condition holds. -/
def MeetsCondition : Condition → Prop
  | .link link => valuation.MeetsLink link
  | .text words => valuation.truth words

instance [DecidablePred valuation.truth] (condition : Condition) :
    Decidable (valuation.MeetsCondition condition) :=
  match condition with
  | .link link => inferInstanceAs (Decidable (valuation.MeetsLink link))
  | .text words => inferInstanceAs (Decidable (valuation.truth words))

/-- All dimensions lie within their bounds, and the conditions hold. -/
structure Within (bounds : Bounds) : Prop where
  dims : ∀ entry ∈ bounds.dims, valuation.WithinDim entry
  conditions : ∀ condition ∈ bounds.conditions, valuation.MeetsCondition condition

variable {valuation} {dims : List String} {bounds : Bounds}

theorem within_iff : valuation.Within bounds ↔
    (∀ entry ∈ bounds.dims, valuation.WithinDim entry) ∧
      ∀ condition ∈ bounds.conditions, valuation.MeetsCondition condition :=
  ⟨fun within => ⟨within.dims, within.conditions⟩, fun within => ⟨within.1, within.2⟩⟩

instance [DecidablePred valuation.truth] (bounds : Bounds) : Decidable (valuation.Within bounds) :=
  decidable_of_iff _ within_iff.symm

/-! ### One link -/

/-- A literal that is moved within the range of words has its value moved. -/
theorem term_shift_of_literal {term : String} {value delta : Int}
    (literal : signed64? term.toList = some value) (least : minSigned64 ≤ value + delta)
    (most : value + delta ≤ maxSigned64) :
    valuation.term (Bounds.shift term delta) = valuation.term term + delta := by
  rw [valuation.literal literal, valuation.literal (signed64?_shift literal delta)]
  exact wrapSigned64_of_range least most

/-- A term that is tightened as an upper bound has the value of the term less one. -/
theorem term_shift_down {term : String} (offsets : valuation.Offsets .lt term)
    (tightens : Tightens .lt term) :
    valuation.term (Bounds.shift term (-1)) = valuation.term term - 1 := by
  cases literal : signed64? term.toList with
  | some value =>
    have apart := (tightens value literal).1 rfl
    obtain ⟨least, most⟩ := signed64?_range literal
    exact term_shift_of_literal literal (by omega) (by omega)
  | none =>
    have spelled : Bounds.shift term (-1) = term ++ (" - " ++ toString 1) := by
      simp [Bounds.shift, literal, intText, String.append_assoc]
    rw [spelled]
    exact (offsets literal).1 rfl

/-- A term that is tightened as a lower bound has the value of the term and one. -/
theorem term_shift_up {term : String} (offsets : valuation.Offsets .gt term)
    (tightens : Tightens .gt term) :
    valuation.term (Bounds.shift term 1) = valuation.term term + 1 := by
  cases literal : signed64? term.toList with
  | some value =>
    have apart := (tightens value literal).2 rfl
    obtain ⟨least, most⟩ := signed64?_range literal
    exact term_shift_of_literal literal (by omega) (by omega)
  | none =>
    have spelled : Bounds.shift term 1 = term ++ (" + " ++ toString 1) := by
      simp [Bounds.shift, literal, intText, String.append_assoc]
    rw [spelled]
    exact (offsets literal).2 rfl

theorem withinDim_lower {name lower : String} :
    valuation.WithinDim ⟨name, some lower, none⟩ ↔ valuation.term lower ≤ valuation.term name := by
  simp [WithinDim]

theorem withinDim_upper {name upper : String} :
    valuation.WithinDim ⟨name, none, some upper⟩ ↔ valuation.term name ≤ valuation.term upper := by
  simp [WithinDim]

theorem withinDim_both {name lower upper : String} :
    valuation.WithinDim ⟨name, some lower, some upper⟩ ↔
      valuation.term lower ≤ valuation.term name ∧ valuation.term name ≤ valuation.term upper := by
  simp [WithinDim]

/-- Comparing a dimension with a term is lying within the limits that the comparison gives. -/
theorem holds_iff_withinDim_limits {comparison : Comparison} {name term : String}
    (offsets : valuation.Offsets comparison term) (tightens : Tightens comparison term) :
    comparison.Holds (valuation.term name) (valuation.term term) ↔
      valuation.WithinDim
        ⟨name, (Bounds.limits comparison term).1, (Bounds.limits comparison term).2⟩ := by
  cases comparison with
  | lt =>
    rw [Bounds.limits, withinDim_upper, term_shift_down offsets tightens, Comparison.Holds]
    omega
  | gt =>
    rw [Bounds.limits, withinDim_lower, term_shift_up offsets tightens, Comparison.Holds]
    omega
  | le => rw [Bounds.limits, withinDim_upper, Comparison.Holds]
  | ge => rw [Bounds.limits, withinDim_lower, Comparison.Holds, ge_iff_le]
  | eq =>
    rw [Bounds.limits, withinDim_both, Comparison.Holds]
    omega

theorem holds_flip {comparison : Comparison} {left right : Int} :
    comparison.flip.Holds right left ↔ comparison.Holds left right := by
  cases comparison with
  | lt | le | gt | ge => exact Iff.rfl
  | eq => exact eq_comm

/-- A link that bounds a dimension compares it with the other term. -/
theorem meetsLink_iff_of_target? (valuation : Valuation) {link : Link} {place : Nat}
    {comparison : Comparison} {term : String}
    (target : Bounds.target? dims link = some (place, comparison, term)) :
    ∃ name, dims[place]? = some name ∧
      (valuation.MeetsLink link ↔
        comparison.Holds (valuation.term name) (valuation.term term)) := by
  cases left : Bounds.dimIndex? dims link.left with
  | none =>
    cases right : Bounds.dimIndex? dims link.right with
    | none => simp [Bounds.target?, left, right] at target
    | some at_ =>
      simp only [Bounds.target?, left, right, Option.some.injEq, Prod.mk.injEq] at target
      obtain ⟨rfl, rfl, rfl⟩ := target
      exact ⟨link.right, getElem?_of_dimIndex? right, holds_flip.symm⟩
  | some first =>
    cases right : Bounds.dimIndex? dims link.right with
    | none =>
      simp only [Bounds.target?, left, right, Option.some.injEq, Prod.mk.injEq] at target
      obtain ⟨rfl, rfl, rfl⟩ := target
      exact ⟨link.left, getElem?_of_dimIndex? left, Iff.rfl⟩
    | some second =>
      simp only [Bounds.target?, left, right] at target
      by_cases later : second > first
      · simp only [later, if_true, Option.some.injEq, Prod.mk.injEq] at target
        obtain ⟨rfl, rfl, rfl⟩ := target
        exact ⟨link.right, getElem?_of_dimIndex? right, holds_flip.symm⟩
      · simp only [later, if_false, Option.some.injEq, Prod.mk.injEq] at target
        obtain ⟨rfl, rfl, rfl⟩ := target
        exact ⟨link.left, getElem?_of_dimIndex? left, Iff.rfl⟩

theorem within_addCondition {condition : Condition} :
    valuation.Within (bounds.addCondition condition) ↔
      valuation.Within bounds ∧ valuation.MeetsCondition condition := by
  rw [within_iff, within_iff, Bounds.addCondition, List.forall_mem_append, List.forall_mem_singleton,
    and_assoc]

/-- Bounds that are free are met together with those that a dimension has. -/
theorem withinDim_merge {entry : DimBounds} {lower upper : Option String}
    (free : Bounds.clashes entry lower upper = false) :
    valuation.WithinDim ⟨entry.name, lower.or entry.lower, upper.or entry.upper⟩ ↔
      valuation.WithinDim entry ∧ valuation.WithinDim ⟨entry.name, lower, upper⟩ := by
  obtain ⟨name, oldLower, oldUpper⟩ := entry
  cases lower <;> cases upper <;> cases oldLower <;> cases oldUpper <;>
    simp_all [WithinDim, Bounds.clashes, and_comm]

/-- Replacing an entry by one that asks for more asks for just that more. -/
theorem forall_mem_set {entries : List DimBounds} {place : Nat} {entry new : DimBounds}
    {More : Prop} (held : entries[place]? = some entry)
    (split : valuation.WithinDim new ↔ valuation.WithinDim entry ∧ More) :
    (∀ other ∈ entries.set place new, valuation.WithinDim other) ↔
      (∀ other ∈ entries, valuation.WithinDim other) ∧ More := by
  obtain ⟨inside, rfl⟩ := List.getElem?_eq_some_iff.1 held
  have cut : entries = entries.take place ++ entries[place] :: entries.drop (place + 1) := by simp
  rw [List.set_eq_take_append_cons_drop, if_pos inside]
  conv_rhs => rw [cut]
  simp only [List.forall_mem_append, List.forall_mem_cons, split]
  tauto

/-- Taking a link up asks for the link, in addition to what was asked for. -/
theorem within_addLink (names : bounds.dims.map DimBounds.name = dims) {link : Link}
    (offsets : ∀ bound ∈ Bounds.target? dims link, valuation.Offsets bound.2.1 bound.2.2)
    (tightens : ∀ bound ∈ Bounds.target? dims link, Tightens bound.2.1 bound.2.2) :
    valuation.Within (Bounds.addLink dims bounds link) ↔
      valuation.Within bounds ∧ valuation.MeetsLink link := by
  rcases Bounds.addLink_cases dims bounds link with
    condition | ⟨place, comparison, term, entry, target, held, free, bounded⟩
  · rw [condition]
    exact within_addCondition
  · obtain ⟨name, named, link_iff⟩ := valuation.meetsLink_iff_of_target? target
    have same : entry.name = name := by
      rw [← names, List.getElem?_map, held] at named
      exact Option.some.inj named
    have asked : valuation.MeetsLink link ↔ valuation.WithinDim
        ⟨entry.name, (Bounds.limits comparison term).1, (Bounds.limits comparison term).2⟩ := by
      rw [link_iff, same]
      exact holds_iff_withinDim_limits (offsets _ target) (tightens _ target)
    rw [bounded, within_iff, within_iff, forall_mem_set held (withinDim_merge free), asked]
    tauto

/-! ### All constraints -/

/-- A fold that takes items up, each of which asks for one more thing, asks for all of them. -/
theorem within_foldl {α : Type} {step : Bounds → α → Bounds} {Met : α → Prop}
    (keeps : ∀ bounds item, (step bounds item).dims.map DimBounds.name =
      bounds.dims.map DimBounds.name) {items : List α}
    (each : ∀ item ∈ items, ∀ bounds : Bounds, bounds.dims.map DimBounds.name = dims →
      (valuation.Within (step bounds item) ↔ valuation.Within bounds ∧ Met item))
    (names : bounds.dims.map DimBounds.name = dims) :
    valuation.Within (items.foldl step bounds) ↔
      valuation.Within bounds ∧ ∀ item ∈ items, Met item := by
  induction items generalizing bounds with
  | nil => simp
  | cons item items ih =>
    have later := ih (fun other member => each other (List.mem_cons_of_mem item member))
      ((keeps bounds item).trans names)
    rw [List.foldl_cons, later, each item List.mem_cons_self bounds names, List.forall_mem_cons,
      and_assoc]

/-- Taking a conjunct up asks for the conjunct, in addition to what was asked for. -/
theorem within_addConjunct (names : bounds.dims.map DimBounds.name = dims) {conjunct : List Char}
    (each : ∀ links, chain? (trim conjunct) = some links → ∀ link ∈ links,
      (∀ bound ∈ Bounds.target? dims link, valuation.Offsets bound.2.1 bound.2.2) ∧
        ∀ bound ∈ Bounds.target? dims link, Tightens bound.2.1 bound.2.2) :
    valuation.Within (Bounds.addConjunct dims bounds conjunct) ↔
      valuation.Within bounds ∧ valuation.Meets conjunct := by
  unfold Bounds.addConjunct Meets
  dsimp only
  cases chain : chain? (trim conjunct) with
  | none => exact within_addCondition
  | some links =>
    apply within_foldl (names_addLink dims) _ names
    intro link member bounds names
    obtain ⟨offsets, tightens⟩ := each links chain link member
    exact within_addLink names offsets tightens

theorem within_unbounded : valuation.Within (Bounds.unbounded dims) := by
  rw [within_iff]
  simp [Bounds.unbounded, WithinDim]

/-- The constraints of a piece hold exactly where its dimensions lie within their bounds and the
    conditions that are left hold. -/
theorem admits_iff_within_bounds (piece : Piece) (valuation : Valuation)
    (offsets : valuation.OffsetsAll piece) (tightens : piece.Tightens) :
    valuation.Admits piece ↔ valuation.Within piece.bounds := by
  have names : (Bounds.unbounded piece.input.dims).dims.map DimBounds.name = piece.input.dims := by
    simp [Bounds.unbounded, Function.comp_def]
  unfold Admits Piece.bounds
  cases given : piece.constraints with
  | none => simp [within_unbounded]
  | some constraints =>
    simp only [Option.mem_some, forall_eq']
    by_cases whole : isIndivisible constraints.toList = true
    · simp only [whole, if_true]
      rw [within_addCondition]
      simp [within_unbounded, MeetsCondition]
    · simp only [whole, Bool.false_eq_true, if_false]
      have compared : piece.compared = linksOf constraints.toList := by
        simp [Piece.compared, given, whole]
      have each : ∀ conjunct ∈ splitTop " and ".toList constraints.toList, ∀ bounds : Bounds,
          bounds.dims.map DimBounds.name = piece.input.dims →
          (valuation.Within (Bounds.addConjunct piece.input.dims bounds conjunct) ↔
            valuation.Within bounds ∧ valuation.Meets conjunct) := by
        intro conjunct part bounds names
        apply within_addConjunct names
        intro links chain link listed
        have member : link ∈ piece.compared := by
          rw [compared]
          apply List.mem_flatMap.2
          exact ⟨conjunct, part, by rw [chain]; exact listed⟩
        exact ⟨offsets link member, tightens link member⟩
      rw [within_foldl (names_addConjunct piece.input.dims) each names]
      simp only [within_unbounded, true_and]
      rfl

/-- A nest of two loops with a second upper bound of the outer one and a constraint that is no chain. -/
def triangle : Piece :=
  ⟨⟨some "S", ["i", "j"]⟩, none, some "0 <= i < n and i < j <= 9 and i <= 5 and 2j != n"⟩

/-- A point of the nest. -/
def trianglePoint : Valuation :=
  ofTerms fun text =>
    ([("i", 2), ("j", 4), ("n", 7), ("i + 1", 3), ("n - 1", 6)].lookup text).getD 0

theorem triangle_within_bounds :
    triangle.bounds =
      ⟨[⟨"i", some "0", some "n - 1"⟩, ⟨"j", some "i + 1", some "9"⟩],
        [.link ⟨"i", .le, "5"⟩, .text "2j != n"]⟩ ∧
    trianglePoint.OffsetsAll triangle ∧ triangle.Tightens ∧ trianglePoint.Admits triangle ∧
      trianglePoint.Within triangle.bounds := by
  have offsets : trianglePoint.OffsetsAll triangle := by decide +kernel
  have tightens : triangle.Tightens := by decide +kernel
  have admits : trianglePoint.Admits triangle := by
    unfold trianglePoint
    decide +kernel
  have within := (admits_iff_within_bounds triangle trianglePoint offsets tightens).1 admits
  exact ⟨by decide +kernel, offsets, tightens, admits, within⟩

end Valuation

end Polyhedral

end RegionFlow
