/-
Module: RegionFlow.Proofs.Scheduling
Purpose: The order in which the statements of a region are executed. Schedule vectors are ordered
  lexicographically, a vector before those that continue it, and a statement without a vector comes
  last; the comparison decides this order, which is total. Execution follows it, and statements that
  it does not tell apart keep the order of their declaration. If no two pieces of the schedule start
  at the same statement, the order of the pieces does not matter.
Main exports: Component.Precedes, Component.Earlier, Component.Decides, Component.decides_orderKeys,
  Region.statementOrder_eq_mergeSort, Region.statementOrder_scheduled
-/
import Mathlib.Data.String.Basic
import RegionFlow.Proofs.Generation

namespace RegionFlow

namespace Component

/-! ### The order of schedule vectors -/

/-- Integers are ordered by value, symbols as texts, and integers come before symbols. -/
inductive Precedes : Component → Component → Prop where
  | integers {a b : Int} (less : a < b) : Precedes (.int a) (.int b)
  | mixed (a : Int) (text : String) : Precedes (.int a) (.symbol text)
  | symbols {a b : String} (less : a < b) : Precedes (.symbol a) (.symbol b)

/-- Vectors are ordered lexicographically; a statement with a vector comes before one without. -/
inductive Earlier : Option (List Component) → Option (List Component) → Prop where
  | scheduled {a b : List Component} (less : List.Lex Precedes a b) : Earlier (some a) (some b)
  | unscheduled (a : List Component) : Earlier (some a) none

theorem Precedes.trans {a b c : Component} (one : Precedes a b) (two : Precedes b c) : Precedes a c := by
  cases one with
  | integers less =>
    cases two with
    | integers more => exact .integers (Int.lt_trans less more)
    | mixed => exact .mixed _ _
  | mixed =>
    cases two with
    | symbols => exact .mixed _ _
  | symbols less =>
    cases two with
    | symbols more => exact .symbols (lt_trans less more)

theorem Earlier.trans {a b c : Option (List Component)} (one : Earlier a b) (two : Earlier b c) :
    Earlier a c := by
  cases one with
  | scheduled less =>
    cases two with
    | scheduled more => exact .scheduled (List.lex_trans Precedes.trans less more)
    | unscheduled => exact .unscheduled _
  | unscheduled => cases two

/-! ### Comparisons -/

/-- A comparison decides an order: it tells the smaller, and calls nothing equal but equals. -/
structure Decides {α : Type} (comparison : α → α → Ordering) (Less : α → α → Prop) : Prop where
  lt_iff : ∀ {a b}, comparison a b = .lt ↔ Less a b
  eq_iff : ∀ {a b}, comparison a b = .eq ↔ a = b
  gt_iff : ∀ {a b}, comparison a b = .gt ↔ Less b a

namespace Decides

variable {α : Type} {comparison : α → α → Ordering} {Less : α → α → Prop} {a b c : α}

theorem isLE_iff (decides : Decides comparison Less) : (comparison a b).isLE ↔ Less a b ∨ a = b := by
  rw [← decides.lt_iff, ← decides.eq_iff]
  cases comparison a b <;> simp

theorem total (decides : Decides comparison Less) (a b : α) :
    ((comparison a b).isLE || (comparison b a).isLE) = true := by
  rw [Bool.or_eq_true, decides.isLE_iff, decides.isLE_iff]
  cases compared : comparison a b with
  | lt => exact .inl (.inl (decides.lt_iff.1 compared))
  | eq => exact .inl (.inr (decides.eq_iff.1 compared))
  | gt => exact .inr (.inl (decides.gt_iff.1 compared))

theorem trans (decides : Decides comparison Less) (transitive : ∀ {a b c}, Less a b → Less b c → Less a c)
    (a b c : α) (one : (comparison a b).isLE) (two : (comparison b c).isLE) : (comparison a c).isLE := by
  rw [decides.isLE_iff] at one two ⊢
  rcases one with less | rfl
  · rcases two with more | rfl
    · exact .inl (transitive less more)
    · exact .inl less
  · exact two

/-- Of two items, the smaller one is not among those that come no later. -/
theorem not_isLE (decides : Decides comparison Less) (less : Less a b) : ¬ (comparison b a).isLE := by
  rw [decides.gt_iff.2 less]
  simp

end Decides

section Precedes

variable {a b : Int} {s t : String}

@[simp] theorem precedes_int_int : Precedes (.int a) (.int b) ↔ a < b :=
  ⟨fun | .integers less => less, .integers⟩

@[simp] theorem precedes_int_symbol : Precedes (.int a) (.symbol t) :=
  .mixed a t

@[simp] theorem not_precedes_symbol_int : ¬ Precedes (.symbol s) (.int b) := by
  intro less
  cases less

@[simp] theorem precedes_symbol_symbol : Precedes (.symbol s) (.symbol t) ↔ s < t :=
  ⟨fun | .symbols less => less, .symbols⟩

end Precedes

theorem decides_order : Decides order Precedes where
  lt_iff {a b} := by
    cases a <;> cases b <;> simp [order, compare_lt_iff_lt]
  eq_iff {a b} := by
    cases a <;> cases b <;> simp [order]
  gt_iff {a b} := by
    cases a <;> cases b <;> simp [order, compare_gt_iff_gt]

theorem decides_orderVectors : Decides orderVectors (List.Lex Precedes) where
  lt_iff {as bs} := by
    induction as generalizing bs with
    | nil => cases bs <;> simp [orderVectors]
    | cons a as ih =>
      cases bs with
      | nil => simp [orderVectors]
      | cons b bs =>
        rw [orderVectors, Ordering.then_eq_lt, decides_order.lt_iff, decides_order.eq_iff, ih,
          List.cons_lex_cons_iff]
  eq_iff {as bs} := by
    induction as generalizing bs with
    | nil => cases bs <;> simp [orderVectors]
    | cons a as ih =>
      cases bs with
      | nil => simp [orderVectors]
      | cons b bs => rw [orderVectors, Ordering.then_eq_eq, decides_order.eq_iff, ih, List.cons.injEq]
  gt_iff {as bs} := by
    induction as generalizing bs with
    | nil => cases bs <;> simp [orderVectors]
    | cons a as ih =>
      cases bs with
      | nil => simp [orderVectors]
      | cons b bs =>
        rw [orderVectors, Ordering.then_eq_gt, decides_order.gt_iff, decides_order.eq_iff, ih,
          List.cons_lex_cons_iff, eq_comm]

@[simp] theorem earlier_some_some {a b : List Component} :
    Earlier (some a) (some b) ↔ List.Lex Precedes a b :=
  ⟨fun | .scheduled less => less, .scheduled⟩

@[simp] theorem earlier_some_none {a : List Component} : Earlier (some a) none :=
  .unscheduled a

@[simp] theorem not_earlier_none {b : Option (List Component)} : ¬ Earlier none b := by
  intro less
  cases less

/-- The comparison of the vectors of statements decides the order of their execution. -/
theorem decides_orderKeys : Decides orderKeys Earlier where
  lt_iff {a b} := by
    cases a <;> cases b <;> simp [orderKeys, decides_orderVectors.lt_iff]
  eq_iff {a b} := by
    cases a <;> cases b <;> simp [orderKeys, decides_orderVectors.eq_iff]
  gt_iff {a b} := by
    cases a <;> cases b <;> simp [orderKeys, decides_orderVectors.gt_iff]

end Component

/-! ### Pairs of a list -/

section Pairs

open List

variable {α : Type} {items : List α} {a b : α}

/-- Of two different members of a list, one comes before the other. -/
theorem pair_sublist_or_swap (one : a ∈ items) (two : b ∈ items) (apart : a ≠ b) :
    [a, b] <+ items ∨ [b, a] <+ items := by
  induction items with
  | nil => cases one
  | cons first items ih =>
    rcases mem_cons.1 one with rfl | later
    · exact .inl (cons_sublist_cons.2 (singleton_sublist.2 ((mem_cons.1 two).resolve_left apart.symm)))
    · rcases mem_cons.1 two with rfl | last
      · exact .inr (cons_sublist_cons.2 (singleton_sublist.2 later))
      · rcases ih later last with ahead | behind
        · exact .inl (ahead.cons first)
        · exact .inr (behind.cons first)

/-- In a list without repetitions, no two members come before each other. -/
theorem not_pair_sublist_swap (distinct : items.Nodup) (ahead : [a, b] <+ items) : ¬ [b, a] <+ items := by
  intro behind
  induction items with
  | nil => cases ahead
  | cons first items ih =>
    obtain ⟨fresh, distinct⟩ := nodup_cons.1 distinct
    cases ahead with
    | cons _ ahead =>
      cases behind with
      | cons _ behind => exact ih distinct ahead behind
      | cons_cons _ _ => exact fresh (ahead.subset (by simp))
    | cons_cons _ last =>
      cases behind with
      | cons _ behind => exact fresh (behind.subset (by simp))
      | cons_cons _ _ => exact fresh (singleton_sublist.1 last)

end Pairs

namespace Polyhedral.Relation

variable {relation : Relation} {name : String} {piece : Piece}

/-- No two pieces of a relation start at tuples of one name. -/
def HasDistinctInputs (relation : Relation) : Prop :=
  (relation.pieces.filterMap fun piece => piece.input.name).Nodup

instance (relation : Relation) : Decidable relation.HasDistinctInputs :=
  inferInstanceAs (Decidable (List.Nodup _))

/-- If no other piece starts at a tuple of its name, a piece is found by the name wherever it stands. -/
theorem piece?_eq_some_iff (distinct : relation.HasDistinctInputs) :
    relation.piece? name = some piece ↔ piece ∈ relation.pieces ∧ piece.input.name = some name := by
  rw [piece?]
  constructor
  · intro found
    exact ⟨List.mem_of_find?_eq_some found, by simpa using List.find?_some found⟩
  · rintro ⟨member, named⟩
    rw [HasDistinctInputs] at distinct
    generalize relation.pieces = pieces at member distinct
    induction pieces with
    | nil => cases member
    | cons first pieces ih =>
      by_cases same : first.input.name = some name
      · simp only [List.filterMap_cons, same, List.nodup_cons] at distinct
        rw [List.find?_cons_of_pos (by simp [same])]
        rcases List.mem_cons.1 member with rfl | later
        · rfl
        · exact absurd (List.mem_filterMap.2 ⟨piece, later, named⟩) distinct.1
      · rw [List.find?_cons_of_neg (by simp [same])]
        rcases List.mem_cons.1 member with rfl | later
        · exact absurd named same
        · exact ih later (distinct.sublist ((List.sublist_cons_self first pieces).filterMap _))

/-- The order of the pieces does not matter for what is found. -/
theorem piece?_of_perm {other : Relation} (distinct : relation.HasDistinctInputs)
    (permuted : other.pieces.Perm relation.pieces) (name : String) :
    other.piece? name = relation.piece? name := by
  have distinctOther : other.HasDistinctInputs := (permuted.filterMap _).nodup_iff.2 distinct
  apply Option.ext
  intro piece
  rw [piece?_eq_some_iff distinctOther, piece?_eq_some_iff distinct, permuted.mem_iff]

end Polyhedral.Relation

namespace Region

open Component

variable {region : Region}

/-- The names in order of execution are those of the statements, sorted by their vectors. -/
theorem statementOrder_eq_mergeSort (region : Region) :
    region.statementOrder = region.statements.keys.mergeSort fun first second =>
      (orderKeys (region.scheduleVector? first) (region.scheduleVector? second)).isLE := by
  have sorted : (region.statements.keys.mergeSort fun first second =>
        (orderKeys (region.scheduleVector? first) (region.scheduleVector? second)).isLE).map
          (fun name => (name, region.scheduleVector? name)) =
      (region.statements.keys.map fun name => (name, region.scheduleVector? name)).mergeSort
        fun first second => (orderKeys first.2 second.2).isLE :=
    List.map_mergeSort fun _ _ _ _ => rfl
  rw [statementOrder, scheduledStatements, ← sorted, List.map_map]
  exact List.map_id _

/-- No vector of a statement comes earlier than that of a statement before it. -/
theorem pairwise_statementOrder (region : Region) :
    region.statementOrder.Pairwise fun first second =>
      (orderKeys (region.scheduleVector? first) (region.scheduleVector? second)).isLE := by
  rw [statementOrder_eq_mergeSort]
  apply List.pairwise_mergeSort
  · intro first second third
    exact decides_orderKeys.trans Earlier.trans _ _ _
  · intro first second
    exact decides_orderKeys.total _ _

theorem mem_statementOrder {name : String} : name ∈ region.statementOrder ↔ name ∈ region.statements.keys :=
  region.statementOrder_perm_keys.mem_iff

theorem nodup_statementOrder (region : Region) : region.statementOrder.Nodup :=
  region.statementOrder_perm_keys.nodup_iff.2 region.statements.nodup

section Pairs

open List

variable {first second : String}

/-- Of two statements, the one with the earlier vector is executed first. -/
theorem pair_sublist_of_earlier (one : first ∈ region.statements.keys)
    (two : second ∈ region.statements.keys)
    (earlier : Earlier (region.scheduleVector? first) (region.scheduleVector? second)) :
    [first, second] <+ region.statementOrder := by
  have apart : first ≠ second := by
    rintro rfl
    exact decides_orderKeys.not_isLE earlier (decides_orderKeys.isLE_iff.2 (.inr rfl))
  rcases pair_sublist_or_swap (mem_statementOrder.2 one) (mem_statementOrder.2 two) apart with ahead | behind
  · exact ahead
  · have later := pairwise_iff_forall_sublist.1 region.pairwise_statementOrder behind
    exact absurd later (decides_orderKeys.not_isLE earlier)

/-- Statements with equal vectors are executed in the order of their declaration. -/
theorem pair_sublist_iff_of_eq (same : region.scheduleVector? first = region.scheduleVector? second) :
    [first, second] <+ region.statementOrder ↔ [first, second] <+ region.statements.keys := by
  have keeps : ∀ {first second}, region.scheduleVector? first = region.scheduleVector? second →
      [first, second] <+ region.statements.keys → [first, second] <+ region.statementOrder := by
    intro first second same ahead
    rw [statementOrder_eq_mergeSort]
    refine pair_sublist_mergeSort ?_ ?_ (decides_orderKeys.isLE_iff.2 (.inr same)) ahead
    · intro first second third
      exact decides_orderKeys.trans Earlier.trans _ _ _
    · intro first second
      exact decides_orderKeys.total _ _
  constructor
  · intro ahead
    have apart : first ≠ second := by
      rintro rfl
      exact not_pair_sublist_swap region.nodup_statementOrder ahead ahead
    have one : first ∈ region.statements.keys := mem_statementOrder.1 (ahead.subset (by simp))
    have two : second ∈ region.statements.keys := mem_statementOrder.1 (ahead.subset (by simp))
    rcases pair_sublist_or_swap one two apart with before | after
    · exact before
    · exact absurd (keeps same.symm after) (not_pair_sublist_swap region.nodup_statementOrder ahead)
  · exact keeps same

end Pairs

/-- The order of execution does not depend on the order of the pieces of the schedule. -/
theorem statementOrder_of_perm {schedule : Polyhedral.Relation}
    (distinct : region.schedule.HasDistinctInputs)
    (permuted : schedule.pieces.Perm region.schedule.pieces) :
    { region with schedule }.statementOrder = region.statementOrder := by
  have vectors : ∀ name, { region with schedule }.scheduleVector? name = region.scheduleVector? name := by
    intro name
    rw [scheduleVector?, scheduleVector?, Polyhedral.Relation.piece?_of_perm distinct permuted]
  rw [statementOrder_eq_mergeSort, statementOrder_eq_mergeSort]
  simp only [vectors]

open List in
/-- The order of execution holds every statement once. Of two statements the one with the earlier
    vector comes first, and those with equal vectors, or without vectors, keep the order of their
    declaration. The comparison is a total preorder, and no permutation of the pieces of the
    schedule changes the order, as long as no two of them start at tuples of one name. -/
theorem statementOrder_scheduled (region : Region) :
    region.statementOrder.Perm region.statements.keys ∧
    (∀ first ∈ region.statements.keys, ∀ second ∈ region.statements.keys,
      Earlier (region.scheduleVector? first) (region.scheduleVector? second) →
        [first, second] <+ region.statementOrder) ∧
    (∀ first second, region.scheduleVector? first = region.scheduleVector? second →
      ([first, second] <+ region.statementOrder ↔ [first, second] <+ region.statements.keys)) ∧
    ((∀ a b, (orderKeys a b = .lt ↔ Earlier a b) ∧ (orderKeys a b = .eq ↔ a = b)) ∧
      (∀ a b, (orderKeys a b).isLE ∨ (orderKeys b a).isLE) ∧
      ∀ a b c, (orderKeys a b).isLE → (orderKeys b c).isLE → (orderKeys a c).isLE) ∧
    (region.schedule.HasDistinctInputs → ∀ schedule : Polyhedral.Relation,
      schedule.pieces.Perm region.schedule.pieces →
        { region with schedule }.statementOrder = region.statementOrder) := by
  refine ⟨region.statementOrder_perm_keys, ?_, ?_, ⟨?_, ?_, ?_⟩, ?_⟩
  · intro first one second two earlier
    exact pair_sublist_of_earlier one two earlier
  · intro first second same
    exact pair_sublist_iff_of_eq same
  · intro a b
    exact ⟨decides_orderKeys.lt_iff, decides_orderKeys.eq_iff⟩
  · intro a b
    exact Bool.or_eq_true_iff.1 (decides_orderKeys.total a b)
  · exact decides_orderKeys.trans Earlier.trans
  · intro distinct schedule permuted
    exact statementOrder_of_perm distinct permuted

/-- A region whose schedule orders two statements by an integer and leaves a third one out. -/
def staggered : Region where
  name := "staggered"
  arena := .empty
  storage := .empty
  parameters := .empty
  computations := .empty
  statements := ⟨[("Init", default), ("Last", default), ("First", default)], by decide⟩
  schedule :=
    { params := []
      pieces := [⟨⟨some "Last", ["i0"]⟩, some ⟨none, ["i0", " 10"]⟩, none⟩,
        ⟨⟨some "First", ["i0"]⟩, some ⟨none, ["i0", "2"]⟩, none⟩]
      text := "" }
  dependences := default
  context := default
  dropped := []
  accessRanges := []

open List in
theorem staggered_statementOrder_scheduled :
    ["First", "Last"] <+ staggered.statementOrder ∧ ["Last", "Init"] <+ staggered.statementOrder ∧
      staggered.schedule.HasDistinctInputs ∧
      ({ staggered with schedule := ⟨[], staggered.schedule.pieces.reverse, ""⟩ } : Region).statementOrder =
        staggered.statementOrder := by
  obtain ⟨_, earlier, _, _, permuted⟩ := statementOrder_scheduled staggered
  have distinct : staggered.schedule.HasDistinctInputs := by decide
  refine ⟨earlier "First" (by decide) "Last" (by decide) ?_,
    earlier "Last" (by decide) "Init" (by decide) ?_, distinct,
    permuted distinct _ (List.reverse_perm _)⟩
  · have compared :
        orderKeys (staggered.scheduleVector? "First") (staggered.scheduleVector? "Last") = .lt := by
      decide
    exact decides_orderKeys.lt_iff.1 compared
  · have compared :
        orderKeys (staggered.scheduleVector? "Last") (staggered.scheduleVector? "Init") = .lt := by
      decide
    exact decides_orderKeys.lt_iff.1 compared

end Region

end RegionFlow
