/-
Module: RegionFlow.Proofs.Merging
Purpose: The form of a merge as a law. A value that all edges carry is passed on. Otherwise two
  edges are chosen: by the first branch both ways of which lead to the merge or, where there is
  none, by the first branch that leads along the last edge. No other edge is looked at, so a merge
  of more than two edges may lose a value. Branches that lead elsewhere do not matter, and the order
  of the edges matters only where the last edge decides.
Main exports: Branch.Joins, Branch.Touches, Chooses, resolveMerge?_eq_some_iff,
  resolveMerge?_eq_none_iff, MergeForm.Reflects, resolveMerge?_reflects, resolveMerge?_orderless
-/
import Mathlib.Data.List.Nodup
import RegionFlow.Merge

namespace RegionFlow

namespace Incoming

/-- All edges carry the same value. -/
def Agree (edges : List Incoming) : Prop :=
  ∀ one ∈ edges, ∀ two ∈ edges, one.value = two.value

/-- Some edge carries an undefined value. -/
def AnyUndefined (edges : List Incoming) : Prop :=
  ∃ edge ∈ edges, edge.value.isUndefined = true

end Incoming

namespace Branch

/-- A branch leads to a label. -/
def Targets (branch : Branch) (label : String) : Prop :=
  label = branch.ifTrue ∨ label = branch.ifFalse

/-- A branch leads along some edge. -/
def Touches (branch : Branch) (edges : List Incoming) : Prop :=
  ∃ edge ∈ edges, branch.Targets edge.label

/-- A branch leads two ways, both of them along edges. -/
def Joins (branch : Branch) (edges : List Incoming) : Prop :=
  branch.ifTrue ≠ branch.ifFalse ∧
    branch.ifTrue ∈ edges.map Incoming.label ∧ branch.ifFalse ∈ edges.map Incoming.label

instance (branch : Branch) (label : String) : Decidable (branch.Targets label) :=
  inferInstanceAs (Decidable (_ ∨ _))

instance (branch : Branch) (edges : List Incoming) : Decidable (branch.Touches edges) :=
  inferInstanceAs (Decidable (∃ edge ∈ edges, _))

end Branch

variable {edges : List Incoming} {branches : List Branch} {branch : Branch} {form : MergeForm}
  {first last : Incoming}

/-! ### Selection by one branch -/

/-- Where labels are distinct, a label has the value of the edge that bears it. -/
theorem valueAt?_eq_some_iff (distinct : (edges.map Incoming.label).Nodup) {label : String}
    {value : Operand} :
    valueAt? edges label = some value ↔ ∃ edge ∈ edges, edge.label = label ∧ edge.value = value := by
  rw [valueAt?, Option.map_eq_some_iff]
  constructor
  · rintro ⟨edge, found, carried⟩
    exact ⟨edge, List.mem_of_find?_eq_some found, by simpa using List.find?_some found, carried⟩
  · rintro ⟨edge, member, labelled, carried⟩
    cases found : edges.find? fun other => other.label == label with
    | none =>
      have other := List.find?_eq_none.1 found edge member
      simp [labelled] at other
    | some other =>
      have same : other.label = edge.label := by
        rw [labelled]
        simpa using List.find?_some found
      have equal := List.inj_on_of_nodup_map distinct (List.mem_of_find?_eq_some found) member same
      exact ⟨other, rfl, by rw [equal, carried]⟩

theorem valueAt?_eq_none_iff {label : String} :
    valueAt? edges label = none ↔ label ∉ edges.map Incoming.label := by
  simp [valueAt?]

theorem selectByTargets?_eq_some_iff (distinct : (edges.map Incoming.label).Nodup) :
    selectByTargets? edges branch = some form ↔ branch.ifTrue ≠ branch.ifFalse ∧
      ∃ one ∈ edges, ∃ two ∈ edges, one.label = branch.ifTrue ∧ two.label = branch.ifFalse ∧
        form = .select branch.condition one.value two.value := by
  unfold selectByTargets?
  split
  · rename_i same
    simp [same]
  · rename_i differ
    constructor
    · intro selected
      split at selected
      · rename_i ifTrue ifFalse foundTrue foundFalse
        obtain ⟨one, member, labelled, rfl⟩ := (valueAt?_eq_some_iff distinct).1 foundTrue
        obtain ⟨two, listed, marked, rfl⟩ := (valueAt?_eq_some_iff distinct).1 foundFalse
        cases selected
        exact ⟨differ, one, member, two, listed, labelled, marked, rfl⟩
      · cases selected
    · rintro ⟨_, one, member, two, listed, labelled, marked, rfl⟩
      have foundTrue := (valueAt?_eq_some_iff distinct).2 ⟨one, member, labelled, rfl⟩
      have foundFalse := (valueAt?_eq_some_iff distinct).2 ⟨two, listed, marked, rfl⟩
      rw [foundTrue, foundFalse]

theorem selectByTargets?_eq_none_iff :
    selectByTargets? edges branch = none ↔ ¬ branch.Joins edges := by
  unfold selectByTargets?
  split
  · rename_i same
    simp [Branch.Joins, same]
  · rename_i differ
    constructor
    · rintro unselected ⟨_, inTrue, inFalse⟩
      cases foundTrue : valueAt? edges branch.ifTrue with
      | none => exact valueAt?_eq_none_iff.1 foundTrue inTrue
      | some ifTrue =>
        cases foundFalse : valueAt? edges branch.ifFalse with
        | none => exact valueAt?_eq_none_iff.1 foundFalse inFalse
        | some ifFalse =>
          rw [foundTrue, foundFalse] at unselected
          cases unselected
    · intro apart
      cases foundTrue : valueAt? edges branch.ifTrue with
      | none => rfl
      | some ifTrue =>
        cases foundFalse : valueAt? edges branch.ifFalse with
        | none => rfl
        | some ifFalse =>
          refine absurd ⟨differ, ?_, ?_⟩ apart
          · by_contra missing
            cases foundTrue.symm.trans (valueAt?_eq_none_iff.2 missing)
          · by_contra missing
            cases foundFalse.symm.trans (valueAt?_eq_none_iff.2 missing)

theorem selectByLast?_eq_some_iff :
    selectByLast? first last branch = some form ↔
      last.label = branch.ifTrue ∧ form = .select branch.condition last.value first.value ∨
      last.label ≠ branch.ifTrue ∧ last.label = branch.ifFalse ∧
        form = .select branch.condition first.value last.value := by
  unfold selectByLast?
  split
  · simp_all [eq_comm]
  · split <;> simp_all [eq_comm]

theorem selectByLast?_eq_none_iff :
    selectByLast? first last branch = none ↔ ¬ branch.Targets last.label := by
  unfold selectByLast? Branch.Targets
  split
  · simp_all
  · split <;> simp_all

/-! ### The two edges of a selection -/

/-- The first branch that joins chooses the edges it leads along. -/
inductive ChoosesJoined (edges : List Incoming) (branches : List Branch) :
    Operand → Incoming → Incoming → Prop where
  | intro {before after : List Branch} {branch : Branch} {one two : Incoming}
      (listed : branches = before ++ branch :: after)
      (earliest : ∀ earlier ∈ before, ¬ earlier.Joins edges)
      (differ : branch.ifTrue ≠ branch.ifFalse) (memberOne : one ∈ edges) (memberTwo : two ∈ edges)
      (labelOne : one.label = branch.ifTrue) (labelTwo : two.label = branch.ifFalse) :
      ChoosesJoined edges branches branch.condition one two

/-- The first branch that leads along the last edge chooses this edge and the first one. -/
inductive ChoosesLast (branches : List Branch) (first last : Incoming) :
    Operand → Incoming → Incoming → Prop where
  | ifTrue {before after : List Branch} {branch : Branch}
      (listed : branches = before ++ branch :: after)
      (earliest : ∀ earlier ∈ before, ¬ earlier.Targets last.label)
      (label : last.label = branch.ifTrue) : ChoosesLast branches first last branch.condition last first
  | ifFalse {before after : List Branch} {branch : Branch}
      (listed : branches = before ++ branch :: after)
      (earliest : ∀ earlier ∈ before, ¬ earlier.Targets last.label)
      (other : last.label ≠ branch.ifTrue) (label : last.label = branch.ifFalse) :
      ChoosesLast branches first last branch.condition first last

/-- The condition and the edges, the one for a true condition first, of the selection that a merge
    of differing values becomes. The last edge decides only where no branch joins. -/
inductive Chooses (edges : List Incoming) (branches : List Branch) :
    Operand → Incoming → Incoming → Prop where
  | joined {condition : Operand} {one two : Incoming}
      (chosen : ChoosesJoined edges branches condition one two) : Chooses edges branches condition one two
  | last {condition : Operand} {one two first last : Incoming}
      (unjoined : ∀ branch ∈ branches, ¬ branch.Joins edges) (head : edges.head? = some first)
      (tail : edges.getLast? = some last) (chosen : ChoosesLast branches first last condition one two) :
      Chooses edges branches condition one two

section Choices

variable {condition : Operand} {one two : Incoming}

theorem findSome?_selectByTargets? (distinct : (edges.map Incoming.label).Nodup) :
    branches.findSome? (selectByTargets? edges) = some form ↔
      ∃ condition one two, ChoosesJoined edges branches condition one two ∧
        form = .select condition one.value two.value := by
  rw [List.findSome?_eq_some_iff]
  constructor
  · rintro ⟨before, branch, after, listed, selects, none⟩
    obtain ⟨differ, one, memberOne, two, memberTwo, labelOne, labelTwo, rfl⟩ :=
      (selectByTargets?_eq_some_iff distinct).1 selects
    have earliest : ∀ earlier ∈ before, ¬ earlier.Joins edges := fun earlier inFront =>
      selectByTargets?_eq_none_iff.1 (none earlier inFront)
    exact ⟨_, one, two, .intro listed earliest differ memberOne memberTwo labelOne labelTwo, rfl⟩
  · rintro ⟨_, one, two, ⟨listed, earliest, differ, memberOne, memberTwo, labelOne, labelTwo⟩, rfl⟩
    refine ⟨_, _, _, listed, ?_, ?_⟩
    · exact (selectByTargets?_eq_some_iff distinct).2
        ⟨differ, one, memberOne, two, memberTwo, labelOne, labelTwo, rfl⟩
    · exact fun earlier inFront => selectByTargets?_eq_none_iff.2 (earliest earlier inFront)

theorem findSome?_selectByLast? :
    branches.findSome? (selectByLast? first last) = some form ↔
      ∃ condition one two, ChoosesLast branches first last condition one two ∧
        form = .select condition one.value two.value := by
  rw [List.findSome?_eq_some_iff]
  constructor
  · rintro ⟨before, branch, after, listed, selects, none⟩
    have earliest : ∀ earlier ∈ before, ¬ earlier.Targets last.label := fun earlier inFront =>
      selectByLast?_eq_none_iff.1 (none earlier inFront)
    rcases selectByLast?_eq_some_iff.1 selects with ⟨label, rfl⟩ | ⟨other, label, rfl⟩
    · exact ⟨_, _, _, .ifTrue listed earliest label, rfl⟩
    · exact ⟨_, _, _, .ifFalse listed earliest other label, rfl⟩
  · rintro ⟨_, _, _, chosen, rfl⟩
    cases chosen with
    | ifTrue listed earliest label =>
      refine ⟨_, _, _, listed, selectByLast?_eq_some_iff.2 (.inl ⟨label, rfl⟩), ?_⟩
      exact fun earlier inFront => selectByLast?_eq_none_iff.2 (earliest earlier inFront)
    | ifFalse listed earliest other label =>
      refine ⟨_, _, _, listed, selectByLast?_eq_some_iff.2 (.inr ⟨other, label, rfl⟩), ?_⟩
      exact fun earlier inFront => selectByLast?_eq_none_iff.2 (earliest earlier inFront)

/-- What the branches select is a choice of two edges. -/
theorem select_eq_some_iff (distinct : (edges.map Incoming.label).Nodup) (head : edges.head? = some first)
    (tail : edges.getLast? = some last) :
    (branches.findSome? (selectByTargets? edges)).or (branches.findSome? (selectByLast? first last)) =
        some form ↔
      ∃ condition one two, Chooses edges branches condition one two ∧
        form = .select condition one.value two.value := by
  rw [Option.or_eq_some_iff, findSome?_selectByTargets? distinct, findSome?_selectByLast?,
    List.findSome?_eq_none_iff]
  constructor
  · rintro (⟨condition, one, two, chosen, rfl⟩ | ⟨none, condition, one, two, chosen, rfl⟩)
    · exact ⟨condition, one, two, .joined chosen, rfl⟩
    · have unjoined : ∀ branch ∈ branches, ¬ branch.Joins edges := fun branch member =>
        selectByTargets?_eq_none_iff.1 (none branch member)
      exact ⟨condition, one, two, .last unjoined head tail chosen, rfl⟩
  · rintro ⟨condition, one, two, chosen, rfl⟩
    cases chosen with
    | joined chosen => exact .inl ⟨condition, one, two, chosen, rfl⟩
    | last unjoined otherHead otherTail chosen =>
      cases head.symm.trans otherHead
      cases tail.symm.trans otherTail
      refine .inr ⟨fun branch member => ?_, condition, one, two, chosen, rfl⟩
      exact selectByTargets?_eq_none_iff.2 (unjoined branch member)

theorem Chooses.mem (chosen : Chooses edges branches condition one two) : one ∈ edges ∧ two ∈ edges := by
  cases chosen with
  | joined chosen =>
    cases chosen with
    | intro _ _ _ memberOne memberTwo _ _ => exact ⟨memberOne, memberTwo⟩
  | last _ head tail chosen =>
    have memberFirst := List.mem_of_mem_head? head
    have memberLast := List.mem_of_getLast? tail
    cases chosen with
    | ifTrue => exact ⟨memberLast, memberFirst⟩
    | ifFalse => exact ⟨memberFirst, memberLast⟩

/-- A branch that joins decides by labels, so the choice stays when edges change places. -/
theorem Chooses.perm (chosen : Chooses edges branches condition one two)
    (joins : ∃ branch ∈ branches, branch.Joins edges) {permuted : List Incoming}
    (perm : permuted.Perm edges) : Chooses permuted branches condition one two := by
  obtain ⟨joining, member, joins⟩ := joins
  cases chosen with
  | joined chosen =>
    obtain ⟨listed, earliest, differ, memberOne, memberTwo, labelOne, labelTwo⟩ := chosen
    refine .joined (.intro listed ?_ differ (perm.mem_iff.2 memberOne) (perm.mem_iff.2 memberTwo)
      labelOne labelTwo)
    intro earlier inFront
    simpa only [Branch.Joins, (perm.map Incoming.label).mem_iff] using earliest earlier inFront
  | last unjoined _ _ _ => exact absurd joins (unjoined joining member)

end Choices

/-! ### Forms -/

/-- An undefined value leaves a merge without a form. -/
theorem resolveMerge?_of_undefined (undefined : Incoming.AnyUndefined edges) :
    resolveMerge? edges branches = none := by
  obtain ⟨edge, member, isUndefined⟩ := undefined
  have found : (edges.any fun edge => edge.value.isUndefined) = true :=
    List.any_eq_true.2 ⟨edge, member, isUndefined⟩
  unfold resolveMerge?
  split
  · rw [if_pos found]
  · rfl

theorem any_isUndefined (defined : ¬ Incoming.AnyUndefined edges) :
    (edges.any fun edge => edge.value.isUndefined) = false := by
  rw [List.any_eq_false]
  exact fun edge member isUndefined => defined ⟨edge, member, isUndefined⟩

/-- Edges that agree pass the value of the first one on. -/
theorem resolveMerge?_of_agree (defined : ¬ Incoming.AnyUndefined edges) (agree : Incoming.Agree edges)
    (head : edges.head? = some first) (tail : edges.getLast? = some last) :
    resolveMerge? edges branches = some (.forward first.value) := by
  have same : edges.all (fun edge => edge.value == first.value) = true :=
    List.all_eq_true.2 fun edge listed => beq_iff_eq.2 (agree edge listed first (List.mem_of_mem_head? head))
  simp only [resolveMerge?, head, tail, any_isUndefined defined, same, Bool.or_true, if_true,
    Bool.false_eq_true, if_false]

/-- Where edges with distinct labels differ in value, branches decide. -/
theorem resolveMerge?_of_not_agree (distinct : (edges.map Incoming.label).Nodup)
    (defined : ¬ Incoming.AnyUndefined edges) (differ : ¬ Incoming.Agree edges)
    (head : edges.head? = some first) (tail : edges.getLast? = some last) :
    resolveMerge? edges branches = (branches.findSome? (selectByTargets? edges)).or
      (branches.findSome? (selectByLast? first last)) := by
  have member : first ∈ edges := List.mem_of_mem_head? head
  -- an edge with the label of the first one is the first one
  have labels : edges.all (fun edge => edge.label == first.label) = false := by
    rw [Bool.eq_false_iff]
    intro same
    have only : ∀ edge ∈ edges, edge = first := fun edge listed =>
      List.inj_on_of_nodup_map distinct listed member (beq_iff_eq.1 (List.all_eq_true.1 same edge listed))
    exact differ fun one memberOne two memberTwo => by rw [only one memberOne, only two memberTwo]
  have values : edges.all (fun edge => edge.value == first.value) = false := by
    rw [Bool.eq_false_iff]
    intro same
    have equal : ∀ edge ∈ edges, edge.value = first.value := fun edge listed =>
      beq_iff_eq.1 (List.all_eq_true.1 same edge listed)
    exact differ fun one memberOne two memberTwo => (equal one memberOne).trans (equal two memberTwo).symm
  simp only [resolveMerge?, head, tail, any_isUndefined defined, labels, values, Bool.or_self,
    Bool.false_eq_true, if_false]
  cases branches.findSome? (selectByTargets? edges) <;> rfl

/-- The form of a merge whose labels are distinct. -/
theorem resolveMerge?_eq_some_iff (distinct : (edges.map Incoming.label).Nodup) :
    resolveMerge? edges branches = some form ↔ ¬ Incoming.AnyUndefined edges ∧
      ((Incoming.Agree edges ∧ ∃ edge ∈ edges, form = .forward edge.value) ∨
        (¬ Incoming.Agree edges ∧ ∃ condition one two, Chooses edges branches condition one two ∧
          form = .select condition one.value two.value)) := by
  by_cases undefined : Incoming.AnyUndefined edges
  · simp [resolveMerge?_of_undefined undefined, undefined]
  cases head : edges.head? with
  | none => simp [List.head?_eq_none_iff.1 head, resolveMerge?, Incoming.Agree]
  | some first =>
    have member : first ∈ edges := List.mem_of_mem_head? head
    obtain ⟨last, tail⟩ : ∃ last, edges.getLast? = some last :=
      ⟨_, List.getLast?_eq_getLast_of_ne_nil (List.ne_nil_of_mem member)⟩
    by_cases agree : Incoming.Agree edges
    · simp only [resolveMerge?_of_agree undefined agree head tail, Option.some.injEq, undefined, agree,
        not_false_eq_true, not_true_eq_false, true_and, false_and, or_false]
      constructor
      · rintro rfl
        exact ⟨first, member, rfl⟩
      · rintro ⟨edge, listed, rfl⟩
        rw [agree edge listed first member]
    · simp only [resolveMerge?_of_not_agree distinct undefined agree head tail,
        select_eq_some_iff distinct head tail, undefined, agree, not_false_eq_true, true_and, false_and,
        false_or]

/-- When a merge whose labels are distinct has no form. -/
theorem resolveMerge?_eq_none_iff (distinct : (edges.map Incoming.label).Nodup) :
    resolveMerge? edges branches = none ↔ edges = [] ∨ Incoming.AnyUndefined edges ∨
      (¬ Incoming.Agree edges ∧ ∀ branch ∈ branches, ¬ branch.Joins edges ∧
        ∀ last ∈ edges.getLast?, ¬ branch.Targets last.label) := by
  by_cases undefined : Incoming.AnyUndefined edges
  · simp [resolveMerge?_of_undefined undefined, undefined]
  cases head : edges.head? with
  | none => simp [List.head?_eq_none_iff.1 head, resolveMerge?]
  | some first =>
    have filled : edges ≠ [] := List.ne_nil_of_mem (List.mem_of_mem_head? head)
    obtain ⟨last, tail⟩ : ∃ last, edges.getLast? = some last :=
      ⟨_, List.getLast?_eq_getLast_of_ne_nil filled⟩
    by_cases agree : Incoming.Agree edges
    · simp [resolveMerge?_of_agree undefined agree head tail, undefined, agree, filled]
    · simp only [resolveMerge?_of_not_agree distinct undefined agree head tail, Option.or_eq_none_iff,
        List.findSome?_eq_none_iff, selectByTargets?_eq_none_iff, selectByLast?_eq_none_iff, tail,
        Option.mem_some_iff, forall_eq', filled, undefined, agree, not_false_eq_true, true_and, false_or]
      exact forall₂_and.symm

/-! ### What is kept -/

namespace MergeForm

/-- The values that a form passes on or selects between. -/
def values : MergeForm → List Operand
  | forward value => [value]
  | select _ ifTrue ifFalse => [ifTrue, ifFalse]

/-- A form has the value of every edge. -/
def Keeps (form : MergeForm) (edges : List Incoming) : Prop :=
  ∀ edge ∈ edges, edge.value ∈ form.values

/-- What the form of a merge tells of its edges. -/
structure Reflects (form : MergeForm) (edges : List Incoming) (branches : List Branch) : Prop where
  /-- No edge carries an undefined value. -/
  defined : ∀ edge ∈ edges, edge.value.isUndefined = false
  /-- All values of the form are carried by edges. -/
  carried : ∀ value ∈ form.values, ∃ edge ∈ edges, edge.value = value
  /-- The form loses no value exactly if there is one only, or every edge carries one of the two chosen. -/
  keeps_iff : form.Keeps edges ↔ Incoming.Agree edges ∨
    ∃ condition one two, Chooses edges branches condition one two ∧
      ∀ edge ∈ edges, edge.value = one.value ∨ edge.value = two.value
  /-- The form of a merge of two edges loses none. -/
  pair : edges.length ≤ 2 → form.Keeps edges
  /-- The form of a merge of three values loses one. -/
  threefold : ∀ one ∈ edges, ∀ two ∈ edges, ∀ three ∈ edges, one.value ≠ two.value →
    one.value ≠ three.value → two.value ≠ three.value → ¬ form.Keeps edges

end MergeForm

/-- Two edges that differ are the two chosen ones, if there are no others. -/
theorem Chooses.covers {condition : Operand} {one two : Incoming}
    (chosen : Chooses edges branches condition one two) (differ : ¬ Incoming.Agree edges)
    (short : edges.length ≤ 2) : ∀ edge ∈ edges, edge = one ∨ edge = two := by
  match edges with
  | [] => exact absurd (by simp [Incoming.Agree]) differ
  | [left] => exact absurd (by simp [Incoming.Agree]) differ
  | [left, right] =>
    cases chosen with
    | joined chosen =>
      obtain ⟨_, _, ways, memberOne, memberTwo, labelOne, labelTwo⟩ := chosen
      have apart : one ≠ two := by
        rintro rfl
        exact ways (labelOne.symm.trans labelTwo)
      grind
    | last _ head tail chosen =>
      cases head
      cases tail
      cases chosen with
      | ifTrue => simp [or_comm]
      | ifFalse => simp
  | _ :: _ :: _ :: _ => simp at short

/-- A form has at most two values. -/
theorem MergeForm.not_keeps {one two three : Incoming} (memberOne : one ∈ edges) (memberTwo : two ∈ edges)
    (memberThree : three ∈ edges) (differ : one.value ≠ two.value) (differFirst : one.value ≠ three.value)
    (differSecond : two.value ≠ three.value) : ¬ form.Keeps edges := by
  intro keeps
  have inOne := keeps one memberOne
  have inTwo := keeps two memberTwo
  have inThree := keeps three memberThree
  cases form with
  | forward value => grind [MergeForm.values]
  | select condition ifTrue ifFalse => grind [MergeForm.values]

theorem MergeForm.keeps_select {condition ifTrue ifFalse : Operand} :
    (MergeForm.select condition ifTrue ifFalse).Keeps edges ↔
      ∀ edge ∈ edges, edge.value = ifTrue ∨ edge.value = ifFalse := by
  simp [MergeForm.Keeps, MergeForm.values]

theorem defined_of_resolveMerge? (resolved : resolveMerge? edges branches = some form) :
    ¬ Incoming.AnyUndefined edges := by
  intro undefined
  cases resolved.symm.trans (resolveMerge?_of_undefined undefined)

/-- A merge of edges that agree keeps their value. -/
theorem reflects_forward (defined : ¬ Incoming.AnyUndefined edges) (agree : Incoming.Agree edges)
    {edge : Incoming} (member : edge ∈ edges) : (MergeForm.forward edge.value).Reflects edges branches where
  defined other listed := Bool.eq_false_iff.2 fun isUndefined => defined ⟨other, listed, isUndefined⟩
  carried _ inForm := ⟨edge, member, (List.mem_singleton.1 inForm).symm⟩
  keeps_iff := ⟨fun _ => .inl agree, fun _ other listed =>
    List.mem_singleton.2 (agree other listed edge member)⟩
  pair _ other listed := List.mem_singleton.2 (agree other listed edge member)
  threefold one memberOne two memberTwo _ _ apart := absurd (agree one memberOne two memberTwo) apart

/-- A merge of edges that differ keeps the values of the two that are chosen. -/
theorem reflects_select (distinct : (edges.map Incoming.label).Nodup) (differ : ¬ Incoming.Agree edges)
    {condition : Operand} {one two : Incoming} (chosen : Chooses edges branches condition one two)
    (resolved : resolveMerge? edges branches = some (.select condition one.value two.value)) :
    (MergeForm.select condition one.value two.value).Reflects edges branches where
  defined other listed := Bool.eq_false_iff.2 fun isUndefined =>
    defined_of_resolveMerge? resolved ⟨other, listed, isUndefined⟩
  carried value inForm := by
    simp only [MergeForm.values, List.mem_cons, List.not_mem_nil, or_false] at inForm
    rcases inForm with rfl | rfl
    · exact ⟨one, chosen.mem.1, rfl⟩
    · exact ⟨two, chosen.mem.2, rfl⟩
  keeps_iff := by
    constructor
    · exact fun keeps => .inr ⟨condition, one, two, chosen, MergeForm.keeps_select.1 keeps⟩
    · rintro (agree | ⟨_, _, _, others, cover⟩)
      · exact absurd agree differ
      · -- the form determines the values of the two edges, whichever way they are chosen
        have again := (resolveMerge?_eq_some_iff distinct).2
          ⟨defined_of_resolveMerge? resolved, .inr ⟨differ, _, _, _, others, rfl⟩⟩
        rw [Option.some.inj (resolved.symm.trans again)]
        exact MergeForm.keeps_select.2 cover
  pair short := by
    refine MergeForm.keeps_select.2 fun edge member => ?_
    rcases chosen.covers differ short edge member with rfl | rfl
    · exact .inl rfl
    · exact .inr rfl
  threefold _ memberOne _ memberTwo _ memberThree := MergeForm.not_keeps memberOne memberTwo memberThree

/-- A merge whose labels are distinct has no form exactly if it has no edge, or an edge with an
    undefined value, or edges that differ while no branch joins them or leads along the last one.
    The form it has otherwise keeps the values of two edges at most: all values if there are no more
    than two edges, never all of three. -/
theorem resolveMerge?_reflects (edges : List Incoming) (branches : List Branch)
    (distinct : (edges.map Incoming.label).Nodup) :
    (∀ form, resolveMerge? edges branches = some form → form.Reflects edges branches) ∧
      (resolveMerge? edges branches = none ↔ edges = [] ∨ Incoming.AnyUndefined edges ∨
        (¬ Incoming.Agree edges ∧ ∀ branch ∈ branches, ¬ branch.Joins edges ∧
          ∀ last ∈ edges.getLast?, ¬ branch.Targets last.label)) := by
  refine ⟨fun form resolved => ?_, resolveMerge?_eq_none_iff distinct⟩
  obtain ⟨defined, ⟨agree, edge, member, rfl⟩ | ⟨differ, condition, one, two, chosen, rfl⟩⟩ :=
    (resolveMerge?_eq_some_iff distinct).1 resolved
  · exact reflects_forward defined agree member
  · exact reflects_select distinct differ chosen resolved

/-- Three edges with three values. -/
def Incoming.threeWay : List Incoming :=
  [⟨.ref "%a", "%left"⟩, ⟨.ref "%b", "%middle"⟩, ⟨.ref "%c", "%right"⟩]

/-- A branch that leads along the first and the last of three edges. -/
def Branch.outer : Branch := ⟨.ref "%x", "%right", "%left"⟩

theorem threeWay_reflects :
    (MergeForm.select (.ref "%x") (.ref "%c") (.ref "%a")).Reflects Incoming.threeWay [Branch.outer] :=
  (resolveMerge?_reflects Incoming.threeWay [Branch.outer] (by decide)).1 _ (by decide)

/-- The value on the middle one of three edges is lost. -/
theorem threeWay_loses_value :
    (Incoming.threeWay.map Incoming.label).Nodup ∧
      resolveMerge? Incoming.threeWay [Branch.outer] = some (.select (.ref "%x") (.ref "%c") (.ref "%a")) ∧
      ∃ edge ∈ Incoming.threeWay,
        edge.value ∉ (MergeForm.select (.ref "%x") (.ref "%c") (.ref "%a")).values := by
  decide

/-! ### What does not matter -/

/-- A branch that leads along no edge selects nothing. -/
theorem selectByTargets?_of_not_touches (apart : ¬ branch.Touches edges) :
    selectByTargets? edges branch = none := by
  refine selectByTargets?_eq_none_iff.2 fun joins => apart ?_
  obtain ⟨edge, member, labelled⟩ := List.mem_map.1 joins.2.1
  exact ⟨edge, member, .inl labelled⟩

theorem findSome?_filter_touches {select : Branch → Option MergeForm}
    (nothing : ∀ branch, ¬ branch.Touches edges → select branch = none) :
    (branches.filter fun branch => branch.Touches edges).findSome? select = branches.findSome? select := by
  induction branches with
  | nil => rfl
  | cons branch branches ih =>
    by_cases touches : branch.Touches edges
    · rw [List.filter_cons_of_pos (by simpa using touches), List.findSome?_cons, List.findSome?_cons, ih]
    · rw [List.filter_cons_of_neg (by simpa using touches), List.findSome?_cons, nothing branch touches, ih]

/-- Branches that lead elsewhere do not change the form. -/
theorem resolveMerge?_filter_touches (edges : List Incoming) (branches : List Branch) :
    resolveMerge? edges (branches.filter fun branch => branch.Touches edges) =
      resolveMerge? edges branches := by
  unfold resolveMerge?
  split
  · rename_i first last _ tail
    have nothing : ∀ branch : Branch, ¬ branch.Touches edges → selectByLast? first last branch = none := by
      intro branch apart
      refine selectByLast?_eq_none_iff.2 fun targets => apart ?_
      exact ⟨last, List.mem_of_getLast? tail, targets⟩
    rw [findSome?_filter_touches fun _ => selectByTargets?_of_not_touches, findSome?_filter_touches nothing]
  · rfl

theorem Incoming.Agree.perm {permuted : List Incoming} (perm : permuted.Perm edges)
    (agree : Incoming.Agree edges) : Incoming.Agree permuted :=
  fun one memberOne two memberTwo => agree one (perm.mem_iff.1 memberOne) two (perm.mem_iff.1 memberTwo)

theorem Incoming.AnyUndefined.perm {permuted : List Incoming} (perm : permuted.Perm edges)
    (undefined : Incoming.AnyUndefined edges) : Incoming.AnyUndefined permuted := by
  obtain ⟨edge, member, isUndefined⟩ := undefined
  exact ⟨edge, perm.mem_iff.2 member, isUndefined⟩

theorem Branch.Joins.perm {permuted : List Incoming} (perm : permuted.Perm edges)
    (joins : branch.Joins edges) : branch.Joins permuted := by
  simpa only [Branch.Joins, (perm.map Incoming.label).mem_iff] using joins

/-- The value is passed on, or a branch joins. -/
def Incoming.Settled (edges : List Incoming) (branches : List Branch) : Prop :=
  Incoming.Agree edges ∨ ∃ branch ∈ branches, branch.Joins edges

theorem Incoming.Settled.perm {permuted : List Incoming} (perm : permuted.Perm edges)
    (settled : Incoming.Settled edges branches) : Incoming.Settled permuted branches :=
  settled.imp (fun agree => agree.perm perm) fun ⟨branch, listed, joins⟩ => ⟨branch, listed, joins.perm perm⟩

/-- Where the last edge does not decide, a merge has the same form after edges changed places. -/
theorem resolveMerge?_of_perm (distinct : (edges.map Incoming.label).Nodup)
    (settled : Incoming.Settled edges branches) {permuted : List Incoming} (perm : permuted.Perm edges)
    (resolved : resolveMerge? edges branches = some form) :
    resolveMerge? permuted branches = some form := by
  obtain ⟨defined, formed⟩ := (resolveMerge?_eq_some_iff distinct).1 resolved
  refine (resolveMerge?_eq_some_iff ((perm.map Incoming.label).nodup_iff.2 distinct)).2
    ⟨fun undefined => defined (undefined.perm perm.symm), ?_⟩
  rcases formed with ⟨agree, edge, member, passed⟩ | ⟨differ, condition, one, two, chosen, selected⟩
  · exact .inl ⟨agree.perm perm, edge, perm.mem_iff.2 member, passed⟩
  · have stays := chosen.perm (settled.resolve_left differ) perm
    exact .inr ⟨fun agree => differ (agree.perm perm.symm), condition, one, two, stays, selected⟩

theorem resolveMerge?_perm (distinct : (edges.map Incoming.label).Nodup)
    (settled : Incoming.Settled edges branches) {permuted : List Incoming} (perm : permuted.Perm edges) :
    resolveMerge? permuted branches = resolveMerge? edges branches := by
  apply Option.ext
  intro form
  constructor
  · exact resolveMerge?_of_perm ((perm.map Incoming.label).nodup_iff.2 distinct)
      (settled.perm perm) perm.symm
  · exact resolveMerge?_of_perm distinct settled perm

/-- The form of a merge does not depend on branches that lead elsewhere, nor, unless the last edge
    decides, on the order of the edges; a branch that joins, where it is the first such, selects the
    value it leads to if true before the other. -/
theorem resolveMerge?_orderless (edges : List Incoming) (branches : List Branch) :
    (∀ others : List Branch,
      (others.filter fun branch => branch.Touches edges) =
          (branches.filter fun branch => branch.Touches edges) →
        resolveMerge? edges others = resolveMerge? edges branches) ∧
    ((edges.map Incoming.label).Nodup →
      (Incoming.Agree edges ∨ Incoming.AnyUndefined edges ∨ ∃ branch ∈ branches, branch.Joins edges) →
      ∀ permuted : List Incoming, permuted.Perm edges →
        resolveMerge? permuted branches = resolveMerge? edges branches) ∧
    ((edges.map Incoming.label).Nodup → ¬ Incoming.Agree edges → ¬ Incoming.AnyUndefined edges →
      ∀ before branch after, branches = before ++ branch :: after →
        (∀ earlier ∈ before, ¬ earlier.Joins edges) → branch.ifTrue ≠ branch.ifFalse →
        ∀ one ∈ edges, one.label = branch.ifTrue → ∀ two ∈ edges, two.label = branch.ifFalse →
          resolveMerge? edges branches = some (.select branch.condition one.value two.value)) := by
  refine ⟨?_, ?_, ?_⟩
  · intro others same
    rw [← resolveMerge?_filter_touches edges others, same, resolveMerge?_filter_touches]
  · rintro distinct (agree | undefined | joins) permuted perm
    · exact resolveMerge?_perm distinct (.inl agree) perm
    · rw [resolveMerge?_of_undefined undefined, resolveMerge?_of_undefined (undefined.perm perm)]
    · exact resolveMerge?_perm distinct (.inr joins) perm
  · intro distinct differ defined before branch after listed earliest ways one memberOne labelOne
      two memberTwo
      labelTwo
    refine (resolveMerge?_eq_some_iff distinct).2 ⟨defined, .inr ⟨differ, _, one, two, .joined ?_, rfl⟩⟩
    exact .intro listed earliest ways memberOne memberTwo labelOne labelTwo

/-- Two edges with two values. -/
def Incoming.twoWay : List Incoming :=
  [⟨.ref "%a", "%left"⟩, ⟨.ref "%b", "%right"⟩]

theorem twoWay_orderless :
    resolveMerge? Incoming.twoWay [⟨.ref "%y", "%up", "%down"⟩, Branch.outer] =
        resolveMerge? Incoming.twoWay [Branch.outer] ∧
      resolveMerge? Incoming.twoWay.reverse [Branch.outer] = resolveMerge? Incoming.twoWay [Branch.outer] ∧
      resolveMerge? Incoming.twoWay [Branch.outer] = some (.select (.ref "%x") (.ref "%b") (.ref "%a")) := by
  have differ : ¬ Incoming.Agree Incoming.twoWay := by
    simp [Incoming.Agree, Incoming.twoWay]
  have defined : ¬ Incoming.AnyUndefined Incoming.twoWay := by
    simp [Incoming.AnyUndefined, Incoming.twoWay, Operand.isUndefined]
  have joins : Branch.outer.Joins Incoming.twoWay := by
    simp [Branch.Joins, Branch.outer, Incoming.twoWay]
  obtain ⟨elsewhere, order, selection⟩ := resolveMerge?_orderless Incoming.twoWay [Branch.outer]
  refine ⟨elsewhere _ (by decide), order (by decide) ?_ _ (List.reverse_perm _), ?_⟩
  · exact .inr (.inr ⟨Branch.outer, List.mem_singleton_self _, joins⟩)
  · exact selection (by decide) differ defined [] Branch.outer [] rfl (by simp) joins.1
      ⟨.ref "%b", "%right"⟩ (by simp [Incoming.twoWay]) rfl
      ⟨.ref "%a", "%left"⟩ (by simp [Incoming.twoWay]) rfl

end RegionFlow
