/-
Module: RegionFlow.Proofs.Makings
Purpose: What the names of a record are made from. The first definition of a name makes it a merge
  without a form, or a value of some type and kind from operands; the definitions after it do not
  count. The draft of a record has each name as its first definition makes it. The names that a
  record needs are those that its writes store and those that are among the operands of a name that
  it needs.
Main exports: Making, Record.making?, Draft.Makes, Draft.makes_of_making?, Record.Stores,
  Record.Uses, Record.Needs
-/
import RegionFlow.Proofs.Definitions

namespace RegionFlow

/-- A kind without the texts that an instruction was printed as. -/
def ValueKind.untexted : ValueKind → ValueKind
  | computation opcode _ => computation opcode ""
  | selection _ => selection ""
  | forward _ => forward ""
  | inductionVariable _ => inductionVariable ""
  | access direction array _ _ => access direction array "" none
  | kind => kind

/-- What a definition makes of a name. -/
inductive Making where
  /-- A merge without a form. -/
  | formless
  /-- A value of a kind, which has no texts, from operands. -/
  | made (type : ScalarType) (kind : ValueKind) (operands : List (Operand × ScalarType))
deriving DecidableEq

namespace Definition

open Region.Draft (mergeKind mergeOperands typedOperands)

/-- What a definition makes of the name that it defines. -/
def making? (definition : Definition) : Option Making :=
  match definition.instruction with
  | .phi _ spelling incoming =>
    (ScalarType.ofSpelling? spelling).map fun type =>
      match resolveMerge? incoming definition.branches with
      | none => .formless
      | some form => .made type (mergeKind "" form) (mergeOperands type form)
  | .compute _ spelling opcode operands =>
    (ScalarType.ofSpelling? spelling).map fun type =>
      .made type (.computation opcode "") (typedOperands type operands)
  | _ => none

variable {definition : Definition} {name : String}

/-- What defines a name makes something of it. -/
theorem exists_making (settles : definition.settles name = true) :
    ∃ making, definition.making? = some making := by
  obtain ⟨instruction, branches⟩ := definition
  have defines : instruction.settles? = some name := by simpa [Definition.settles] using settles
  cases instruction with
  | phi _ spelling incoming | compute _ spelling _ _ =>
    obtain ⟨type, typed, _⟩ := Option.map_eq_some_iff.1 defines
    exact Option.isSome_iff_exists.1 (by simp [making?, typed])
  | _ => cases defines

/-- The definitions that make a name a merge without a form are the merges without a form. -/
theorem isFormless_iff (settles : definition.settles name = true) :
    definition.IsFormless ↔ definition.making? = some .formless := by
  obtain ⟨instruction, branches⟩ := definition
  have defines : instruction.settles? = some name := by simpa [Definition.settles] using settles
  cases instruction with
  | phi reference spelling incoming =>
    obtain ⟨type, typed, _⟩ := Option.map_eq_some_iff.1 defines
    cases form : resolveMerge? incoming branches <;> simp [IsFormless, making?, typed, form]
  | compute reference spelling opcode operands =>
    obtain ⟨type, typed, _⟩ := Option.map_eq_some_iff.1 defines
    simp [IsFormless, making?, typed]
  | _ => cases defines

end Definition

namespace Record

/-- What the first definition of a name makes of it, unless the name counts a loop. -/
def making? (record : Record) (name : String) : Option Making :=
  if name ∈ Region.inductionReferences record then none
  else (record.definitions.find? (Definition.settles name)).bind Definition.making?

variable {record : Record} {name : String}

theorem making?_eq_some_iff {making : Making} :
    record.making? name = some making ↔ name ∉ Region.inductionReferences record ∧
      ∃ definition, record.definitions.find? (Definition.settles name) = some definition ∧
        definition.making? = some making := by
  rw [making?]
  split
  · rename_i counts
    simp [counts]
  · rename_i free
    rw [Option.bind_eq_some_iff]
    exact (and_iff_right free).symm

theorem rejects_iff : record.Rejects name ↔ record.making? name = some .formless := by
  rw [making?_eq_some_iff, Rejects]
  apply and_congr_right
  intro _
  apply exists_congr
  intro definition
  apply and_congr_right
  intro found
  exact Definition.isFormless_iff (List.find?_some found)

theorem defines_iff :
    record.Defines name ↔ ∃ type kind operands, record.making? name = some (.made type kind operands) := by
  constructor
  · rintro ⟨free, definition, found, form⟩
    have settles := List.find?_some found
    obtain ⟨making, makes⟩ := Definition.exists_making settles
    cases making with
    | formless => exact absurd ((Definition.isFormless_iff settles).2 makes) form
    | made type kind operands =>
      exact ⟨type, kind, operands, making?_eq_some_iff.2 ⟨free, definition, found, makes⟩⟩
  · rintro ⟨type, kind, operands, makes⟩
    obtain ⟨free, definition, found, made⟩ := making?_eq_some_iff.1 makes
    refine ⟨free, definition, found, fun formless => ?_⟩
    rw [Definition.isFormless_iff (List.find?_some found), made] at formless
    cases formless

end Record

namespace Region.Draft

variable {draft first second : Draft} {definitions : List Definition} {name : String} {making : Making}

/-- A draft has a name as it is made. -/
def Makes (draft : Draft) (name : String) : Making → Prop
  | .formless => name ∈ draft.formless
  | .made type kind operands => ∃ texted : ValueKind, texted.untexted = kind ∧
      Holds draft.arena draft.computations name type texted operands

theorem untexted_mergeKind (text : String) (form : MergeForm) :
    (mergeKind text form).untexted = mergeKind "" form := by
  cases form <;> rfl

/-- A computation is made where it is entered under a name that was not dealt with. -/
theorem makes_addComputation {type : ScalarType} {kind : ValueKind}
    {operands : List (Operand × ScalarType)} (free : draft.isSettled name = false)
    (definition : kind.isDefinition = true) (takes : kind.Takes operands.length) :
    (draft.addComputation name type kind operands).Makes name
      (.made type kind.untexted operands) :=
  ⟨kind, rfl, (addComputation_ok (fun _ => True) trivial free definition takes).2⟩

/-- A name that was not dealt with is made by its definition. -/
theorem makes_define {instruction : Instruction} {branches : List Branch} (text : String)
    (first : draft.FirstIs (·.making? = some making) [⟨instruction, branches⟩] name) :
    (draft.define instruction text branches).Makes name making := by
  obtain ⟨free, settles, makes⟩ := firstIs_singleton.1 first
  have unsettled : ¬ draft.isSettled name = true := by simp [free]
  cases instruction with
  | phi reference spelling incoming =>
    obtain ⟨type, typed, rfl⟩ := Option.map_eq_some_iff.1 settles
    simp only [Definition.making?, typed, Option.map_some, Option.some.injEq] at makes
    simp only [define, if_neg unsettled, typed]
    cases resolved : resolveMerge? incoming branches with
    | none =>
      rw [resolved] at makes
      subst makes
      exact List.mem_append_right _ List.mem_cons_self
    | some form =>
      rw [resolved] at makes
      dsimp only at makes ⊢
      subst makes
      rw [← untexted_mergeKind (Text.trimmed text) form]
      apply makes_addComputation free
      · cases form <;> rfl
      · cases form <;> simp [mergeKind, mergeOperands, ValueKind.Takes]
  | compute reference spelling opcode operands =>
    obtain ⟨type, typed, rfl⟩ := Option.map_eq_some_iff.1 settles
    simp only [Definition.making?, typed, Option.map_some, Option.some.injEq] at makes
    simp only [define, if_neg unsettled, typed]
    subst makes
    exact makes_addComputation free rfl trivial
  | _ => cases settles

/-- What a name is made from stays in growing drafts. -/
theorem Makes.grow (makes : first.Makes name making) (grows : first.arena.Grows second.arena)
    (kept : ∀ {reference id}, first.computations.get? reference = some id →
      second.computations.get? reference = some id)
    (formless : ∀ {name}, name ∈ first.formless → name ∈ second.formless) :
    second.Makes name making := by
  cases making with
  | formless => exact formless makes
  | made type kind operands =>
    obtain ⟨texted, same, id, args, known, found, stands⟩ := makes
    exact ⟨texted, same, id, args, kept known, grows found, stands.imp fun _ _ operand => operand.grow grows⟩

/-- A definition keeps what other names are made from. -/
theorem Makes.define (makes : draft.Makes name making) (instruction : Instruction) (text : String)
    (branches : List Branch) : (draft.define instruction text branches).Makes name making := by
  have extended := extends_define draft instruction text branches
  have entered := enters_define draft instruction text branches
  exact makes.grow extended.grows extended.kept fun marked => (entered.formless _).2 (.inl marked)

/-- Names that were not dealt with are made by their first definitions. -/
theorem Traces.makes (traced : Traces definitions first second)
    (firstIs : first.FirstIs (·.making? = some making) definitions name) :
    second.Makes name making := by
  induction traced with
  | refl =>
    obtain ⟨_, _, found, _⟩ := firstIs
    cases found
  | define traced instruction text branches ih =>
    rcases traced.enters.firstIs_append.1 firstIs with earlier | last
    · exact (ih earlier).define instruction text branches
    · exact makes_define text last
  | keep _ grows computations _ formless ih =>
    refine (ih firstIs).grow grows ?_ ?_
    · exact fun found => computations ▸ found
    · exact fun marked => formless ▸ marked

section

variable {record : Record} (drafted : draftOfRecord record = .ok draft)

include drafted

/-- The draft of a record has every name as its first definition makes it. -/
theorem makes_of_making? (makes : record.making? name = some making) : draft.Makes name making := by
  obtain ⟨before, traced, blank, induction⟩ := traces_draftOfRecord drafted
  obtain ⟨free, definition, found, made⟩ := Record.making?_eq_some_iff.1 makes
  refine traced.makes ⟨?_, definition, found, made⟩
  rw [blank.isSettled_eq_false_iff, induction]
  exact free

/-- The draft of a record has no computation for a name that is not made from operands. -/
theorem get?_computations_eq_none
    (unmade : ∀ type kind operands, record.making? name ≠ some (.made type kind operands)) :
    draft.computations.get? name = none := by
  rw [← Table.contains_eq_false_iff, Bool.eq_false_iff]
  intro known
  obtain ⟨type, kind, operands, makes⟩ :=
    Record.defines_iff.1 ((contains_computations_iff drafted).1 known)
  exact unmade type kind operands makes

end

/-- The operand that a write stores, from its printed form. -/
def storedOperand? (printed : String) : Option Operand :=
  let source := Text.trimmed printed
  if source.isEmpty then none
  else
    match Instruction.read source with
    | .ok (.store _ value _) => some value
    | .ok instruction => instruction.result?.map .ref
    | .error _ =>
      if source.toList.contains '=' then none else (printedOperand? source).map Prod.snd

end Region.Draft

namespace Record

open Region.Draft (storedOperand? storedText)

/-- A write of the record stores a name. -/
def Stores (record : Record) (name : String) : Prop :=
  ∃ statement ∈ record.statements, ∃ access ∈ statement.accesses,
    access.direction = .write ∧ storedOperand? (storedText access) = some (.ref name)

/-- A name is made from another. -/
def Uses (record : Record) (name other : String) : Prop :=
  ∃ type kind operands, record.making? name = some (.made type kind operands) ∧
    ∃ operand ∈ operands, operand.1 = .ref other

/-- What a write stores leads to a name. -/
def Needs (record : Record) (name : String) : Prop :=
  ∃ root, record.Stores root ∧ Relation.ReflTransGen record.Uses root name

theorem Stores.needs {record : Record} {name : String} (stores : record.Stores name) :
    record.Needs name :=
  ⟨name, stores, .refl⟩

theorem Needs.tail {record : Record} {name other : String} (needs : record.Needs name)
    (uses : record.Uses name other) : record.Needs other := by
  obtain ⟨root, stores, leads⟩ := needs
  exact ⟨root, stores, leads.tail uses⟩

end Record

end RegionFlow
