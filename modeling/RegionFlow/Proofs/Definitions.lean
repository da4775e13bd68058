/-
Module: RegionFlow.Proofs.Definitions
Purpose: Which merges of a record have no form. The definitions of a record are, in order, the lines
  of its listing, and for each statement the lines of its own listing and the values that its writes
  store, each with the branches before it. Only the first definition of a name counts. The names
  that building marks as merges without a form are those whose first definition is such a merge, and
  the names that it enters computations under are those whose first definition is anything else; a
  name that counts a loop is never defined.
Main exports: Definition, Record.definitions, Record.Rejects, Record.Defines, Draft.Enters,
  Draft.Traces, Draft.mem_formless_iff, Draft.contains_computations_iff
-/
import RegionFlow.Proofs.Building

namespace RegionFlow

open Sequencing

/-- The reference that an instruction defines by a computation or a merge of known type. -/
def Instruction.settles? : Instruction → Option String
  | phi reference spelling _ | compute reference spelling _ _ =>
    (ScalarType.ofSpelling? spelling).map fun _ => reference
  | _ => none

/-- The branch that an instruction is. -/
def Instruction.branch? : Instruction → Option Branch
  | branchIf condition ifTrue ifFalse => some ⟨condition, ifTrue, ifFalse⟩
  | _ => none

/-- An instruction with the branches before it. -/
structure Definition where
  instruction : Instruction
  branches : List Branch

namespace Definition

/-- Whether a name is defined. -/
def settles (name : String) (definition : Definition) : Bool :=
  definition.instruction.settles? == some name

/-- The definition is a merge that the branches give no form. -/
def IsFormless (definition : Definition) : Prop :=
  ∃ reference spelling incoming, definition.instruction = .phi reference spelling incoming ∧
    resolveMerge? incoming definition.branches = none

/-- The definitions of the lines of a listing, where some branches come before it. -/
def ofLines (branches : List Branch) : List (String × Instruction) → List Definition
  | [] => []
  | (_, .branchIf condition ifTrue ifFalse) :: lines =>
    ofLines (branches ++ [⟨condition, ifTrue, ifFalse⟩]) lines
  | (_, instruction) :: lines => ⟨instruction, branches⟩ :: ofLines branches lines

/-- The first line is a branch for the others, or it is the first definition. -/
theorem ofLines_cons (branches : List Branch) (line : String × Instruction)
    (lines : List (String × Instruction)) :
    ofLines branches (line :: lines) = match line.2.branch? with
      | some branch => ofLines (branches ++ [branch]) lines
      | none => ⟨line.2, branches⟩ :: ofLines branches lines := by
  obtain ⟨text, instruction⟩ := line
  cases instruction <;> rfl

/-- The definitions of a listing. -/
def ofListing (listing : String) : List Definition :=
  match Instruction.readListing listing with
  | .ok lines => ofLines [] lines
  | .error _ => []

/-- The branches of a listing. -/
def branchesOf (listing : String) : List Branch :=
  match Instruction.readListing listing with
  | .ok lines => lines.filterMap fun line => line.2.branch?
  | .error _ => []

/-- The definition of a stored value, if its printed form is an instruction. -/
def ofStored (branches : List Branch) (printed : String) : List Definition :=
  if (Text.trimmed printed).isEmpty then []
  else
    match Instruction.read (Text.trimmed printed) with
    | .ok instruction => [⟨instruction, branches⟩]
    | .error _ => []

/-- The definitions of an access: that of the value it stores. -/
def ofAccess (branches : List Branch) (access : Record.Access) : List Definition :=
  match access.direction with
  | .read => []
  | .write => ofStored branches (Region.Draft.storedText access)

/-- The definitions of a statement: those of its listing, if it has one, then those of its accesses. -/
def ofStatement (branches : List Branch) (statement : Record.Statement) : List Definition :=
  match statement.instructions with
  | some listing => ofListing listing ++ statement.accesses.flatMap (ofAccess (branchesOf listing))
  | none => statement.accesses.flatMap (ofAccess branches)

end Definition

namespace Record

/-- The definitions of a record, in order. -/
def definitions (record : Record) : List Definition :=
  Definition.ofListing record.instructions ++
    record.statements.flatMap
      (Definition.ofStatement (Definition.branchesOf record.instructions))

/-- A name is that of a merge without a form: it counts no loop, and its first definition is such a merge. -/
def Rejects (record : Record) (name : String) : Prop :=
  name ∉ Region.inductionReferences record ∧
    ∃ definition, record.definitions.find? (Definition.settles name) = some definition ∧
      definition.IsFormless

/-- A name is that of a computation or of a merge with a form: it counts no loop, and its first definition is
    not a merge without a form. -/
def Defines (record : Record) (name : String) : Prop :=
  name ∉ Region.inductionReferences record ∧
    ∃ definition, record.definitions.find? (Definition.settles name) = some definition ∧
      ¬ definition.IsFormless

/-- The first definition of a name cannot both have a form and have none. -/
theorem Defines.not_rejects {record : Record} {name : String} (defines : record.Defines name) :
    ¬ record.Rejects name := by
  rintro ⟨_, other, first, formless⟩
  obtain ⟨_, definition, found, form⟩ := defines
  cases found.symm.trans first
  exact form formless

end Record

namespace Region.Draft

variable {draft first second third : Draft} {definitions more : List Definition}

/-- A name was not dealt with before some definitions, and the first of them to define it has a property. -/
def FirstIs (Property : Definition → Prop) (draft : Draft) (definitions : List Definition)
    (name : String) : Prop :=
  draft.isSettled name = false ∧
    ∃ definition, definitions.find? (Definition.settles name) = some definition ∧ Property definition

/-- One definition is the first of a name if it defines the name, which was not dealt with before. -/
theorem firstIs_singleton {Property : Definition → Prop} {definition : Definition} {name : String} :
    draft.FirstIs Property [definition] name ↔
      draft.isSettled name = false ∧ definition.instruction.settles? = some name ∧
        Property definition := by
  simp [FirstIs, Definition.settles, and_assoc]

/-- What definitions do to a draft: a name is dealt with after its first definition. If it was not dealt with
    before, it is marked where this definition is a merge without a form, and has a computation where it is
    anything else. -/
structure Enters (definitions : List Definition) (first second : Draft) : Prop where
  settled : ∀ name,
    second.isSettled name = (first.isSettled name || definitions.any (Definition.settles name))
  formless : ∀ name, name ∈ second.formless ↔
    name ∈ first.formless ∨ first.FirstIs Definition.IsFormless definitions name
  computed : ∀ name, second.computations.contains name = true ↔
    first.computations.contains name = true ∨ first.FirstIs (¬ ·.IsFormless) definitions name

/-- Nothing is defined where neither computations nor marks change. -/
theorem enters_of_same (computations : second.computations = first.computations)
    (induction : second.induction = first.induction)
    (formless : second.formless = first.formless) : Enters [] first second where
  settled := by simp [isSettled, computations, induction, formless]
  formless := by simp [formless, FirstIs]
  computed := by simp [computations, FirstIs]

/-- The first of all definitions of a name is the first among those that come first, if there is one
    there. -/
theorem Enters.firstIs_append (one : Enters definitions first second) {Property : Definition → Prop}
    {name : String} :
    first.FirstIs Property (definitions ++ more) name ↔
      first.FirstIs Property definitions name ∨ second.FirstIs Property more name := by
  rw [FirstIs, FirstIs, FirstIs, one.settled, List.find?_append]
  cases found : definitions.find? (Definition.settles name) with
  | none =>
    have unsettled : definitions.any (Definition.settles name) = false := by
      simpa using found
    simp [unsettled]
  | some definition =>
    have settles : definitions.any (Definition.settles name) = true :=
      List.any_eq_true.2 ⟨definition, List.mem_of_find?_eq_some found, List.find?_some found⟩
    simp [settles]

/-- Definitions take effect one after the other. -/
theorem Enters.trans (one : Enters definitions first second) (two : Enters more second third) :
    Enters (definitions ++ more) first third where
  settled := by
    intro name
    rw [two.settled, one.settled, List.any_append, Bool.or_assoc]
  formless := by
    intro name
    rw [two.formless, one.formless, one.firstIs_append, or_assoc]
  computed := by
    intro name
    rw [two.computed, one.computed, one.firstIs_append, or_assoc]

/-- What changes neither computations nor marks does not count. -/
theorem Enters.keep (one : Enters definitions first second)
    (computations : third.computations = second.computations)
    (induction : third.induction = second.induction)
    (formless : third.formless = second.formless) : Enters definitions first third := by
  simpa using one.trans (enters_of_same computations induction formless)

/-- A computation is entered under its reference, which is all that is new. -/
theorem addComputation_eq (draft : Draft) (reference : String) (type : ScalarType) (kind : ValueKind)
    (operands : List (Operand × ScalarType)) :
    ∃ arena id, draft.addComputation reference type kind operands =
      { draft with arena, computations := draft.computations.insert reference id } := by
  rw [addComputation]
  generalize entered : draft.addOperands operands = result
  have same := addOperands_eq draft operands
  rw [entered] at same
  obtain ⟨middle, args⟩ := result
  dsimp only at same
  rw [same]
  exact ⟨_, _, rfl⟩

/-- A computation deals with its reference and marks nothing. -/
theorem enters_addComputation {instruction : Instruction} {branches : List Branch} {reference : String}
    (settles : instruction.settles? = some reference)
    (form : ¬ Definition.IsFormless ⟨instruction, branches⟩)
    (free : draft.isSettled reference = false) (type : ScalarType) (kind : ValueKind)
    (operands : List (Operand × ScalarType)) :
    Enters [⟨instruction, branches⟩] draft (draft.addComputation reference type kind operands) := by
  obtain ⟨arena, id, same⟩ := addComputation_eq draft reference type kind operands
  rw [same]
  constructor
  · intro name
    by_cases hit : reference = name
    · simp [isSettled, Table.contains, Definition.settles, settles, hit]
    · simp [isSettled, Table.contains, Definition.settles, settles, hit]
  · intro name
    simp [firstIs_singleton, form]
  · intro name
    by_cases hit : reference = name
    · subst hit
      simp [Table.contains, firstIs_singleton, settles, free, form]
    · simp [Table.contains, firstIs_singleton, settles, hit]

/-- A definition of something that was dealt with, or of nothing, changes nothing. -/
theorem enters_refl {instruction : Instruction} {branches : List Branch}
    (settled : ∀ name, instruction.settles? = some name → draft.isSettled name = true) :
    Enters [⟨instruction, branches⟩] draft draft := by
  have none : ∀ Property name, ¬ draft.FirstIs Property [⟨instruction, branches⟩] name := by
    intro Property name first
    obtain ⟨unsettled, settles, _⟩ := firstIs_singleton.1 first
    rw [settled name settles] at unsettled
    cases unsettled
  constructor
  · intro name
    by_cases settles : instruction.settles? = some name
    · simp [settled name settles]
    · simp [Definition.settles, settles]
  · simp [none]
  · simp [none]

/-- A merge without a form deals with its reference by marking it. -/
theorem enters_mark {instruction : Instruction} {branches : List Branch} {reference : String}
    (settles : instruction.settles? = some reference)
    (formless : Definition.IsFormless ⟨instruction, branches⟩)
    (free : draft.isSettled reference = false) :
    Enters [⟨instruction, branches⟩] draft
      { draft with formless := draft.formless ++ [reference] } := by
  constructor
  · intro name
    by_cases hit : reference = name
    · simp [isSettled, Definition.settles, settles, hit]
    · simp [isSettled, Definition.settles, settles, hit, Ne.symm hit]
  · intro name
    by_cases hit : reference = name
    · subst hit
      simp [firstIs_singleton, settles, formless, free]
    · simp [firstIs_singleton, settles, hit, Ne.symm hit]
  · intro name
    simp [firstIs_singleton, formless]

/-- An instruction is a definition. -/
theorem enters_define (draft : Draft) (instruction : Instruction) (text : String)
    (branches : List Branch) :
    Enters [⟨instruction, branches⟩] draft (draft.define instruction text branches) := by
  cases instruction with
  | phi reference spelling incoming =>
    rw [define]
    split
    · rename_i taken
      apply enters_refl
      simp [Instruction.settles?, taken]
    · rename_i free
      split
      · rename_i untyped
        apply enters_refl
        simp [Instruction.settles?, untyped]
      · rename_i type typed
        have settles : (Instruction.phi reference spelling incoming).settles? = some reference := by
          simp [Instruction.settles?, typed]
        split
        · rename_i formless
          exact enters_mark settles ⟨_, _, _, rfl, formless⟩ (Bool.eq_false_iff.2 free)
        · rename_i form resolved
          refine enters_addComputation settles ?_ (Bool.eq_false_iff.2 free) _ _ _
          rintro ⟨_, _, _, same, formless⟩
          cases same
          rw [resolved] at formless
          cases formless
  | compute reference spelling opcode operands =>
    rw [define]
    split
    · rename_i taken
      apply enters_refl
      simp [Instruction.settles?, taken]
    · rename_i free
      split
      · rename_i untyped
        apply enters_refl
        simp [Instruction.settles?, untyped]
      · rename_i type typed
        refine enters_addComputation ?_ ?_ (Bool.eq_false_iff.2 free) _ _ _
        · simp [Instruction.settles?, typed]
        · rintro ⟨_, _, _, same, _⟩
          cases same
  | _ => exact enters_refl (by simp [Instruction.settles?])

/-- The second draft is made from the first by entering definitions in order, and besides by adding
    values and statements. -/
inductive Traces : List Definition → Draft → Draft → Prop where
  | refl (draft : Draft) : Traces [] draft draft
  | define {definitions : List Definition} {first second : Draft}
      (traced : Traces definitions first second) (instruction : Instruction) (text : String)
      (branches : List Branch) :
      Traces (definitions ++ [⟨instruction, branches⟩]) first (second.define instruction text branches)
  | keep {definitions : List Definition} {first second third : Draft}
      (traced : Traces definitions first second) (grows : second.arena.Grows third.arena)
      (computations : third.computations = second.computations)
      (induction : third.induction = second.induction)
      (formless : third.formless = second.formless) : Traces definitions first third

theorem Traces.trans (one : Traces definitions first second) (two : Traces more second third) :
    Traces (definitions ++ more) first third := by
  induction two with
  | refl => simpa using one
  | define _ instruction text branches ih =>
    rw [← List.append_assoc]
    exact (ih one).define instruction text branches
  | keep _ grows computations induction formless ih =>
    exact (ih one).keep grows computations induction formless

theorem traces_define (draft : Draft) (instruction : Instruction) (text : String)
    (branches : List Branch) :
    Traces [⟨instruction, branches⟩] draft (draft.define instruction text branches) :=
  (Traces.refl draft).define instruction text branches

/-- Definitions that are entered take effect. -/
theorem Traces.enters (traced : Traces definitions first second) : Enters definitions first second := by
  induction traced with
  | refl => exact enters_of_same rfl rfl rfl
  | define _ instruction text branches ih => exact ih.trans (enters_define _ instruction text branches)
  | keep _ _ computations induction formless ih => exact ih.keep computations induction formless

/-- A line is a branch, which is collected, or it is entered. -/
theorem scanLine_eq (state : Draft × List Branch) (line : String × Instruction) :
    scanLine state line = match line.2.branch? with
      | some branch => (state.1, state.2 ++ [branch])
      | none => (state.1.define line.2 line.1 state.2, state.2) := by
  obtain ⟨text, instruction⟩ := line
  cases instruction <;> rfl

/-- The lines of a listing are definitions. -/
theorem traces_scanLines (lines : List (String × Instruction)) (state : Draft × List Branch) :
    Traces (Definition.ofLines state.2 lines) state.1 (lines.foldl scanLine state).1 := by
  induction lines generalizing state with
  | nil => exact .refl state.1
  | cons line lines ih =>
    rw [List.foldl_cons, Definition.ofLines_cons, scanLine_eq]
    cases line.2.branch? with
    | some branch => exact ih (state.1, state.2 ++ [branch])
    | none =>
      have one := traces_define state.1 line.2 line.1 state.2
      exact one.trans (ih (state.1.define line.2 line.1 state.2, state.2))

/-- A listing collects its branches in order. -/
theorem branches_scanLines (lines : List (String × Instruction)) (state : Draft × List Branch) :
    (lines.foldl scanLine state).2 = state.2 ++ lines.filterMap fun line => line.2.branch? := by
  induction lines generalizing state with
  | nil => exact (List.append_nil _).symm
  | cons line lines ih =>
    rw [List.foldl_cons, ih, scanLine_eq, List.filterMap_cons]
    cases line.2.branch? with
    | some branch => exact (List.append_cons _ _ _).symm
    | none => rfl

/-- A listing is entered as its definitions, and gives its branches. -/
theorem traces_scan {listing : String} {branches : List Branch}
    (ran : first.scan listing = .ok (second, branches)) :
    Traces (Definition.ofListing listing) first second ∧ branches = Definition.branchesOf listing := by
  obtain ⟨lines, read, folded⟩ := scan_ok ran
  obtain ⟨rfl, rfl⟩ := Prod.ext_iff.1 folded
  rw [Definition.ofListing, Definition.branchesOf, read]
  exact ⟨traces_scanLines lines (first, []), branches_scanLines lines (first, [])⟩

/-- An operand defines nothing. -/
theorem Traces.addOperand (traced : Traces definitions first second) (operand : Operand)
    (type : ScalarType) : Traces definitions first (second.addOperand operand type).1 :=
  traced.keep (addOperand_ok (fun _ => True) second operand type).1.grows rfl rfl rfl

/-- A value that is added defines nothing. -/
theorem Traces.add (traced : Traces definitions first second) (value : Value) :
    Traces definitions first (second.add value).1 :=
  traced.keep (second.arena.adds_push value).grows rfl rfl rfl

/-- A stored value is entered as its definition. -/
theorem traces_stored {printed : String} {fallback : ScalarType} {branches : List Branch}
    {value : Option ValueId} (ran : first.stored printed fallback branches = .ok (second, value)) :
    Traces (Definition.ofStored branches printed) first second := by
  simp only [stored] at ran
  unfold Definition.ofStored
  split at ran
  · rename_i blank
    cases ran
    rw [if_pos blank]
    exact .refl first
  · rename_i present
    rw [if_neg present]
    split at ran
    · rename_i spelling operand address read
      cases ran
      rw [read]
      -- a store defines nothing, so the draft is the one before it
      exact (traces_define first (.store spelling operand address) "" branches).addOperand _ _
    · rename_i instruction _ read
      have defines := traces_define first instruction (Text.trimmed printed) branches
      rw [read]
      split at ran
      · cases ran
        exact defines
      · cases ran
        exact defines.addOperand _ _
    · rename_i fault read
      rw [read]
      split at ran
      · cases ran
      · cases ran
        exact (Traces.refl first).addOperand _ _

/-- A read defines nothing. -/
theorem traces_addRead {array instruction key : String} {position : Nat} {element : ScalarType}
    {relation : Polyhedral.Relation} {access : Access}
    (entered : first.addRead array position element instruction relation = (second, key, access)) :
    Traces [] first second := by
  cases entered
  exact (Traces.refl first).add _

/-- A write defines what the value that it stores defines. -/
theorem traces_addWrite {statement array instruction incoming key : String} {element : ScalarType}
    {relation : Polyhedral.Relation} {branches : List Branch} {access : Access}
    (ran : first.addWrite statement array element instruction incoming relation branches
      = .ok (second, key, access)) :
    Traces (Definition.ofStored branches (if incoming.isEmpty then instruction else incoming))
      first second := by
  obtain ⟨⟨middle, stored⟩, storing, last⟩ := bind_eq_ok.1 ran
  cases last
  exact (traces_stored storing).add _

/-- An access is entered as its definitions. -/
theorem traces_addAccess {statement key : String} {position : Nat} {record : Record.Access}
    {branches : List Branch} {access : Access}
    (ran : first.addAccess statement position record branches = .ok (second, key, access)) :
    Traces (Definition.ofAccess branches record) first second := by
  obtain ⟨relation, _, entered⟩ := bind_eq_ok.1 ran
  split at entered
  · cases entered
  · cases direction : record.direction with
    | read =>
      rw [direction] at entered
      rw [Definition.ofAccess, direction]
      exact traces_addRead (Except.ok.inj entered)
    | write =>
      rw [direction] at entered
      rw [Definition.ofAccess, direction]
      exact traces_addWrite entered

/-- Accesses are entered as their definitions, in order. -/
theorem traces_addAccesses {statement : String} {branches : List Branch} {position : Nat}
    {table accesses : Table Access} {records : List Record.Access}
    (ran : first.addAccesses statement branches position table records = .ok (second, accesses)) :
    Traces (records.flatMap (Definition.ofAccess branches)) first second := by
  induction records generalizing first position table with
  | nil =>
    cases ran
    exact .refl _
  | cons record records ih =>
    obtain ⟨⟨middle, key, access⟩, entered, rest⟩ := bind_eq_ok.1 ran
    exact (traces_addAccess entered).trans (ih rest)

/-- Loops define nothing. -/
theorem Traces.addLoops (loops : List String) (table : Table ValueId)
    (traced : Traces definitions first second) :
    Traces definitions first (loops.foldl addLoop (second, table)).1 := by
  induction loops generalizing second table with
  | nil => exact traced
  | cons printed loops ih =>
    rw [List.foldl_cons, addLoop]
    split
    · exact ih table traced
    · exact ih _ (traced.add _)

/-- A statement is entered as its definitions. -/
theorem traces_addStatement {branches : List Branch} {record : Record.Statement}
    (ran : addStatement branches first record = .ok second) :
    Traces (Definition.ofStatement branches record) first second := by
  obtain ⟨_, _, listed, own, accessed, _, _, _, _, listing, entered, rfl⟩ := addStatement_cases ran
  have accesses := traces_addAccesses entered
  unfold Definition.ofStatement
  rcases listing with ⟨none, rfl, rfl⟩ | ⟨listing, given, scanned⟩
  · rw [none]
    have loops := (Traces.refl listed).addLoops record.loops Table.empty
    exact (loops.trans accesses).keep (.refl _) rfl rfl rfl
  · obtain ⟨lines, rfl⟩ := traces_scan scanned
    rw [given]
    have loops := lines.addLoops record.loops Table.empty
    exact (loops.trans accesses).keep (.refl _) rfl rfl rfl

/-- Statements are entered as their definitions, in order. -/
theorem traces_addStatements {branches : List Branch} {records : List Record.Statement}
    (ran : records.foldlM (addStatement branches) first = .ok second) :
    Traces (records.flatMap (Definition.ofStatement branches)) first second := by
  induction records generalizing first with
  | nil =>
    cases ran
    exact .refl _
  | cons record records ih =>
    rw [List.foldlM_cons] at ran
    obtain ⟨middle, stepped, rest⟩ := bind_eq_ok.1 ran
    exact (traces_addStatement stepped).trans (ih rest)

/-- The draft of a record is made by its definitions, from one in which nothing is defined. -/
theorem traces_draftOfRecord {record : Record} (drafted : draftOfRecord record = .ok draft) :
    ∃ before, Traces record.definitions before draft ∧ before.Blank ∧
      before.induction = inductionReferences record := by
  obtain ⟨before, lines, blank, induction, read, entered⟩ := draftOfRecord_cases drafted
  have listing : Traces (Definition.ofListing record.instructions) before
      (lines.foldl scanLine (before, [])).1 := by
    rw [Definition.ofListing, read]
    exact traces_scanLines lines (before, [])
  have branches : (lines.foldl scanLine (before, [])).2 =
      Definition.branchesOf record.instructions := by
    rw [Definition.branchesOf, read]
    exact branches_scanLines lines (before, [])
  rw [branches] at entered
  exact ⟨before, listing.trans (traces_addStatements entered), blank, induction⟩

/-- A name has not been dealt with where nothing is defined, unless it counts a loop. -/
theorem Blank.isSettled_eq_false_iff (blank : draft.Blank) {name : String} :
    draft.isSettled name = false ↔ name ∉ draft.induction := by
  simp [isSettled, blank.computations, blank.formless, Table.contains]

/-- The draft of a record is made by its definitions, from one in which nothing but the references
    of induction variables is known. -/
theorem enters_draftOfRecord {record : Record} (drafted : draftOfRecord record = .ok draft) :
    ∃ before, Enters record.definitions before draft ∧ before.formless = [] ∧
      (∀ name, before.computations.contains name = false) ∧
      ∀ name, before.isSettled name = false ↔ name ∉ inductionReferences record := by
  obtain ⟨before, traced, blank, induction⟩ := traces_draftOfRecord drafted
  refine ⟨before, traced.enters, blank.formless, fun name => ?_, fun name => ?_⟩
  · simp [blank.computations, Table.contains]
  · rw [blank.isSettled_eq_false_iff, induction]

/-- The names that are marked in the draft of a record are those of its merges without a form. -/
theorem mem_formless_iff {record : Record} (drafted : draftOfRecord record = .ok draft)
    {name : String} : name ∈ draft.formless ↔ record.Rejects name := by
  obtain ⟨before, whole, none, _, unsettled⟩ := enters_draftOfRecord drafted
  rw [whole.formless, none, FirstIs, unsettled]
  simp [Record.Rejects]

/-- The names that have a computation in the draft of a record are those of its computations and of
    its merges with a form. -/
theorem contains_computations_iff {record : Record} (drafted : draftOfRecord record = .ok draft)
    {name : String} : draft.computations.contains name = true ↔ record.Defines name := by
  obtain ⟨before, whole, _, nothing, unsettled⟩ := enters_draftOfRecord drafted
  rw [whole.computed, nothing, FirstIs, unsettled]
  simp [Record.Defines]

end Region.Draft

end RegionFlow
