/-
Module: RegionFlow.Proofs.Ordering
Purpose: Listings in order of definition: every computation has a new reference and a known type, and uses
  literals, what computations before it define, and leaves. The draft that such a listing leaves holds every
  computation with its operands, and nothing else is defined in it.
Main exports: Region.inOrder, Region.holdsLine_of_ofRecord, Region.computation_cases
-/
import RegionFlow.Proofs.Propagation

namespace RegionFlow

namespace Instruction

/-- The reference that a computation defines. -/
def computes? : Instruction → Option String
  | compute result _ _ _ => some result
  | _ => none

/-- The references that the computations of a listing define. -/
def computedReferences (lines : List (String × Instruction)) : List String :=
  lines.filterMap fun line => line.2.computes?

theorem computedReferences_cons (line : String × Instruction) (lines : List (String × Instruction)) :
    computedReferences (line :: lines) = line.2.computes?.toList ++ computedReferences lines := by
  cases computed : line.2.computes? with
  | none => simp [computedReferences, computed]
  | some name => simp [computedReferences, computed]

end Instruction

namespace Region

open Instruction (computes? computedReferences)

variable (parameters : Table Parameter) (induction : List String) (leaf : String → Bool)

/-- Whether an operand is a literal, is defined already, or is a leaf. -/
def isAvailable (defined : List String) : Operand → Bool
  | .literal _ => true
  | .ref name => defined.contains name || leaf name

/-- Whether an instruction may follow those that define the references in `defined`. A computation has to
    define a new reference of a known type from what is available; a merge has to count a loop. -/
def admits (defined : List String) : Instruction → Bool
  | .compute result spelling _ operands =>
    (ScalarType.ofSpelling? spelling).isSome
      && !(parameters.contains result || induction.contains result || defined.contains result)
      && operands.all fun operand => isAvailable leaf defined operand.value
  | .phi result _ _ => induction.contains result
  | _ => true

/-- Whether the lines of a listing stand in order of definition. -/
def inOrder : (defined : List String) → List (String × Instruction) → Bool
  | _, [] => true
  | defined, line :: rest =>
    admits parameters induction leaf defined line.2 &&
      inOrder (line.2.computes?.toList ++ defined) rest

variable {parameters induction leaf} {defined : List String}

theorem admits_compute {result spelling : String} {opcode : Opcode} {operands : List TypedOperand}
    (admitted : admits parameters induction leaf defined (.compute result spelling opcode operands)
      = true) :
    (∃ type, ScalarType.ofSpelling? spelling = some type) ∧ parameters.get? result = none ∧
      result ∉ induction ∧ result ∉ defined ∧
      ∀ operand ∈ operands, isAvailable leaf defined operand.value = true := by
  simp only [admits, Bool.and_eq_true, Bool.not_eq_true', Bool.or_eq_false_iff, List.all_eq_true]
    at admitted
  obtain ⟨⟨known, ⟨noParameter, noLoop⟩, unused⟩, available⟩ := admitted
  exact ⟨Option.isSome_iff_exists.1 known, Table.contains_eq_false_iff.1 noParameter,
    by simpa using noLoop, by simpa using unused, available⟩

/-- Every line of a listing in order is admitted after some references. -/
theorem exists_admits {lines : List (String × Instruction)}
    (ordered : inOrder parameters induction leaf defined lines = true) {line : String × Instruction}
    (member : line ∈ lines) : ∃ earlier, admits parameters induction leaf earlier line.2 = true := by
  induction lines generalizing defined with
  | nil => cases member
  | cons first lines ih =>
    obtain ⟨admitted, orderedRest⟩ := Bool.and_eq_true_iff.1 ordered
    rcases List.mem_cons.1 member with rfl | later
    · exact ⟨defined, admitted⟩
    · exact ih orderedRest later

/-- What a listing in order defines counts a loop or is computed. -/
theorem mem_computedReferences {lines : List (String × Instruction)}
    (ordered : inOrder parameters induction leaf defined lines = true) {line : String × Instruction}
    (member : line ∈ lines) {name : String} (defines : line.2.defines? = some name)
    (noLoop : name ∉ induction) : name ∈ computedReferences lines := by
  obtain ⟨text, instruction⟩ := line
  cases instruction with
  | compute result spelling opcode operands =>
    exact List.mem_filterMap.2 ⟨_, member, defines⟩
  | phi result spelling incoming =>
    cases defines
    obtain ⟨_, counts⟩ := exists_admits ordered member
    simp only [admits] at counts
    exact absurd (by simpa using counts) noLoop
  | branchIf => cases defines
  | branch => cases defines
  | load => cases defines
  | store => cases defines
  | address => cases defines
  | effect => cases defines

/-- A line of a listing, if it is a computation of known type, is held with its operands. -/
def HoldsLine (arena : Arena) (computations : Table ValueId) (line : String × Instruction) : Prop :=
  match line.2 with
  | .compute result spelling opcode operands =>
    ∃ type, ScalarType.ofSpelling? spelling = some type ∧
      Holds arena computations result type (.computation opcode (Text.trimmed line.1))
        (Draft.typedOperands type operands)
  | _ => True

namespace Draft

variable {draft : Draft} {state : Draft × List Branch} {lines : List (String × Instruction)}

/-- A new computation settles its reference and no other. -/
theorem isSettled_addComputation {reference name : String} {type : ScalarType} {kind : ValueKind}
    {operands : List (Operand × ScalarType)}
    (settled : (draft.addComputation reference type kind operands).isSettled name = true) :
    name = reference ∨ draft.isSettled name = true := by
  by_cases same : name = reference
  · exact .inl same
  · right
    have only := addOperands_eq draft operands
    rw [addComputation] at settled
    generalize draft.addOperands operands = entered at settled only
    obtain ⟨middle, args⟩ := entered
    dsimp only at only
    rw [only] at settled
    simpa only [isSettled, add, Table.contains, Table.get?_insert, if_neg (Ne.symm same)] using settled

/-- A line that is admitted settles what it computes and no other reference. -/
theorem isSettled_scanLine {line : String × Instruction} {name : String}
    (admitted : admits parameters state.1.induction leaf defined line.2 = true)
    (settled : (scanLine state line).1.isSettled name = true) :
    line.2.computes? = some name ∨ state.1.isSettled name = true := by
  obtain ⟨text, instruction⟩ := line
  cases instruction with
  | compute result spelling opcode operands =>
    simp only [scanLine, define] at settled
    split at settled
    · exact .inr settled
    · split at settled
      · exact .inr settled
      · rcases isSettled_addComputation settled with rfl | earlier
        · exact .inl rfl
        · exact .inr earlier
  | phi result spelling incoming =>
    -- a merge that counts a loop is settled from the start
    have counts : state.1.isSettled result = true := by
      simp only [admits] at admitted
      simp only [isSettled, admitted, Bool.or_true, Bool.true_or]
    simp only [scanLine, define, counts] at settled
    exact .inr settled
  | branchIf => exact .inr settled
  | branch => exact .inr settled
  | load => exact .inr settled
  | store => exact .inr settled
  | address => exact .inr settled
  | effect => exact .inr settled

/-- A draft that continues another holds the computations that that one holds. -/
theorem Continues.holdsLine {defines : String → Prop} {first second : Draft}
    (continued : Continues defines first second) {line : String × Instruction}
    (held : HoldsLine first.arena first.computations line) :
    HoldsLine second.arena second.computations line := by
  unfold HoldsLine at held ⊢
  split at held
  · obtain ⟨type, known, held⟩ := held
    exact ⟨type, known, continued.holds held⟩
  · trivial

/-- After a line that is admitted, its computation is held. -/
theorem holdsLine_scanLine {line : String × Instruction}
    (admitted : admits parameters state.1.induction leaf defined line.2 = true)
    (settled : ∀ name, state.1.isSettled name = true → name ∈ defined ∨ name ∈ state.1.induction) :
    HoldsLine (scanLine state line).1.arena (scanLine state line).1.computations line := by
  obtain ⟨text, instruction⟩ := line
  cases instruction with
  | compute result spelling opcode operands =>
    obtain ⟨⟨type, known⟩, _, noLoop, unused, _⟩ := admits_compute admitted
    have free : state.1.isSettled result = false := by
      refine Bool.eq_false_iff.2 fun taken => ?_
      rcases settled result taken with used | counts
      · exact unused used
      · exact noLoop counts
    exact ⟨type, known, holds_define_compute text state.2 free known⟩
  | phi | branchIf | branch | load | store | address | effect => trivial

/-- After lines in order of definition, the computation of every line is held. -/
theorem holdsLine_scanLines (state : Draft × List Branch)
    (ordered : inOrder parameters state.1.induction leaf defined lines = true)
    (settled : ∀ name, state.1.isSettled name = true → name ∈ defined ∨ name ∈ state.1.induction)
    {line : String × Instruction} (member : line ∈ lines) :
    HoldsLine (lines.foldl scanLine state).1.arena (lines.foldl scanLine state).1.computations line := by
  induction lines generalizing state defined with
  | nil => cases member
  | cons first lines ih =>
    obtain ⟨admitted, orderedRest⟩ := Bool.and_eq_true_iff.1 ordered
    have extendsFirst := extends_scanLine state first
    rw [List.foldl_cons]
    rcases List.mem_cons.1 member with rfl | later
    · exact (extends_scanLines _ lines).holdsLine (holdsLine_scanLine admitted settled)
    · rw [← extendsFirst.induction] at orderedRest
      refine ih (scanLine state first) orderedRest ?_ later
      intro name settledAfter
      rw [extendsFirst.induction]
      rcases isSettled_scanLine admitted settledAfter with computed | earlier
      · simp [computed]
      · exact (settled name earlier).imp_left (List.mem_append_right _)

end Draft

/-! ### Listings of records -/

/-- Whether a value that a write of a record stores is printed as the definition of a reference. -/
def storesDefinition (record : Record) (name : String) : Bool :=
  record.statements.any fun statement => statement.accesses.any fun access =>
    access.direction == .write && Draft.storedDefinition? (Draft.storedText access) == some name

variable {record : Record} {region : Region} {lines : List (String × Instruction)}

/-- A region holds every computation of a listing in order. -/
theorem holdsLine_of_ofRecord (built : ofRecord record = .ok region)
    (read : Instruction.readListing record.instructions = .ok lines)
    (ordered : inOrder parameters (inductionReferences record) leaf [] lines = true)
    {line : String × Instruction} (member : line ∈ lines) :
    HoldsLine region.arena region.computations line := by
  obtain ⟨draft, drafted, builtFrom⟩ := ofRecord_cases built
  obtain ⟨before, others, blank, induction, readSame, continued, _⟩ :=
    Draft.draftOfRecord_ok drafted
  cases read.symm.trans readSame
  rw [← induction] at ordered
  have settled : ∀ name, before.isSettled name = true → name ∈ [] ∨ name ∈ before.induction := by
    intro name taken
    simpa [Draft.isSettled, blank.computations, blank.formless, Table.contains] using taken
  rw [builtFrom.arena, builtFrom.computations]
  exact continued.holdsLine (Draft.holdsLine_scanLines (before, []) ordered settled member)

/-- A region without listings of its statements defines nothing but what its listing computes and what its
    writes define; induction variables stay apart. -/
theorem computation_cases (built : ofRecord record = .ok region)
    (read : Instruction.readListing record.instructions = .ok lines)
    (unlisted : ∀ statement ∈ record.statements, statement.instructions = none)
    (ordered : inOrder parameters (inductionReferences record) leaf defined lines = true)
    {name : String} {id : ValueId} (found : region.computations.get? name = some id) :
    name ∉ inductionReferences record ∧
      (name ∈ computedReferences lines ∨ storesDefinition record name = true) := by
  obtain ⟨draft, drafted, builtFrom⟩ := ofRecord_cases built
  obtain ⟨before, others, blank, induction, readSame, continued, sound⟩ :=
    Draft.draftOfRecord_ok drafted
  cases read.symm.trans readSame
  rw [builtFrom.computations] at found
  have scanned := Draft.extends_scanLines (before, []) lines
  have noLoop : name ∉ inductionReferences record := by
    rw [← induction, ← scanned.induction, ← continued.induction]
    exact sound.free found
  refine ⟨noLoop, ?_⟩
  rcases continued.entered found with listed | ⟨⟨statement, declared, later⟩, _⟩
  · rcases scanned.entered listed with old | ⟨⟨line, member, defines⟩, _⟩
    · rw [blank.computations] at old
      cases old
    · exact .inl (mem_computedReferences ordered member defines noLoop)
  · rcases later with ⟨listing, _, given, _⟩ | ⟨access, member, writes, defines⟩
    · rw [unlisted statement declared] at given
      cases given
    · refine .inr (List.any_eq_true.2 ⟨statement, declared, List.any_eq_true.2 ⟨access, member, ?_⟩⟩)
      simp [writes, defines]

/-- The induction variables of a region are among those of its record. -/
theorem mem_inductionReferences (built : ofRecord record = .ok region) {name : String} {id : ValueId}
    (found : region.findInductionVariable? name = some id) : name ∈ inductionReferences record := by
  obtain ⟨draft, drafted, builtFrom⟩ := ofRecord_cases built
  obtain ⟨before, others, _, induction, _, continued, sound⟩ := Draft.draftOfRecord_ok drafted
  obtain ⟨statementName, statement, declared, listed⟩ := findInductionVariable?_eq_some found
  rw [builtFrom.statements] at declared
  have counted := sound.counted (Table.get?_filter_eq_some_iff.1 declared).1 listed
  rwa [continued.induction, (Draft.extends_scanLines (before, []) others).induction, induction]
    at counted

end Region

end RegionFlow
