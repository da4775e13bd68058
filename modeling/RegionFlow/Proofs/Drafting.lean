/-
Module: RegionFlow.Proofs.Drafting
Purpose: What instructions do to a draft. A draft that continues another has all its values and all its
  computations; new values are made from operands, and new computations are known by the reference
  they define. Operands, instructions and listings continue a draft and bring no statement.
Main exports: Region.Holds, Draft.Continues, Draft.Extends, Draft.extends_define, Draft.extends_scanLines,
  Draft.stored_ok
-/
import RegionFlow.Proofs.ArenaGrowth
import RegionFlow.Proofs.Sequencing
import RegionFlow.Proofs.Tables
import RegionFlow.Region.Draft

namespace RegionFlow

namespace ValueKind

/-- Whether values of this kind stand for operands of instructions. -/
def isOperand : ValueKind → Bool
  | constant _ | placeholder => true
  | _ => false

/-- Whether values of this kind are what an instruction defines. -/
def isDefinition : ValueKind → Bool
  | computation _ _ | selection _ | forward _ => true
  | _ => false

/-- How many arguments values of a kind may have: what is not made from its arguments has none. -/
def Takes : ValueKind → Nat → Prop
  | computation _ _, _ => True
  | selection _, count => count ≤ 3
  | forward _, count | access .write _ _ _, count => count ≤ 1
  | _, count => count = 0

theorem takes_zero (kind : ValueKind) : kind.Takes 0 := by
  cases kind with
  | access direction => cases direction <;> simp [Takes]
  | _ => simp [Takes]

/-- What may have some arguments may have fewer. -/
theorem Takes.mono {kind : ValueKind} {fewer count : Nat} (le : fewer ≤ count)
    (takes : kind.Takes count) : kind.Takes fewer := by
  cases kind with
  | computation => trivial
  | selection | forward => exact Nat.le_trans le takes
  | access direction =>
    cases direction with
    | read => exact Nat.eq_zero_of_le_zero (takes ▸ le)
    | write => exact Nat.le_trans le takes
  | constant | placeholder | parameter | inductionVariable =>
    exact Nat.eq_zero_of_le_zero (takes ▸ le)

theorem eq_zero_of_takes {kind : ValueKind} {count : Nat} (atom : kind.isComposite = false)
    (takes : kind.Takes count) : count = 0 := by
  cases kind with
  | access direction =>
    cases direction with
    | read => exact takes
    | write => cases atom
  | computation | selection | forward => cases atom
  | constant | placeholder | parameter | inductionVariable => exact takes

end ValueKind

namespace Arena

/-- A place holds a value with a reference and a kind that passes a test. -/
def Names (arena : Arena) (id : ValueId) (reference : String) (test : ValueKind → Bool) : Prop :=
  ∃ value, arena.get? id = some value ∧ value.reference = reference ∧ test value.kind = true

theorem Names.keep {first second : Arena} (keeps : Keeps first second) {id : ValueId}
    {reference : String} {test : ValueKind → Bool} (names : first.Names id reference test) :
    second.Names id reference test := by
  obtain ⟨value, found, known, passes⟩ := names
  obtain ⟨args, found⟩ := keeps found
  exact ⟨_, found, known, passes⟩

/-- A value is made from operands, and from no more than its kind takes. -/
structure MadeFromOperands (arena : Arena) (value : Value) : Prop where
  takes : value.kind.Takes value.args.length
  operands : ∀ arg ∈ value.args, ∃ operand, arena.get? arg = some operand ∧
    operand.kind.isOperand = true

theorem madeFromOperands_of_nil {arena : Arena} {value : Value} (args : value.args = []) :
    arena.MadeFromOperands value := by
  constructor
  · rw [args]
    exact value.kind.takes_zero
  · simp [args]

theorem MadeFromOperands.grow {first second : Arena} (grows : Grows first second) {value : Value}
    (made : first.MadeFromOperands value) : second.MadeFromOperands value := by
  refine ⟨made.takes, ?_⟩
  intro arg member
  obtain ⟨operand, found, kind⟩ := made.operands arg member
  exact ⟨operand, grows found, kind⟩

/-- What is not made from arguments has none. -/
theorem MadeFromOperands.args_eq_nil {arena : Arena} {value : Value}
    (made : arena.MadeFromOperands value) (atom : value.kind.isComposite = false) :
    value.args = [] :=
  List.length_eq_zero_iff.1 (ValueKind.eq_zero_of_takes atom made.takes)

/-- A place holds an operand: the constant of a literal, or the placeholder of a reference. -/
def Stands (arena : Arena) (operand : Operand × ScalarType) (id : ValueId) : Prop :=
  ∃ value, arena.get? id = some value ∧
    match operand.1 with
    | .literal text => value.kind = .constant text
    | .ref name => value.kind = .placeholder ∧ value.reference = name

theorem Stands.grow {first second : Arena} (grows : Grows first second)
    {operand : Operand × ScalarType} {id : ValueId} (stands : first.Stands operand id) :
    second.Stands operand id := by
  obtain ⟨value, found, kind⟩ := stands
  exact ⟨value, grows found, kind⟩

theorem Stands.isOperand {arena : Arena} {operand : Operand × ScalarType} {id : ValueId}
    (stands : arena.Stands operand id) :
    ∃ value, arena.get? id = some value ∧ value.kind.isOperand = true := by
  obtain ⟨⟨name⟩ | ⟨text⟩, type⟩ := operand
  · obtain ⟨value, found, kind, _⟩ := stands
    exact ⟨value, found, by rw [kind]; rfl⟩
  · obtain ⟨value, found, kind⟩ := stands
    exact ⟨value, found, by rw [kind]; rfl⟩

end Arena

namespace Instruction

/-- The reference that an instruction enters a computation or a merge under. -/
def defines? : Instruction → Option String
  | phi result _ _ | compute result _ _ _ => some result
  | _ => none

end Instruction

namespace Region

/-- A table of computations has a value under a reference, and the value is made from operands in order. -/
def Holds (arena : Arena) (computations : Table ValueId) (reference : String) (type : ScalarType)
    (kind : ValueKind) (operands : List (Operand × ScalarType)) : Prop :=
  ∃ id args, computations.get? reference = some id ∧
    arena.get? id = some ⟨reference, type, kind, args⟩ ∧ List.Forall₂ arena.Stands operands args

namespace Draft

open Sequencing

/-- The second draft has everything that the first has, statements apart, and besides only values made
    from operands and computations under references that satisfy `defines`. -/
structure Continues (defines : String → Prop) (first second : Draft) : Prop where
  grows : first.arena.Grows second.arena
  made : ∀ {id value}, second.arena.get? id = some value →
    first.arena.get? id = some value ∨ second.arena.MadeFromOperands value
  storage : second.storage = first.storage
  parameters : second.parameters = first.parameters
  induction : second.induction = first.induction
  kept : ∀ {reference id}, first.computations.get? reference = some id →
    second.computations.get? reference = some id
  entered : ∀ {reference id}, second.computations.get? reference = some id →
    first.computations.get? reference = some id ∨
      (defines reference ∧ reference ∉ first.induction ∧
        second.arena.Names id reference ValueKind.isDefinition)

/-- The second draft continues the first without a new statement. -/
structure Extends (defines : String → Prop) (first second : Draft) : Prop
    extends Continues defines first second where
  statements : second.statements = first.statements

variable {defines other : String → Prop} {first second third draft : Draft}

theorem Continues.refl (defines : String → Prop) (draft : Draft) : Continues defines draft draft :=
  ⟨.refl draft.arena, .inl, rfl, rfl, rfl, id, .inl⟩

theorem Continues.trans (one : Continues defines first second)
    (two : Continues defines second third) : Continues defines first third where
  grows := one.grows.trans two.grows
  made := by
    intro id value found
    rcases two.made found with old | made
    · exact (one.made old).imp_right (·.grow two.grows)
    · exact .inr made
  storage := two.storage.trans one.storage
  parameters := two.parameters.trans one.parameters
  induction := two.induction.trans one.induction
  kept := fun found => two.kept (one.kept found)
  entered := by
    intro reference id found
    rcases two.entered found with old | ⟨allowed, free, names⟩
    · exact (one.entered old).imp_right fun ⟨allowed, free, names⟩ =>
        ⟨allowed, free, names.keep two.grows.keeps⟩
    · exact .inr ⟨allowed, one.induction ▸ free, names⟩

theorem Continues.mono (weaker : ∀ reference, defines reference → other reference)
    (one : Continues defines first second) : Continues other first second :=
  { one with
    entered := fun found => (one.entered found).imp_right fun ⟨allowed, rest⟩ =>
      ⟨weaker _ allowed, rest⟩ }

theorem Extends.refl (defines : String → Prop) (draft : Draft) : Extends defines draft draft :=
  ⟨.refl defines draft, rfl⟩

theorem Extends.trans (one : Extends defines first second) (two : Extends defines second third) :
    Extends defines first third :=
  ⟨one.toContinues.trans two.toContinues, two.statements.trans one.statements⟩

theorem Extends.mono (weaker : ∀ reference, defines reference → other reference)
    (one : Extends defines first second) : Extends other first second :=
  ⟨one.toContinues.mono weaker, one.statements⟩

/-- Adding a value that is made from operands extends a draft. -/
theorem extends_of_adds {arena : Arena} {value : Value} (adds : draft.arena.Adds value arena)
    (made : draft.arena.MadeFromOperands value) :
    Extends defines draft { draft with arena } where
  grows := adds.grows
  made := by
    intro id other found
    rcases adds.cases found with ⟨_, rfl⟩ | old
    · exact .inr (made.grow adds.grows)
    · exact .inl old
  storage := rfl
  parameters := rfl
  statements := rfl
  induction := rfl
  kept := id
  entered := .inl

theorem extends_add {value : Value} (made : draft.arena.MadeFromOperands value) :
    Extends defines draft (draft.add value).1 :=
  extends_of_adds (Arena.adds_push draft.arena value) made

/-- Entering a definition under a new reference extends a draft. -/
theorem extends_insert {reference : String} {id : ValueId} (allowed : defines reference)
    (absent : draft.computations.get? reference = none) (free : reference ∉ draft.induction)
    (names : draft.arena.Names id reference ValueKind.isDefinition) :
    Extends defines draft
      { draft with computations := draft.computations.insert reference id } where
  grows := .refl draft.arena
  made := .inl
  storage := rfl
  parameters := rfl
  statements := rfl
  induction := rfl
  kept := by
    intro key known found
    rw [Table.get?_insert, if_neg, found]
    rintro rfl
    rw [absent] at found
    cases found
  entered := by
    intro key known found
    rw [Table.get?_insert] at found
    split at found
    · rename_i same
      cases found
      exact .inr ⟨same ▸ allowed, same ▸ free, same ▸ names⟩
    · exact .inl found

/-! ### Operands and computations -/

/-- An operand extends a draft, and stands at the place it is given. -/
theorem addOperand_ok (defines : String → Prop) (draft : Draft) (operand : Operand)
    (type : ScalarType) :
    Extends defines draft (draft.addOperand operand type).1 ∧
      (draft.addOperand operand type).1.arena.Stands (operand, type)
        (draft.addOperand operand type).2 := by
  cases operand with
  | literal text =>
    have adds := draft.arena.adds_pushConstant text type
    exact ⟨extends_of_adds adds (Arena.madeFromOperands_of_nil rfl), _, adds.get?_nextId, rfl⟩
  | ref name =>
    have adds := draft.arena.adds_push ⟨name, type, .placeholder, []⟩
    exact ⟨extends_of_adds adds (Arena.madeFromOperands_of_nil rfl), _, adds.get?_nextId, rfl, rfl⟩

theorem addOperands_ok (defines : String → Prop) (draft : Draft)
    (operands : List (Operand × ScalarType)) :
    Extends defines draft (draft.addOperands operands).1 ∧
      List.Forall₂ (draft.addOperands operands).1.arena.Stands operands
        (draft.addOperands operands).2 := by
  induction operands generalizing draft with
  | nil => exact ⟨.refl defines draft, .nil⟩
  | cons operand rest ih =>
    obtain ⟨operand, type⟩ := operand
    obtain ⟨extendsFirst, stands⟩ := addOperand_ok defines draft operand type
    obtain ⟨extendsRest, others⟩ := ih (draft.addOperand operand type).1
    exact ⟨extendsFirst.trans extendsRest, .cons (stands.grow extendsRest.grows) others⟩

/-- Operands bring values and nothing else. -/
theorem addOperands_eq (draft : Draft) (operands : List (Operand × ScalarType)) :
    (draft.addOperands operands).1 =
      { draft with arena := (draft.addOperands operands).1.arena } := by
  induction operands generalizing draft with
  | nil => rfl
  | cons operand rest ih => exact ih (draft.addOperand operand.1 operand.2).1

/-- A draft that continues another holds the computations that that one holds. -/
theorem Continues.holds (continued : Continues defines first second) {reference : String}
    {type : ScalarType} {kind : ValueKind} {operands : List (Operand × ScalarType)}
    (held : Holds first.arena first.computations reference type kind operands) :
    Holds second.arena second.computations reference type kind operands := by
  obtain ⟨id, args, known, found, stands⟩ := held
  exact ⟨id, args, continued.kept known, continued.grows found,
    stands.imp fun _ _ operand => operand.grow continued.grows⟩

/-- A reference that has not been dealt with has no computation and counts no loop. -/
theorem free_of_isSettled {reference : String} (free : draft.isSettled reference = false) :
    draft.computations.get? reference = none ∧ reference ∉ draft.induction := by
  simp only [isSettled, Bool.or_eq_false_iff] at free
  exact ⟨Table.contains_eq_false_iff.1 free.1.1, by simpa using free.1.2⟩

/-- A new computation extends a draft, which then holds it. -/
theorem addComputation_ok (defines : String → Prop) {reference : String} {type : ScalarType}
    {kind : ValueKind} {operands : List (Operand × ScalarType)} (allowed : defines reference)
    (free : draft.isSettled reference = false) (definition : kind.isDefinition = true)
    (takes : kind.Takes operands.length) :
    Extends defines draft (draft.addComputation reference type kind operands) ∧
      Holds (draft.addComputation reference type kind operands).arena
        (draft.addComputation reference type kind operands).computations reference type kind
        operands := by
  obtain ⟨extendsFirst, stands⟩ := addOperands_ok defines draft operands
  obtain ⟨absent, noLoop⟩ := free_of_isSettled free
  have same := congrArg Draft.computations (addOperands_eq draft operands)
  rw [addComputation]
  generalize draft.addOperands operands = entered at extendsFirst stands same
  obtain ⟨middle, args⟩ := entered
  have adds := middle.arena.adds_push ⟨reference, type, kind, args⟩
  have made : middle.arena.MadeFromOperands ⟨reference, type, kind, args⟩ := by
    refine ⟨stands.length_eq ▸ takes, ?_⟩
    intro arg member
    obtain ⟨operand, _, holds⟩ := exists_partner stands.flip member
    exact Arena.Stands.isOperand holds
  have extendsSecond : Extends defines middle (middle.add ⟨reference, type, kind, args⟩).1 :=
    extends_add made
  refine ⟨(extendsFirst.trans extendsSecond).trans (extends_insert allowed ?_ ?_ ?_), ?_⟩
  · exact same ▸ absent
  · exact extendsFirst.induction ▸ noLoop
  · exact ⟨_, adds.get?_nextId, rfl, definition⟩
  · refine ⟨middle.arena.nextId, args, ?_, adds.get?_nextId, ?_⟩
    · exact (Table.get?_insert _ _ _ _).trans (if_pos rfl)
    · exact stands.imp fun _ _ holds => holds.grow adds.grows

/-! ### Instructions and listings -/

/-- An instruction extends a draft by what it defines. -/
theorem extends_define (draft : Draft) (instruction : Instruction) (text : String)
    (branches : List Branch) :
    Extends (fun reference => instruction.defines? = some reference) draft
      (draft.define instruction text branches) := by
  unfold define
  split
  · rename_i reference spelling incoming
    split
    · exact .refl _ draft
    · rename_i free
      split
      · exact .refl _ draft
      · rename_i type _
        split
        · exact { Extends.refl _ draft with }
        · rename_i form _
          have definition : (mergeKind (Text.trimmed text) form).isDefinition = true := by
            cases form <;> rfl
          have takes : (mergeKind (Text.trimmed text) form).Takes
              (mergeOperands type form).length := by
            cases form <;> simp [mergeKind, mergeOperands, ValueKind.Takes]
          refine (addComputation_ok _ ?_ (Bool.eq_false_iff.2 free) definition takes).1
          rfl
  · rename_i reference spelling opcode operands
    split
    · exact .refl _ draft
    · rename_i free
      split
      · exact .refl _ draft
      · refine (addComputation_ok _ ?_ (Bool.eq_false_iff.2 free) ?_ ?_).1
        · rfl
        · rfl
        · trivial
  · exact .refl _ draft

/-- The line of a computation enters it with its operands. -/
theorem holds_define_compute {reference spelling : String} {opcode : Opcode}
    {operands : List TypedOperand} {type : ScalarType} (text : String) (branches : List Branch)
    (free : draft.isSettled reference = false) (known : ScalarType.ofSpelling? spelling = some type) :
    Holds (draft.define (.compute reference spelling opcode operands) text branches).arena
      (draft.define (.compute reference spelling opcode operands) text branches).computations
      reference type (.computation opcode (Text.trimmed text)) (typedOperands type operands) := by
  simp only [define, free, known]
  apply (addComputation_ok (fun _ => True) trivial free rfl _).2
  trivial

/-- A line of a listing extends a draft by what it defines. -/
theorem extends_scanLine (state : Draft × List Branch) (line : String × Instruction) :
    Extends (fun reference => line.2.defines? = some reference) state.1 (scanLine state line).1 := by
  unfold scanLine
  split
  · exact .refl _ state.1
  · exact extends_define state.1 line.2 line.1 state.2

/-- A listing extends a draft by what its lines define. -/
theorem extends_scanLines (state : Draft × List Branch) (lines : List (String × Instruction)) :
    Extends (fun reference => ∃ line ∈ lines, line.2.defines? = some reference) state.1
      (lines.foldl scanLine state).1 := by
  induction lines generalizing state with
  | nil => exact .refl _ state.1
  | cons line lines ih =>
    rw [List.foldl_cons]
    refine .trans ((extends_scanLine state line).mono ?_) ((ih (scanLine state line)).mono ?_)
    · intro reference defined
      exact ⟨line, List.mem_cons_self, defined⟩
    · rintro reference ⟨other, later, defined⟩
      exact ⟨other, List.mem_cons_of_mem line later, defined⟩

/-- An operand that is stored extends a draft and is an operand there. -/
theorem addOperand_isOperand (defines : String → Prop) (draft : Draft) (operand : Operand)
    (type : ScalarType) :
    Extends defines draft (draft.addOperand operand type).1 ∧
      ∀ id ∈ some (draft.addOperand operand type).2, ∃ value,
        (draft.addOperand operand type).1.arena.get? id = some value ∧
          value.kind.isOperand = true := by
  obtain ⟨extended, stands⟩ := addOperand_ok defines draft operand type
  exact ⟨extended, fun id same => Option.some.inj same ▸ stands.isOperand⟩

/-- The reference that the printed form of a stored value defines. -/
def storedDefinition? (printed : String) : Option String :=
  match Instruction.read (Text.trimmed printed) with
  | .ok instruction => instruction.defines?
  | .error _ => none

/-- A stored value extends a draft by what its printed form defines, and is an operand. -/
theorem stored_ok {printed : String} {fallback : ScalarType} {branches : List Branch}
    {after : Draft} {value : Option ValueId}
    (ran : draft.stored printed fallback branches = .ok (after, value)) :
    Extends (fun reference => storedDefinition? printed = some reference) draft after ∧
      ∀ id ∈ value, ∃ operand, after.arena.get? id = some operand ∧
        operand.kind.isOperand = true := by
  simp only [stored] at ran
  split at ran
  · cases ran
    exact ⟨.refl _ draft, by simp⟩
  · split at ran
    · cases ran
      exact addOperand_isOperand _ draft _ _
    · rename_i instruction _ read
      have defined : Extends (fun reference => storedDefinition? printed = some reference) draft
          (draft.define instruction (Text.trimmed printed) branches) :=
        (extends_define draft instruction (Text.trimmed printed) branches).mono
          fun reference defines => by simp only [storedDefinition?, read, defines]
      split at ran
      · cases ran
        exact ⟨defined, by simp⟩
      · cases ran
        obtain ⟨extended, isOperand⟩ := addOperand_isOperand _
          (draft.define instruction (Text.trimmed printed) branches) _ _
        exact ⟨defined.trans extended, isOperand⟩
    · split at ran
      · cases ran
      · cases ran
        exact addOperand_isOperand _ draft _ _

end Draft

end Region

end RegionFlow
