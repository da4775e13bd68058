/-
Module: RegionFlow.Proofs.Meaning
Purpose: Expressions mean what listings compute. An interpretation gives a meaning to literals, to leaves and
  to operations. Under it a listing can be run line by line, and an expression can be evaluated. For a
  listing in order of definition the two agree: after propagation, what a computation expands to evaluates to
  the value that running the listing assigns to its reference.
Main exports: Interpretation, Interpretation.run, Interpretation.eval?, Region.expand_evaluates_to_run
-/
import Mathlib.Algebra.GroupWithZero.Nat
import Mathlib.Logic.Function.Basic
import RegionFlow.Proofs.Ordering
import RegionFlow.Proofs.References
import RegionFlow.Proofs.Unfolding

namespace RegionFlow

universe u

/-- Meanings of literals, of references that nothing defines, and of operations with a result type. -/
structure Interpretation (Meaning : Type u) where
  literal : String → Meaning
  leaf : String → Meaning
  apply : Opcode → ScalarType → List Meaning → Meaning

namespace Interpretation

variable {Meaning : Type u} (interpretation : Interpretation Meaning)

mutual

/-- Value of an expression. Choices of merges and references without a producer have none. -/
def eval? : Expr → Option Meaning
  | .const literal => some (interpretation.literal literal)
  | .param reference | .index reference | .read _ reference => some (interpretation.leaf reference)
  | .op opcode type operands => (evalAll? operands).map (interpretation.apply opcode type)
  | .select _ _ _ | .unknown _ => none

/-- Values of several expressions. -/
def evalAll? : List Expr → Option (List Meaning)
  | [] => some []
  | expr :: rest => (eval? expr).bind fun value => (evalAll? rest).map (value :: ·)

end

/-- Value of an operand, given the values of references. -/
def operandValue (values : String → Meaning) : Operand → Meaning
  | .ref name => values name
  | .literal text => interpretation.literal text

/-- Run one line: a computation of known type assigns a value to its reference. -/
def step (values : String → Meaning) (line : String × Instruction) : String → Meaning :=
  match line.2 with
  | .compute result spelling opcode operands =>
    match ScalarType.ofSpelling? spelling with
    | some type =>
      Function.update values result (interpretation.apply opcode type
        (operands.map fun operand => interpretation.operandValue values operand.value))
    | none => values
  | _ => values

/-- Run a listing from the values of leaves on. -/
def run (lines : List (String × Instruction)) : String → Meaning :=
  lines.foldl interpretation.step interpretation.leaf

end Interpretation

namespace Region

open Sequencing
open Instruction (computedReferences computedReferences_cons isReferenceName usesNames)

variable {Meaning : Type u} {interpretation : Interpretation Meaning} {region : Region}
  {values : String → Meaning}

/-- After propagation, a place holds what evaluates to a value. -/
def Evaluates (region : Region) (interpretation : Interpretation Meaning) (id : ValueId)
    (value : Meaning) : Prop :=
  ∃ expr, region.propagate.1.arena.Unfolds id expr ∧ interpretation.eval? expr = some value

/-- A reference denotes what evaluates to its value. -/
def Means (region : Region) (interpretation : Interpretation Meaning) (values : String → Meaning)
    (name : String) : Prop :=
  ∃ id, region.lookup? name = some id ∧ region.Evaluates interpretation id (values name)

/-! ### Operands and computations -/

/-- A value that is made from no others is what it is after propagation. -/
theorem unfolds_atom {id : ValueId} {value : Value} (found : region.arena.get? id = some value)
    (atom : value.kind.isComposite = false) :
    region.propagate.1.arena.Unfolds id (value.assemble []) := by
  obtain ⟨args, kept⟩ := keeps_propagate region found
  have operands : Value.operands { value with args } = [] := Value.operands_of_atom atom
  exact Arena.unfolds_iff.2 ⟨{ value with args }, [], kept, operands ▸ .nil, rfl⟩

/-- An operand is resolved to what evaluates to its value. -/
theorem evaluates_resolveArg {operand : Operand} {type : ScalarType} {id : ValueId}
    (stands : region.arena.Stands (operand, type) id)
    (means : ∀ {name}, operand = .ref name → region.Means interpretation values name) :
    ∃ resolved, (region.resolveArg id).id? = some resolved ∧
      region.Evaluates interpretation resolved (interpretation.operandValue values operand) := by
  cases operand with
  | literal text =>
    obtain ⟨value, found, constant⟩ := stands
    have kind : value.kind = .constant text := constant
    refine ⟨id, ?_, value.assemble [], unfolds_atom found ?_, ?_⟩
    · simp [resolveArg, found, Value.isPlaceholder, kind, Resolution.id?]
    · simp [kind, ValueKind.isComposite]
    · simp [Value.assemble, kind, Interpretation.eval?, Interpretation.operandValue]
  | ref name =>
    obtain ⟨value, found, kind, known⟩ := stands
    obtain ⟨resolved, denoted, evaluates⟩ := means rfl
    refine ⟨resolved, ?_, evaluates⟩
    simp [resolveArg, found, Value.isPlaceholder, kind, known, denoted, Resolution.id?]

/-- Operands are resolved in order to what evaluates to their values. -/
theorem evalAll?_resolvedArgs {type : ScalarType} {operands : List TypedOperand} {args : List ValueId}
    (stands : List.Forall₂ region.arena.Stands (Draft.typedOperands type operands) args)
    (means : ∀ operand ∈ operands, ∀ {name}, operand.value = .ref name →
      region.Means interpretation values name) :
    ∃ exprs, List.Forall₂ region.propagate.1.arena.Unfolds (region.resolvedArgs args) exprs ∧
      interpretation.evalAll? exprs = some (operands.map fun operand =>
        interpretation.operandValue values operand.value) := by
  induction operands generalizing args with
  | nil =>
    cases stands
    exact ⟨[], .nil, rfl⟩
  | cons operand operands ih =>
    cases stands with
    | @cons _ arg _ args first rest =>
      obtain ⟨resolved, resolves, expr, unfolds, evaluates⟩ :=
        evaluates_resolveArg first (means operand List.mem_cons_self)
      obtain ⟨exprs, unfoldsRest, evaluatesRest⟩ :=
        ih rest fun other later => means other (List.mem_cons_of_mem operand later)
      refine ⟨expr :: exprs, ?_, ?_⟩
      · simp only [resolvedArgs, List.map_cons, List.filterMap_cons, resolves]
        exact .cons unfolds unfoldsRest
      · simp [Interpretation.evalAll?, evaluates, evaluatesRest]

/-- A computation evaluates to the value of its operation on the values of its operands. -/
theorem evaluates_computation {reference : String} {type : ScalarType} {opcode : Opcode}
    {text : String} {operands : List TypedOperand}
    (held : Holds region.arena region.computations reference type (.computation opcode text)
      (Draft.typedOperands type operands))
    (means : ∀ operand ∈ operands, ∀ {name}, operand.value = .ref name →
      region.Means interpretation values name) :
    ∃ id, region.computations.get? reference = some id ∧
      region.Evaluates interpretation id (interpretation.apply opcode type
        (operands.map fun operand => interpretation.operandValue values operand.value)) := by
  obtain ⟨id, args, found, holds, stands⟩ := held
  obtain ⟨exprs, unfolds, evaluates⟩ := evalAll?_resolvedArgs stands means
  have owner : id ∈ region.argumentOwners :=
    List.mem_append_left _ (Table.mem_values_of_get? found)
  refine ⟨id, found, .op opcode type exprs, Arena.unfolds_iff.2 ⟨⟨reference, type,
    .computation opcode text, region.resolvedArgs args⟩, exprs, ?_, unfolds, rfl⟩, ?_⟩
  · rw [get?_propagate, holds, Option.map_some, if_pos owner]
  · simp [Interpretation.eval?, evaluates]

/-! ### Leaves -/

/-- Whether a reference is a parameter, a read or an induction variable of a region, and no line of a listing
    computes it. -/
def isLeaf (region : Region) (lines : List (String × Instruction)) (name : String) : Bool :=
  (region.parameters.contains name || (region.findRead? name).isSome
      || (region.findInductionVariable? name).isSome)
    && !(computedReferences lines).contains name

theorem exists_lookup? {lines : List (String × Instruction)} {name : String}
    (leaf : region.isLeaf lines name = true) : ∃ id, region.lookup? name = some id := by
  unfold lookup?
  split
  · exact ⟨_, rfl⟩
  · rename_i noParameter
    split
    · exact ⟨_, rfl⟩
    · split
      · exact ⟨_, rfl⟩
      · rename_i noRead
        simp only [isLeaf, Table.contains, noParameter, noRead, Option.isSome_none, Bool.or_self,
          Bool.false_or, Bool.and_eq_true] at leaf
        exact Option.isSome_iff_exists.1 leaf.1

/-- A parameter, a read or an induction variable evaluates to what its reference means as a leaf. -/
theorem evaluates_leaf {id : ValueId} {value : Value} (found : region.arena.get? id = some value)
    (isLeaf : value.kind.isParameter = true ∨ value.isRead = true ∨
      value.kind.isInductionVariable = true) :
    region.Evaluates interpretation id (interpretation.leaf value.reference) := by
  obtain ⟨reference, type, kind, args⟩ := value
  cases kind with
  | parameter | inductionVariable => exact ⟨_, unfolds_atom found rfl, rfl⟩
  | access direction =>
    cases direction with
    | read => exact ⟨_, unfolds_atom found rfl, rfl⟩
    | write => simp [ValueKind.isParameter, ValueKind.isInductionVariable, Value.isRead] at isLeaf
  | constant | placeholder | computation | selection | forward =>
    simp [ValueKind.isParameter, ValueKind.isInductionVariable, Value.isRead] at isLeaf

/-- A leaf that is no computation evaluates to what it means. -/
theorem means_leaf
    (consistent : Consistent region.arena region.parameters region.computations region.statements)
    {lines : List (String × Instruction)} {name : String} (leaf : region.isLeaf lines name = true)
    (named : isReferenceName name = true)
    (undefined : region.parameters.get? name = none → region.computations.get? name = none)
    (given : values name = interpretation.leaf name) :
    region.Means interpretation values name := by
  obtain ⟨id, denoted⟩ := exists_lookup? leaf
  refine ⟨id, denoted, ?_⟩
  rw [given]
  rcases lookup?_cases denoted with ⟨entry, known, rfl⟩ | ⟨noParameter, known | ⟨_, known | known⟩⟩
  · obtain ⟨value, held, rfl, kind⟩ := consistent.parameter known
    exact evaluates_leaf held (.inl kind)
  · rw [undefined noParameter] at known
    cases known
  · obtain ⟨statementName, statement, access, declared, listed, reads, rfl⟩ := findRead?_eq_some known
    obtain ⟨value, held, isRead⟩ := Statement.isReadIn_eq_true_iff.1 reads
    obtain ⟨reference, ⟨array, _, same, heldSame, refers, _⟩, key⟩ :=
      (consistent.statement declared).accesses listed
    cases held.symm.trans heldSame
    -- a name has no number, so the access is known by the reference of its value
    have unnumbered : name = reference := by
      rcases key with same | ⟨number, numbered⟩
      · exact same
      · refine absurd ?_ (Instruction.hash_not_mem named)
        simp [numbered]
    rw [unnumbered, ← refers]
    exact evaluates_leaf held (.inr (.inl isRead))
  · obtain ⟨statementName, statement, declared, listed⟩ := findInductionVariable?_eq_some known
    obtain ⟨value, held, rfl, kind⟩ := (consistent.statement declared).loops listed
    exact evaluates_leaf held (.inr (.inr kind))

/-! ### Running a listing -/

variable {induction defined : List String} {leaf : String → Bool}

/-- While a listing runs, references mean the values they have: those defined so far and those that are
    leaves. -/
structure Tracks (region : Region) (interpretation : Interpretation Meaning) (leaf : String → Bool)
    (defined : List String) (values : String → Meaning) : Prop where
  defined : ∀ name ∈ defined, region.Means interpretation values name
  leaf : ∀ name, leaf name = true → isReferenceName name = true →
    region.Means interpretation values name

/-- Another value for another reference does not matter. -/
theorem Means.update {name result : String} {value : Meaning}
    (means : region.Means interpretation values name) (other : name ≠ result) :
    region.Means interpretation (Function.update values result value) name := by
  obtain ⟨id, denoted, evaluates⟩ := means
  refine ⟨id, denoted, ?_⟩
  rwa [Function.update_of_ne other]

/-- References among available operands mean the values they have. -/
theorem Tracks.means_operand (tracks : region.Tracks interpretation leaf defined values)
    {operand : Operand} (available : isAvailable leaf defined operand = true)
    (named : Instruction.hasName operand = true) {name : String} (refers : operand = .ref name) :
    region.Means interpretation values name := by
  subst refers
  rcases Bool.or_eq_true_iff.1 available with before | isLeaf
  · exact tracks.defined name (by simpa using before)
  · exact tracks.leaf name isLeaf named

/-- A line that is admitted and held gives what it computes the value that it means. -/
theorem Tracks.step (tracks : region.Tracks interpretation leaf defined values)
    {line : String × Instruction}
    (admitted : admits region.parameters induction leaf defined line.2 = true)
    (held : HoldsLine region.arena region.computations line) (names : usesNames line.2 = true)
    (noLeaf : ∀ name ∈ line.2.computes?, leaf name = false) :
    region.Tracks interpretation leaf (line.2.computes?.toList ++ defined)
      (interpretation.step values line) := by
  obtain ⟨text, instruction⟩ := line
  cases instruction with
  | compute result spelling opcode operands =>
    obtain ⟨type, known, held⟩ := held
    obtain ⟨_, noParameter, _, unused, available⟩ := admits_compute admitted
    have means : ∀ operand ∈ operands, ∀ {name}, operand.value = .ref name →
        region.Means interpretation values name := fun operand member =>
      tracks.means_operand (available operand member) (List.all_eq_true.1 names operand member)
    obtain ⟨id, found, evaluates⟩ := evaluates_computation held means
    have denoted : region.lookup? result = some id := by
      simp only [lookup?, noParameter, found]
    simp only [Interpretation.step, known]
    constructor
    · intro name member
      rcases List.mem_cons.1 member with rfl | before
      · refine ⟨id, denoted, ?_⟩
        rwa [Function.update_self]
      · refine (tracks.defined name before).update ?_
        rintro rfl
        exact unused before
    · intro name isLeaf named
      refine (tracks.leaf name isLeaf named).update ?_
      rintro rfl
      rw [noLeaf name rfl] at isLeaf
      cases isLeaf
  | phi | branchIf | branch | load | store | address | effect => exact tracks

/-- Running lines in order keeps track of what references mean, up to all that they compute. -/
theorem Tracks.run (tracks : region.Tracks interpretation leaf defined values)
    {lines : List (String × Instruction)}
    (ordered : inOrder region.parameters induction leaf defined lines = true)
    (held : ∀ line ∈ lines, HoldsLine region.arena region.computations line)
    (names : ∀ line ∈ lines, usesNames line.2 = true)
    (noLeaf : ∀ name ∈ computedReferences lines, leaf name = false) {name : String}
    (known : name ∈ defined ∨ name ∈ computedReferences lines) :
    region.Means interpretation (lines.foldl interpretation.step values) name := by
  induction lines generalizing defined values with
  | nil =>
    rcases known with before | computed
    · exact tracks.defined name before
    · cases computed
  | cons line lines ih =>
    obtain ⟨admitted, orderedRest⟩ := Bool.and_eq_true_iff.1 ordered
    rw [computedReferences_cons] at noLeaf known
    have first := tracks.step admitted (held line List.mem_cons_self) (names line List.mem_cons_self)
      (fun name computes => noLeaf name (List.mem_append_left _ (Option.mem_toList.2 computes)))
    refine ih first orderedRest (fun other later => held other (List.mem_cons_of_mem line later))
      (fun other later => names other (List.mem_cons_of_mem line later))
      (fun name later => noLeaf name (List.mem_append_right _ later)) ?_
    rcases known with before | computed
    · exact .inl (List.mem_append_right _ before)
    · exact (List.mem_append.1 computed).imp_left (List.mem_append_left _)

/-- What a listing in order computes is denoted by its reference. -/
theorem lookup?_of_computed {lines : List (String × Instruction)}
    (ordered : inOrder region.parameters induction leaf defined lines = true)
    (held : ∀ line ∈ lines, HoldsLine region.arena region.computations line) {name : String}
    (computed : name ∈ computedReferences lines) :
    region.lookup? name = region.computations.get? name := by
  obtain ⟨⟨text, instruction⟩, member, computes⟩ := List.mem_filterMap.1 computed
  cases instruction with
  | compute result spelling opcode operands =>
    cases computes
    obtain ⟨earlier, admitted⟩ := exists_admits ordered member
    obtain ⟨_, noParameter, _⟩ := admits_compute admitted
    obtain ⟨_, _, id, _, found, _⟩ := held _ member
    simp only [lookup?, noParameter, found]
  | phi | branchIf | branch | load | store | address | effect => cases computes

/-! ### Records -/

/-- Whether a reference is a leaf for good. Parameters are looked up before computations, and induction
    variables are never computations; a read must not have the reference that a stored value of the record is
    printed as the definition of. -/
def isSteadyLeaf (record : Record) (region : Region) (lines : List (String × Instruction))
    (name : String) : Bool :=
  region.isLeaf lines name &&
    (region.parameters.contains name || (region.findInductionVariable? name).isSome ||
      !storesDefinition record name)

variable {record : Record} {lines : List (String × Instruction)}

/-- A steady leaf is no computation, unless it is a parameter. -/
theorem undefined_of_isSteadyLeaf (built : ofRecord record = .ok region)
    (read : Instruction.readListing record.instructions = .ok lines)
    (unlisted : ∀ statement ∈ record.statements, statement.instructions = none)
    (ordered : inOrder region.parameters (inductionReferences record) leaf defined lines = true)
    {name : String} (steady : isSteadyLeaf record region lines name = true)
    (noParameter : region.parameters.get? name = none) : region.computations.get? name = none := by
  cases found : region.computations.get? name with
  | none => rfl
  | some id =>
    obtain ⟨noLoop, origin⟩ := computation_cases built read unlisted ordered found
    simp only [isSteadyLeaf, isLeaf, Table.contains_eq_false_iff.2 noParameter, Bool.and_eq_true,
      Bool.false_or, Bool.or_eq_true, Bool.not_eq_true'] at steady
    obtain ⟨⟨_, notComputed⟩, counts | notStored⟩ := steady
    · obtain ⟨counter, known⟩ := Option.isSome_iff_exists.1 counts
      exact absurd (mem_inductionReferences built known) noLoop
    · rcases origin with computed | stored
      · simp [computed] at notComputed
      · rw [notStored] at stored
        cases stored

/-- After propagation, every reference that a listing in order computes expands to an expression that
    evaluates to what running the listing assigns to it. -/
theorem expand_evaluates_to_run (built : ofRecord record = .ok region)
    (read : Instruction.readListing record.instructions = .ok lines)
    (unlisted : ∀ statement ∈ record.statements, statement.instructions = none)
    (ordered : inOrder region.parameters (inductionReferences record)
      (isSteadyLeaf record region lines) [] lines = true)
    (interpretation : Interpretation Meaning) :
    ∀ name ∈ computedReferences lines, ∃ id expr,
      region.propagate.1.computations.get? name = some id ∧
      region.propagate.1.arena.expand id = .ok expr ∧
      interpretation.eval? expr = some (interpretation.run lines name) := by
  intro name computed
  have tracks : region.Tracks interpretation (isSteadyLeaf record region lines) []
      interpretation.leaf := by
    refine ⟨fun _ member => (by cases member), ?_⟩
    intro leaf steady named
    exact means_leaf (ofRecord_ok built).1 (Bool.and_eq_true_iff.1 steady).1 named
      (undefined_of_isSteadyLeaf built read unlisted ordered steady) rfl
  have held : ∀ line ∈ lines, HoldsLine region.arena region.computations line :=
    fun _ member => holdsLine_of_ofRecord built read ordered member
  obtain ⟨id, denoted, expr, unfolds, evaluates⟩ := tracks.run ordered held
    (Instruction.usesNames_of_readLines read) (by simp +contextual [isSteadyLeaf, isLeaf])
    (.inr computed)
  rw [lookup?_of_computed ordered held computed] at denoted
  exact ⟨id, expr, denoted, Arena.expand_eq_ok_iff.2 unfolds, evaluates⟩

/-! ### A record to try things on -/

/-- A loop that scales the elements of an array or replaces them by their index; `incoming` is
    printed with its write as the stored value. -/
def scaling (incoming : String) : Record where
  name := "scale"
  context := ""
  schedule := ""
  parameters := [⟨"s", "double %s", "double"⟩]
  arrays := [⟨"A", .array, ["*"], "double", ""⟩]
  dependences := ⟨"", "", "", "", ""⟩
  instructions :=
    "%i = phi i64 [ 0, %e ]\n" ++
    "%x = sitofp i64 %i to double\n" ++
    "%y = fmul double %a, %s\n" ++
    "%z = select i1 true, double %y, double %x\n"
  statements := [
    { name := "S"
      domain := "\x7b S[i0] : 0 <= i0 <= 9 \x7d"
      affine := some true
      loops := ["%i = phi i64 [ 0, %e ]"]
      accesses := [
        ⟨.read, "\x7b S[i0] -> A[i0] \x7d", "%a = load double, ptr %p", ""⟩,
        ⟨.write, "\x7b S[i0] -> A[i0] \x7d", "store double %z, ptr %p", incoming⟩]
      instructions := none }]
  aliasGroups := []

/-- The number of leaves that a value is made from. -/
def leafCount : Interpretation Nat where
  literal := fun _ => 0
  leaf := fun _ => 1
  apply := fun _ _ values => values.sum

/-- Whether a record has a region and a listing, and both pass a test. -/
def passes (record : Record) (test : Region → List (String × Instruction) → Bool) : Bool :=
  match ofRecord record, Instruction.readListing record.instructions with
  | .ok region, .ok lines => test region lines
  | _, _ => false

theorem exists_of_passes {test : Region → List (String × Instruction) → Bool}
    (passed : passes record test = true) :
    ∃ region lines, ofRecord record = .ok region ∧
      Instruction.readListing record.instructions = .ok lines ∧ test region lines = true := by
  unfold passes at passed
  split at passed
  · rename_i region lines built read
    exact ⟨region, lines, built, read, passed⟩
  · cases passed

/-- With nothing printed but the store, the last computation of the loop expands to an expression with three
    leaves, and running the listing counts three. -/
theorem scaling_expand_evaluates :
    ∃ region lines, ofRecord (scaling "") = .ok region ∧
      Instruction.readListing (scaling "").instructions = .ok lines ∧
      (∀ statement ∈ (scaling "").statements, statement.instructions = none) ∧
      inOrder region.parameters (inductionReferences (scaling ""))
        (isSteadyLeaf (scaling "") region lines) [] lines = true ∧
      leafCount.run lines "%z" = 3 ∧
      ∃ id expr, region.propagate.1.computations.get? "%z" = some id ∧
        region.propagate.1.arena.expand id = .ok expr ∧ leafCount.eval? expr = some 3 := by
  have passed : passes (scaling "") (fun region lines =>
      inOrder region.parameters (inductionReferences (scaling ""))
        (isSteadyLeaf (scaling "") region lines) [] lines &&
      (computedReferences lines).contains "%z" && leafCount.run lines "%z" == 3) = true := by
    decide +kernel
  obtain ⟨region, lines, built, read, tested⟩ := exists_of_passes passed
  simp only [Bool.and_eq_true, beq_iff_eq] at tested
  obtain ⟨⟨ordered, computed⟩, counted⟩ := tested
  have unlisted : ∀ statement ∈ (scaling "").statements, statement.instructions = none := by
    simp [scaling]
  obtain ⟨id, expr, found, expanded, evaluates⟩ := expand_evaluates_to_run built read unlisted ordered
    leafCount "%z" (by simpa using computed)
  exact ⟨region, lines, built, read, unlisted, ordered, counted, id, expr, found, expanded,
    counted ▸ evaluates⟩

/-- The loop with a stored value that is printed as a definition of the reference of the read. -/
def redefining : Record :=
  scaling "%a = fmul double 2.0, 3.0"

/-- The definition that is printed with the write hides the read: the product expands to an
    expression with one leaf, where running the listing counts two. -/
theorem redefining_hides_read :
    ∃ region lines, ofRecord redefining = .ok region ∧
      Instruction.readListing redefining.instructions = .ok lines ∧
      (∀ statement ∈ redefining.statements, statement.instructions = none) ∧
      inOrder region.parameters (inductionReferences redefining)
        (region.isLeaf lines) [] lines = true ∧
      "%y" ∈ computedReferences lines ∧ leafCount.run lines "%y" = 2 ∧
      ∃ id expr, region.propagate.1.computations.get? "%y" = some id ∧
        region.propagate.1.arena.expand id = .ok expr ∧ leafCount.eval? expr = some 1 := by
  have passed : passes redefining (fun region lines =>
      inOrder region.parameters (inductionReferences redefining)
        (region.isLeaf lines) [] lines &&
      (computedReferences lines).contains "%y" && leafCount.run lines "%y" == 2 &&
      (region.propagate.1.computations.get? "%y").any fun id =>
        succeeds (region.propagate.1.arena.expand id) fun expr =>
          leafCount.eval? expr == some 1) = true := by
    decide +kernel
  obtain ⟨region, lines, built, read, tested⟩ := exists_of_passes passed
  simp only [Bool.and_eq_true, beq_iff_eq, Option.any_eq_true] at tested
  obtain ⟨⟨⟨ordered, computed⟩, counted⟩, id, found, expands⟩ := tested
  obtain ⟨expr, expanded, leaves⟩ := exists_of_succeeds expands
  exact ⟨region, lines, built, read, by simp [redefining, scaling], ordered,
    by simpa using computed, counted, id, expr, found, expanded, beq_iff_eq.1 leaves⟩

end Region

end RegionFlow
