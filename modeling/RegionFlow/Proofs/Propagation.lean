/-
Module: RegionFlow.Proofs.Propagation
Purpose: What propagation does to a region. Every computation and every access gets its arguments
  resolved, each against the region as it was; nothing else changes. What a reference denotes is a
  parameter, a definition, a read or an induction variable, never a write, so no argument is a write
  afterwards.
Main exports: Region.get?_propagate, Region.flatMap_plan, Region.lookup?_cases, Region.lookup?_kind,
  Region.Sound, Region.Sound.propagate, Region.sound_of_ofRecord
-/
import RegionFlow.Proofs.Building
import RegionFlow.Region.Propagation

namespace RegionFlow

/-- Whether values of this kind write an array element. -/
def ValueKind.isWrite : ValueKind → Bool
  | access .write _ _ _ => true
  | _ => false

/-- A kind that passes a test no write passes is no write. -/
theorem ValueKind.isWrite_eq_false {test : ValueKind → Bool} {kind : ValueKind}
    (apart : ∀ array text incoming, test (.access .write array text incoming) = false)
    (passes : test kind = true) : kind.isWrite = false := by
  unfold isWrite
  split
  · rename_i array text incoming
    rw [apart] at passes
    cases passes
  · rfl

/-- A value reads if it is a read access. -/
theorem Value.kind_of_isRead {value : Value} (reads : value.isRead = true) :
    ∃ array text incoming, value.kind = .access .read array text incoming := by
  unfold Value.isRead at reads
  split at reads
  · rename_i array text incoming kind
    exact ⟨array, text, incoming, kind⟩
  · cases reads

theorem Value.isPlaceholder_iff {value : Value} :
    value.isPlaceholder = true ↔ value.kind = .placeholder := by
  unfold isPlaceholder
  split
  · rename_i kind
    simp [kind]
  · rename_i other
    simpa using other

namespace Region

/-- An access reads if its value is a read. -/
theorem Statement.isReadIn_eq_true_iff {arena : Arena} {access : Access} :
    Statement.isReadIn arena access = true ↔
      ∃ value, arena.get? access.value = some value ∧ value.isRead = true := by
  unfold isReadIn
  cases arena.get? access.value with
  | none => simp
  | some value => simp

variable {region : Region} {reference : String} {id : ValueId}

/-- Arguments after propagation: placeholders are replaced by what they denote or taken out. -/
def resolvedArgs (region : Region) (args : List ValueId) : List ValueId :=
  (args.map region.resolveArg).filterMap Resolution.id?

/-- What is no placeholder is kept. -/
theorem resolveArg_of_isPlaceholderAt (kept : region.isPlaceholderAt id = false) :
    region.resolveArg id = .kept id := by
  unfold resolveArg
  unfold isPlaceholderAt at kept
  cases found : region.arena.get? id with
  | none => rfl
  | some value =>
    simp only [found, Option.map_some, Option.getD_some] at kept
    simp [kept]

/-- Arguments without a placeholder stay as they are. -/
theorem resolvedArgs_eq_self {args : List ValueId} (none : args.any region.isPlaceholderAt = false) :
    region.resolvedArgs args = args := by
  induction args with
  | nil => rfl
  | cons arg args ih =>
    rw [List.any_cons, Bool.or_eq_false_iff] at none
    have rest := ih none.2
    rw [resolvedArgs] at rest
    rw [resolvedArgs, List.map_cons, resolveArg_of_isPlaceholderAt none.1, List.filterMap_cons,
      rest]
    rfl

/-- Putting the arguments of a plan in place changes the arguments of the values that it names. The
    arguments depend on the value alone, so it does not matter how often it is named. -/
theorem get?_applyPlan {plan : List (ValueId × List Resolution)} (args : ValueId → List ValueId)
    (planned : ∀ entry ∈ plan, entry.2.filterMap Resolution.id? = args entry.1) (arena : Arena)
    (id : ValueId) :
    (applyPlan arena plan).get? id = (arena.get? id).map fun value =>
      if id ∈ plan.map Prod.fst then { value with args := args id } else value := by
  induction plan generalizing arena with
  | nil => simp [applyPlan]
  | cons entry plan ih =>
    have later := ih (fun other member => planned other (List.mem_cons_of_mem entry member))
      (arena.setArgs entry.1 (entry.2.filterMap Resolution.id?))
    have unrolled : applyPlan arena (entry :: plan) =
        applyPlan (arena.setArgs entry.1 (entry.2.filterMap Resolution.id?)) plan := rfl
    rw [unrolled, later, Arena.get?_setArgs, planned entry List.mem_cons_self, Option.map_map]
    congr 1
    funext value
    by_cases same : id = entry.1
    · subst same
      simp
    · have unnamed : id ∈ (entry :: plan).map Prod.fst ↔ id ∈ plan.map Prod.fst := by simp [same]
      simp only [Function.comp_apply, if_neg same, unnamed]

/-- The plan names the owners of arguments with a placeholder among them. -/
theorem mem_plan_iff {value : Value} (found : region.arena.get? id = some value) :
    id ∈ region.plan.map Prod.fst ↔
      id ∈ region.argumentOwners ∧ value.args.any region.isPlaceholderAt = true := by
  rw [← Arena.args_of_get? found]
  constructor
  · intro member
    obtain ⟨entry, planned, rfl⟩ := List.mem_map.1 member
    obtain ⟨owner, owns, entered⟩ := List.mem_filterMap.1 planned
    dsimp only at entered
    split at entered
    · rename_i any
      cases entered
      exact ⟨owns, any⟩
    · cases entered
  · rintro ⟨owns, any⟩
    refine List.mem_map.2 ⟨(id, (region.arena.args id).map region.resolveArg), ?_, rfl⟩
    exact List.mem_filterMap.2 ⟨id, owns, by simp only [any, if_true]⟩

/-- Propagation resolves the arguments of computations and accesses and leaves all else as it was. -/
theorem get?_propagate (region : Region) (id : ValueId) :
    region.propagate.1.arena.get? id = (region.arena.get? id).map fun value =>
      if id ∈ region.argumentOwners then { value with args := region.resolvedArgs value.args }
      else value := by
  have planned : ∀ entry ∈ region.plan,
      entry.2.filterMap Resolution.id? = region.resolvedArgs (region.arena.args entry.1) := by
    intro entry member
    obtain ⟨owner, _, entered⟩ := List.mem_filterMap.1 member
    dsimp only at entered
    split at entered
    · cases entered
      rfl
    · cases entered
  change (applyPlan region.arena region.plan).get? id = _
  rw [get?_applyPlan (fun owner => region.resolvedArgs (region.arena.args owner)) planned]
  cases found : region.arena.get? id with
  | none => rfl
  | some value =>
    rw [Option.map_some, Option.map_some, Arena.args_of_get? found]
    congr 1
    by_cases owner : id ∈ region.argumentOwners
    · rw [if_pos owner]
      cases any : value.args.any region.isPlaceholderAt with
      | true => rw [if_pos ((mem_plan_iff found).2 ⟨owner, any⟩)]
      | false =>
        have unnamed : id ∉ region.plan.map Prod.fst := by
          intro member
          have placeholder := ((mem_plan_iff found).1 member).2
          rw [any] at placeholder
          cases placeholder
        rw [if_neg unnamed, resolvedArgs_eq_self any]
    · have unnamed : id ∉ region.plan.map Prod.fst := fun member =>
        owner ((mem_plan_iff found).1 member).1
      rw [if_neg owner, if_neg unnamed]

/-- Propagation keeps all values, their arguments apart. -/
theorem keeps_propagate (region : Region) : region.arena.Keeps region.propagate.1.arena := by
  intro id value found
  rw [get?_propagate, found]
  by_cases owner : id ∈ region.argumentOwners
  · exact ⟨region.resolvedArgs value.args, by rw [Option.map_some, if_pos owner]⟩
  · exact ⟨value.args, by rw [Option.map_some, if_neg owner]⟩

/-- The arguments of a value after propagation. -/
theorem args_propagate {value : Value} (found : region.arena.get? id = some value) :
    region.propagate.1.arena.args id =
      if id ∈ region.argumentOwners then region.resolvedArgs value.args else value.args := by
  have after := get?_propagate region id
  rw [found, Option.map_some] at after
  rw [Arena.args_of_get? after]
  split <;> rfl

/-- What becomes of the arguments of a value. -/
def resolutions (region : Region) (owner : ValueId) : List Resolution :=
  (region.arena.args owner).map region.resolveArg

/-- Arguments without a placeholder are kept. -/
theorem resolutions_eq_kept {owner : ValueId}
    (none : (region.arena.args owner).any region.isPlaceholderAt = false) :
    region.resolutions owner = (region.arena.args owner).map Resolution.kept := by
  refine List.map_congr_left fun arg member => resolveArg_of_isPlaceholderAt ?_
  simpa using List.any_eq_false.1 none arg member

/-- What a plan does, value by value: a value without a placeholder among its arguments adds nothing. -/
theorem flatMap_plan {β : Type} (view : ValueId × List Resolution → List β)
    (none : ∀ owner, (region.arena.args owner).any region.isPlaceholderAt = false →
      view (owner, region.resolutions owner) = []) :
    region.plan.flatMap view =
      region.argumentOwners.flatMap fun owner => view (owner, region.resolutions owner) := by
  unfold plan
  induction region.argumentOwners with
  | nil => rfl
  | cons owner owners ih =>
    rw [List.filterMap_cons, List.flatMap_cons]
    cases any : (region.arena.args owner).any region.isPlaceholderAt with
    | true =>
      simp only [any, if_true, List.flatMap_cons, ih]
      rfl
    | false =>
      simp only [any, Bool.false_eq_true, if_false, ih, none owner any]
      rfl

/-! ### What references denote -/

theorem findRead?_eq_some (found : region.findRead? reference = some id) :
    ∃ name statement access, region.statements.get? name = some statement ∧
      statement.accesses.get? reference = some access ∧
      Statement.isReadIn region.arena access = true ∧ access.value = id := by
  obtain ⟨statement, declared, hit⟩ := List.exists_of_findSome?_eq_some found
  obtain ⟨name, known⟩ := Table.exists_get?_of_mem_values declared
  split at hit
  · rename_i access listed
    split at hit
    · rename_i reads
      exact ⟨name, statement, access, known, listed, reads, Option.some.inj hit⟩
    · cases hit
  · cases hit

theorem findInductionVariable?_eq_some (found : region.findInductionVariable? reference = some id) :
    ∃ name statement, region.statements.get? name = some statement ∧
      statement.loops.get? reference = some id := by
  obtain ⟨statement, declared, hit⟩ := List.exists_of_findSome?_eq_some found
  obtain ⟨name, known⟩ := Table.exists_get?_of_mem_values declared
  exact ⟨name, statement, known, hit⟩

/-- A reference denotes a parameter, failing that a computation, a read, or an induction variable. -/
theorem lookup?_cases (found : region.lookup? reference = some id) :
    (∃ entry, region.parameters.get? reference = some entry ∧ entry.value = id) ∨
      (region.parameters.get? reference = none ∧
        (region.computations.get? reference = some id ∨
          (region.computations.get? reference = none ∧
            (region.findRead? reference = some id ∨
              region.findInductionVariable? reference = some id)))) := by
  unfold lookup? at found
  split at found
  · rename_i entry known
    exact .inl ⟨entry, known, Option.some.inj found⟩
  · rename_i noParameter
    refine .inr ⟨noParameter, ?_⟩
    split at found
    · rename_i known
      exact .inl (known.trans found)
    · rename_i noComputation
      refine .inr ⟨noComputation, ?_⟩
      split at found
      · rename_i known
        exact .inl (known.trans found)
      · exact .inr found

/-- What a reference denotes is what is entered under it, or something that is not made from arguments. -/
theorem lookup?_kind
    (consistent : Consistent region.arena region.parameters region.computations region.statements)
    (found : region.lookup? reference = some id) :
    ∃ value, region.arena.get? id = some value ∧
      ((region.computations.get? reference = some id ∧ value.kind.isDefinition = true) ∨
        (value.kind.isComposite = false ∧ value.isPlaceholder = false)) := by
  have atom : ∀ {name test}, region.arena.Names id name test → test .placeholder = false →
      (∀ kind, test kind = true → kind.isComposite = false) →
      ∃ value, region.arena.get? id = some value ∧
        value.kind.isComposite = false ∧ value.isPlaceholder = false := by
    rintro name test ⟨value, held, _, passes⟩ solid simple
    refine ⟨value, held, simple _ passes, Bool.eq_false_iff.2 fun placeholder => ?_⟩
    rw [Value.isPlaceholder_iff.1 placeholder, solid] at passes
    cases passes
  rcases lookup?_cases found with ⟨entry, known, rfl⟩ | ⟨_, known | ⟨_, known | known⟩⟩
  · have simple : ∀ kind, ValueKind.isParameter kind = true → kind.isComposite = false := by
      intro kind parameter
      cases kind <;> first | rfl | cases parameter
    obtain ⟨value, held, atomic⟩ := atom (consistent.parameter known) rfl simple
    exact ⟨value, held, .inr atomic⟩
  · obtain ⟨value, held, _, kind⟩ := consistent.computation known
    exact ⟨value, held, .inl ⟨known, kind⟩⟩
  · obtain ⟨name, statement, access, _, _, reads, rfl⟩ := findRead?_eq_some known
    obtain ⟨value, held, isRead⟩ := Statement.isReadIn_eq_true_iff.1 reads
    obtain ⟨array, text, incoming, kind⟩ := Value.kind_of_isRead isRead
    refine ⟨value, held, .inr ⟨by rw [kind]; rfl, ?_⟩⟩
    simp [Value.isPlaceholder, kind]
  · obtain ⟨name, statement, declared, listed⟩ := findInductionVariable?_eq_some known
    have simple : ∀ kind, ValueKind.isInductionVariable kind = true →
        kind.isComposite = false := by
      intro kind counts
      cases kind <;> first | rfl | cases counts
    obtain ⟨value, held, atomic⟩ := atom ((consistent.statement declared).loops listed) rfl simple
    exact ⟨value, held, .inr atomic⟩

/-- What a reference denotes is a value, and no write. -/
theorem lookup?_not_write
    (consistent : Consistent region.arena region.parameters region.computations region.statements)
    (found : region.lookup? reference = some id) :
    ∃ value, region.arena.get? id = some value ∧ value.kind.isWrite = false := by
  obtain ⟨value, held, ⟨_, definition⟩ | ⟨simple, _⟩⟩ := lookup?_kind consistent found
  · exact ⟨value, held, ValueKind.isWrite_eq_false (fun _ _ _ => rfl) definition⟩
  · refine ⟨value, held, ?_⟩
    unfold ValueKind.isWrite
    split
    · rename_i kind
      rw [kind] at simple
      cases simple
    · rfl

/-- A read that a reference denotes is that of an access. -/
theorem lookup?_read
    (consistent : Consistent region.arena region.parameters region.computations region.statements)
    (denoted : region.lookup? reference = some id) {value : Value}
    (found : region.arena.get? id = some value) (reads : value.isRead = true) :
    id ∈ accessIds region.statements := by
  obtain ⟨array, text, incoming, kind⟩ := Value.kind_of_isRead reads
  have apart : ∀ {name test}, test (.access .read array text incoming) = false →
      ¬ region.arena.Names id name test := by
    rintro name test fails ⟨other, held, _, passes⟩
    cases found.symm.trans held
    rw [kind, fails] at passes
    cases passes
  rcases lookup?_cases denoted with ⟨entry, known, rfl⟩ | ⟨_, known | ⟨_, known | known⟩⟩
  · exact absurd (consistent.parameter known) (apart rfl)
  · exact absurd (consistent.computation known) (apart rfl)
  · obtain ⟨name, statement, access, declared, listed, _, rfl⟩ := findRead?_eq_some known
    exact List.mem_flatMap.2 ⟨statement, Table.mem_values_of_get? declared,
      List.mem_map.2 ⟨access, Table.mem_values_of_get? listed, rfl⟩⟩
  · obtain ⟨name, statement, declared, listed⟩ := findInductionVariable?_eq_some known
    exact absurd ((consistent.statement declared).loops listed) (apart rfl)

/-! ### Sound regions -/

/-- What holds of a region before and after propagation: its tables are consistent, no value has more
    arguments than its kind takes, no argument is a write, and an argument that is a read is that of an
    access. -/
structure Sound (region : Region) : Prop where
  consistent :
    Consistent region.arena region.parameters region.computations region.statements
  takes : ∀ {id value}, region.arena.get? id = some value → value.kind.Takes value.args.length
  args : ∀ {id value arg}, region.arena.get? id = some value → arg ∈ value.args →
    ∃ argument, region.arena.get? arg = some argument ∧ argument.kind.isWrite = false
  reads : ∀ {id value arg argument}, region.arena.get? id = some value → arg ∈ value.args →
    region.arena.get? arg = some argument → argument.isRead = true →
      arg ∈ accessIds region.statements

/-- The region of a record is sound. -/
theorem sound_of_ofRecord {record : Record} (built : ofRecord record = .ok region) :
    region.Sound := by
  obtain ⟨consistent, made⟩ := ofRecord_ok built
  refine ⟨consistent, fun found => (made found).takes, ?_, ?_⟩
  · intro id value arg found member
    obtain ⟨operand, held, kind⟩ := (made found).operands arg member
    exact ⟨operand, held, ValueKind.isWrite_eq_false (fun _ _ _ => rfl) kind⟩
  · intro id value arg argument found member held reads
    obtain ⟨operand, same, isOperand⟩ := (made found).operands arg member
    cases held.symm.trans same
    obtain ⟨array, text, incoming, kind⟩ := Value.kind_of_isRead reads
    rw [kind] at isOperand
    cases isOperand

/-- An argument after propagation was one before and no placeholder, or is what the reference of a
    placeholder denotes. -/
theorem mem_resolvedArgs {args : List ValueId} {arg : ValueId}
    (member : arg ∈ region.resolvedArgs args) :
    (arg ∈ args ∧ region.isPlaceholderAt arg = false) ∨
      ∃ old ∈ args, ∃ value, region.arena.get? old = some value ∧ value.isPlaceholder = true ∧
        region.lookup? value.reference = some arg := by
  obtain ⟨resolution, resolved, kept⟩ := List.mem_filterMap.1 member
  obtain ⟨old, inside, rfl⟩ := List.mem_map.1 resolved
  unfold resolveArg at kept
  split at kept
  · rename_i missing
    cases kept
    exact .inl ⟨inside, by simp [isPlaceholderAt, missing]⟩
  · rename_i value found
    split at kept
    · rename_i placeholder
      split at kept
      · rename_i denoted
        cases kept
        exact .inr ⟨old, inside, value, found, placeholder, denoted⟩
      · cases kept
    · rename_i solid
      cases kept
      exact .inl ⟨inside, by simpa [isPlaceholderAt, found] using solid⟩

/-- There are no more arguments after propagation than before. -/
theorem length_resolvedArgs_le (args : List ValueId) :
    (region.resolvedArgs args).length ≤ args.length :=
  Nat.le_trans (List.length_filterMap_le _ _) (Nat.le_of_eq (List.length_map _))

/-- What a value is after propagation: it has the arguments that it had, or these are resolved. -/
theorem get?_propagate_cases {value : Value}
    (found : region.propagate.1.arena.get? id = some value) :
    ∃ old, region.arena.get? id = some old ∧
      (value = old ∨ value = { old with args := region.resolvedArgs old.args }) := by
  rw [get?_propagate] at found
  obtain ⟨old, held, resolved⟩ := Option.map_eq_some_iff.1 found
  refine ⟨old, held, ?_⟩
  split at resolved
  · exact .inr resolved.symm
  · exact .inl resolved.symm

/-- An argument after propagation was one before, or is what a reference denotes. -/
theorem arg_propagate_cases {value : Value} {arg : ValueId}
    (found : region.propagate.1.arena.get? id = some value) (member : arg ∈ value.args) :
    (∃ old, region.arena.get? id = some old ∧ arg ∈ old.args) ∨
      ∃ reference, region.lookup? reference = some arg := by
  obtain ⟨old, held, rfl | rfl⟩ := get?_propagate_cases found
  · exact .inl ⟨value, held, member⟩
  · rcases mem_resolvedArgs member with ⟨before, _⟩ | ⟨_, _, _, _, _, denoted⟩
    · exact .inl ⟨old, held, before⟩
    · exact .inr ⟨_, denoted⟩

/-- Propagation keeps a region sound. -/
theorem Sound.propagate (sound : region.Sound) : region.propagate.1.Sound := by
  have keeps := keeps_propagate region
  refine ⟨sound.consistent.keep keeps, ?_, ?_, ?_⟩
  · intro id value found
    obtain ⟨old, held, rfl | rfl⟩ := get?_propagate_cases found
    · exact sound.takes held
    · exact (sound.takes held).mono (length_resolvedArgs_le old.args)
  · intro id value arg found member
    have argument : ∃ argument, region.arena.get? arg = some argument ∧
        argument.kind.isWrite = false := by
      rcases arg_propagate_cases found member with ⟨old, held, before⟩ | ⟨_, denoted⟩
      · exact sound.args held before
      · exact lookup?_not_write sound.consistent denoted
    obtain ⟨argument, held, kind⟩ := argument
    obtain ⟨args, kept⟩ := keeps held
    exact ⟨_, kept, kind⟩
  · intro id value arg argument found member held reads
    obtain ⟨before, was, same⟩ := get?_propagate_cases held
    have read : before.isRead = true := by
      rcases same with rfl | rfl
      · exact reads
      · exact reads
    have listed : arg ∈ accessIds region.statements := by
      rcases arg_propagate_cases found member with ⟨old, there, inside⟩ | ⟨_, denoted⟩
      · exact sound.reads there inside was read
      · exact lookup?_read sound.consistent denoted was read
    exact listed

/-! ### Accesses of sound regions -/

theorem accessArray?_eq_some {value : Value} {direction : AccessKind} {array text : String}
    {incoming : Option String} (found : region.arena.get? id = some value)
    (kind : value.kind = .access direction array text incoming) :
    region.accessArray? id = some (array, direction) := by
  simp [accessArray?, found, kind]

/-- An access is the only one with its value. -/
theorem Sound.accessOf?_eq_some (sound : region.Sound) {statement : Statement}
    (declared : statement ∈ region.statements.values) {access : Access}
    (member : access ∈ statement.accesses.values) :
    region.accessOf? access.value = some access := by
  have listed : access ∈ region.statements.values.flatMap fun statement =>
      statement.accesses.values := List.mem_flatMap.2 ⟨statement, declared, member⟩
  have distinct : ((region.statements.values.flatMap fun statement =>
      statement.accesses.values).map Access.value).Nodup := by
    rw [List.map_flatMap]
    exact sound.consistent.distinct
  rw [accessOf?, ← List.find?_flatMap]
  cases found : (region.statements.values.flatMap fun statement =>
      statement.accesses.values).find? fun other => other.value == access.value with
  | none => exact absurd (List.find?_eq_none.1 found access listed) (by simp)
  | some other =>
    have same : other.value = access.value := by simpa using List.find?_some found
    rw [List.inj_on_of_nodup_map distinct (List.mem_of_find?_eq_some found) listed same]

/-- The access that a value belongs to is one of a statement, and the value is its value. -/
theorem exists_of_accessOf? {access : Access} (owned : region.accessOf? id = some access) :
    ∃ statement ∈ region.statements.values, access ∈ statement.accesses.values ∧
      access.value = id := by
  obtain ⟨statement, declared, found⟩ := List.exists_of_findSome?_eq_some owned
  exact ⟨statement, declared, List.mem_of_find?_eq_some found,
    by simpa using List.find?_some found⟩

/-- An access of a statement has an access to the array of its relation for its value. -/
theorem Sound.access_kind (sound : region.Sound) {statement : Statement}
    (declared : statement ∈ region.statements.values) {access : Access}
    (member : access ∈ statement.accesses.values) :
    ∃ value direction array text incoming, region.arena.get? access.value = some value ∧
      value.kind = .access direction array text incoming ∧
      Draft.targetArray? access.relation = some array := by
  obtain ⟨name, found⟩ := Table.exists_get?_of_mem_values declared
  obtain ⟨key, known⟩ := Table.exists_get?_of_mem_values member
  obtain ⟨_, ⟨array, target, value, held, _, kind⟩, _⟩ :=
    (sound.consistent.statement found).accesses known
  unfold ValueKind.isAccessOf at kind
  split at kind
  · rename_i direction touched text incoming valueKind
    cases beq_iff_eq.1 kind
    exact ⟨value, direction, array, text, incoming, held, valueKind, target⟩
  · cases kind

theorem Statement.access_of_reads {arena : Arena} {statement : Statement} {entry : String × Access}
    (member : entry ∈ statement.reads arena) : entry.2 ∈ statement.accesses.values :=
  List.mem_map.2 ⟨entry, (List.mem_filter.1 member).1, rfl⟩

theorem Statement.access_of_writes {arena : Arena} {statement : Statement} {entry : String × Access}
    (member : entry ∈ statement.writes arena) : entry.2 ∈ statement.accesses.values :=
  List.mem_map.2 ⟨entry, (List.mem_filter.1 member).1, rfl⟩

/-- A read of a statement has a read for its value. -/
theorem Statement.read_kind {arena : Arena} {statement : Statement} {entry : String × Access}
    (member : entry ∈ statement.reads arena) :
    ∃ value array text incoming, arena.get? entry.2.value = some value ∧
      value.kind = .access .read array text incoming := by
  obtain ⟨value, found, reads⟩ := isReadIn_eq_true_iff.1 (List.mem_filter.1 member).2
  obtain ⟨array, text, incoming, kind⟩ := Value.kind_of_isRead reads
  exact ⟨value, array, text, incoming, found, kind⟩

/-- A write of a statement has a write to the array of its relation for its value. -/
theorem Sound.write_kind (sound : region.Sound) {statement : Statement}
    (declared : statement ∈ region.statements.values) {entry : String × Access}
    (member : entry ∈ statement.writes region.arena) :
    ∃ value array text incoming, region.arena.get? entry.2.value = some value ∧
      value.kind = .access .write array text incoming ∧
      Draft.targetArray? entry.2.relation = some array := by
  have notRead := (List.mem_filter.1 member).2
  obtain ⟨value, direction, array, text, incoming, held, kind, target⟩ :=
    sound.access_kind declared (Statement.access_of_writes member)
  cases direction with
  | read => simp [Statement.isReadIn, held, Value.isRead, kind] at notRead
  | write => exact ⟨value, array, text, incoming, held, kind, target⟩

end Region

end RegionFlow
