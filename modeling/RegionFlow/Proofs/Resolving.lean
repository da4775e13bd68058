/-
Module: RegionFlow.Proofs.Resolving
Purpose: Propagation resolves everything in one pass. What a reference denotes either has arguments that are
  resolved in the same pass or has none, so nothing that a computation or an access leads to afterwards is a
  placeholder. Hence validation meets cycles only, a second pass has nothing to do, and a record whose
  dropped references are accepted is never refused for an unresolved value.
Main exports: Region.Settled, Region.settled_of_reaches, Arena.validate_resolved,
  Record.propagate_resolves
-/
import RegionFlow.Proofs.Failing
import RegionFlow.Proofs.Lifting
import RegionFlow.Proofs.Searching

namespace RegionFlow

open Search Sequencing

namespace Region

variable {record : Record} {region : Region} {id : ValueId} {reference : String}

/-- A place holds no placeholder, and its arguments, if it has any, are resolved by propagation. -/
def Settled (region : Region) (id : ValueId) : Prop :=
  ∃ value, region.arena.get? id = some value ∧ value.isPlaceholder = false ∧
    (value.args = [] ∨ id ∈ region.argumentOwners)

/-- A value that owns its arguments is settled if it has a kind that no placeholder has. -/
theorem settled_of_names {test : ValueKind → Bool}
    (names : region.arena.Names id reference test) (solid : test .placeholder = false)
    (owner : id ∈ region.argumentOwners) : region.Settled id := by
  obtain ⟨value, found, _, passes⟩ := names
  refine ⟨value, found, ?_, .inr owner⟩
  by_contra placeholder
  rw [Bool.not_eq_false, Value.isPlaceholder_iff] at placeholder
  rw [placeholder, solid] at passes
  cases passes

theorem mem_argumentOwners_of_computation (found : region.computations.get? reference = some id) :
    id ∈ region.argumentOwners :=
  List.mem_append_left _ (Table.mem_values_of_get? found)

theorem mem_argumentOwners_of_access {statement : Statement} {access : Access}
    (declared : statement ∈ region.statements.values)
    (member : access ∈ statement.accesses.values) : access.value ∈ region.argumentOwners :=
  List.mem_append_right _
    (List.mem_flatMap.2 ⟨statement, declared, List.mem_map.2 ⟨access, member, rfl⟩⟩)

/-- The value of an access is settled. -/
theorem settled_of_access (built : ofRecord record = .ok region) {statement : Statement}
    {access : Access} (declared : statement ∈ region.statements.values)
    (member : access ∈ statement.accesses.values) : region.Settled access.value := by
  obtain ⟨name, found⟩ := Table.exists_get?_of_mem_values declared
  obtain ⟨key, known⟩ := Table.exists_get?_of_mem_values member
  obtain ⟨_, ⟨array, _, names⟩, _⟩ := ((ofRecord_ok built).1.statement found).accesses known
  exact settled_of_names names rfl (mem_argumentOwners_of_access declared member)

/-- What a reference denotes is settled. -/
theorem settled_of_lookup? (built : ofRecord record = .ok region)
    (denoted : region.lookup? reference = some id) : region.Settled id := by
  obtain ⟨consistent, made⟩ := ofRecord_ok built
  obtain ⟨value, found, ⟨known, _⟩ | ⟨simple, solid⟩⟩ := lookup?_kind consistent denoted
  · exact settled_of_names (consistent.computation known) rfl
      (mem_argumentOwners_of_computation known)
  · exact ⟨value, found, solid, .inl ((made found).args_eq_nil simple)⟩

/-- Computations and accesses are settled. -/
theorem settled_of_mem_argumentOwners (built : ofRecord record = .ok region)
    (owner : id ∈ region.argumentOwners) : region.Settled id := by
  rcases List.mem_append.1 owner with computed | accessed
  · obtain ⟨reference, found⟩ := Table.exists_get?_of_mem_values computed
    exact settled_of_names ((ofRecord_ok built).1.computation found) rfl owner
  · obtain ⟨statement, declared, inside⟩ := List.mem_flatMap.1 accessed
    obtain ⟨access, member, rfl⟩ := List.mem_map.1 inside
    exact settled_of_access built declared member

/-- After propagation, the arguments of a settled value are settled. -/
theorem Settled.arg (built : ofRecord record = .ok region) (settled : region.Settled id)
    {arg : ValueId} (member : arg ∈ region.propagate.1.arena.args id) : region.Settled arg := by
  obtain ⟨value, found, _, owned⟩ := settled
  rw [args_propagate found] at member
  split at member
  · rcases mem_resolvedArgs member with ⟨before, solid⟩ | ⟨_, _, _, _, _, denoted⟩
    · -- an operand that is no placeholder is a constant
      obtain ⟨operand, held, kind⟩ := ((ofRecord_ok built).2 found).operands arg before
      refine ⟨operand, held, by simpa [isPlaceholderAt, held] using solid, .inl ?_⟩
      apply ((ofRecord_ok built).2 held).args_eq_nil
      cases operandKind : operand.kind <;> first | rfl | simp [operandKind, ValueKind.isOperand] at kind
    · exact settled_of_lookup? built denoted
  · rename_i unowned
    rw [owned.resolve_right unowned] at member
    cases member

/-- After propagation, all that a settled value leads to is settled. -/
theorem settled_of_reaches (built : ofRecord record = .ok region) {root : ValueId}
    (settled : region.Settled root)
    (reaches : Reaches region.propagate.1.arena.args root id) : region.Settled id := by
  induction reaches with
  | refl => exact settled
  | tail _ successor ih => exact ih.arg built successor

/-- A settled value is still no placeholder after propagation. -/
theorem Settled.solid (settled : region.Settled id) :
    ∃ value, region.propagate.1.arena.get? id = some value ∧ value.isPlaceholder = false := by
  obtain ⟨value, found, solid, _⟩ := settled
  obtain ⟨args, kept⟩ := keeps_propagate region found
  exact ⟨_, kept, solid⟩

/-! ### The second pass -/

/-- Propagation does nothing where no value that owns its arguments has a placeholder among them. -/
theorem propagate_eq_self
    (none : ∀ owner ∈ region.argumentOwners,
      (region.arena.args owner).any region.isPlaceholderAt = false) :
    region.propagate = (region, ⟨0, []⟩) := by
  have nothing : region.plan = [] := by
    refine List.filterMap_eq_nil_iff.2 fun owner owns => ?_
    simp [none owner owns]
  rw [propagate, nothing]
  rfl

/-- A region that was propagated has no placeholder among its arguments. -/
theorem propagated_eq_self (built : ofRecord record = .ok region) :
    region.propagate.1.propagate = (region.propagate.1, ⟨0, []⟩) := by
  apply propagate_eq_self
  intro owner owns
  rw [List.any_eq_false]
  intro arg member placeholder
  have settled := (settled_of_mem_argumentOwners built owns).arg built member
  obtain ⟨value, found, solid⟩ := settled.solid
  simp [isPlaceholderAt, found, solid] at placeholder

end Region

/-! ### Validation -/

namespace Arena

/-- Where only resolved places can be reached, validation finds a cycle or nothing. -/
theorem validate_resolved {arena : Arena} {root : ValueId}
    (resolved : ∀ id, Reaches arena.args root id → arena.IsResolved id) :
    arena.validate root = .ok () ∨ ∃ place, arena.validate root = .error (.cycle place) := by
  rcases arena.validate_cases root with ⟨valid, _⟩ | ⟨flaw, failed, shown⟩
  · exact .inl valid
  · cases shown with
    | unresolved reaches missing => exact absurd (resolved _ reaches) missing
    | cycle _ _ => exact .inr ⟨_, failed⟩

end Arena

namespace Region

variable {record : Record} {region : Region} {finding : Finding}

/-- A flaw other than an unresolved value. -/
def Flaw.IsResolved (flaw : Flaw) : Prop :=
  ∀ reference, flaw ≠ .unresolved reference

/-- What is found wrong with a statement is not that a value is unresolved. -/
theorem isResolved_of_statementFindings {statement : Statement}
    (member : finding ∈ region.statementFindings statement) : finding.flaw.IsResolved := by
  simp only [statementFindings, List.mem_append, List.mem_map, List.mem_flatMap] at member
  rcases member with (⟨flaw, ⟨piece, _, wrong⟩, rfl⟩ | ⟨entry, _, flaw, wrong, rfl⟩) |
    ⟨flaw, wrong, rfl⟩
  · simp only [domainPieceFlaws, List.mem_append] at wrong
    rcases wrong with foreign | tooMany
    · split at foreign <;> simp_all [Flaw.IsResolved]
    · split at tooMany <;> simp_all [Flaw.IsResolved]
  · unfold accessFlaws at wrong
    split at wrong
    · simp_all [Flaw.IsResolved]
    · split at wrong
      · simp_all [Flaw.IsResolved]
      · obtain ⟨piece, _, wrong⟩ := List.mem_flatMap.1 wrong
        simp only [accessPieceFlaws, List.mem_append] at wrong
        rcases wrong with foreign | count
        · split at foreign <;> simp_all [Flaw.IsResolved]
        · split at count <;> simp_all [Flaw.IsResolved]
  · obtain ⟨id, _, wrong⟩ := List.mem_filterMap.1 wrong
    unfold loopFlaw? at wrong
    split at wrong
    · cases wrong
    · split at wrong
      · split at wrong
        · cases wrong
        · cases wrong
          simp [Flaw.IsResolved]
      · cases wrong

/-- What is found wrong with a region is not that a value is unresolved, if no computation and no
    access leads to a placeholder. -/
theorem isResolved_of_findings
    (valid : ∀ owner ∈ region.argumentOwners, region.arena.validate owner = .ok () ∨
      ∃ place, region.arena.validate owner = .error (.cycle place))
    (member : finding ∈ region.findings) : finding.flaw.IsResolved := by
  have value : ∀ {location id}, id ∈ region.argumentOwners →
      finding ∈ region.valueFindings location id → finding.flaw.IsResolved := by
    intro location id owner wrong
    rcases valid id owner with sound | ⟨place, cyclic⟩
    · simp [valueFindings, sound] at wrong
    · simp only [valueFindings, cyclic, List.mem_singleton] at wrong
      simp [wrong, Flaw.IsResolved]
  simp only [findings, allValueFindings, List.mem_append, List.mem_map, List.mem_flatMap] at member
  rcases member with (((⟨entry, listed, wrong⟩ | ⟨statement, declared, entry, listed, wrong⟩) |
    ⟨statement, _, wrong⟩) | ⟨name, _, rfl⟩) | ⟨entry, _, name, _, rfl⟩
  · exact value (mem_argumentOwners_of_computation (Table.get?_eq_some_iff.2 listed)) wrong
  · exact value (mem_argumentOwners_of_access declared (List.mem_map.2 ⟨entry, listed, rfl⟩)) wrong
  · exact isResolved_of_statementFindings wrong
  · simp [Flaw.IsResolved]
  · simp [Flaw.IsResolved]

/-- A region that is not verified has a finding. -/
theorem exists_finding {failure : Failure} (unverified : region.verify = .error failure) :
    ∃ finding ∈ region.findings, failure = .finding finding := by
  unfold verify at unverified
  split at unverified
  · cases unverified
  · rename_i finding rest found
    cases unverified
    exact ⟨finding, found ▸ List.mem_cons_self, rfl⟩

/-- Validation of a settled value after propagation succeeds or finds a cycle. -/
theorem Settled.validate (built : ofRecord record = .ok region) {id : ValueId}
    (settled : region.Settled id) :
    region.propagate.1.arena.validate id = .ok () ∨
      ∃ place, region.propagate.1.arena.validate id = .error (.cycle place) :=
  Arena.validate_resolved fun _ reaches => (settled_of_reaches built settled reaches).solid

end Region

namespace Record

/-- After propagation, no computation and no access of the region of a record leads to a
    placeholder, so validation of whatever they lead to succeeds or finds a cycle; propagating once
    more changes nothing; and a record is never refused for an unresolved value unless references
    without a producer are refused. -/
theorem propagate_resolves (record : Record) :
    (∀ {region}, Region.ofRecord record = .ok region →
      (∀ root ∈ region.propagate.1.argumentOwners, ∀ id,
        Reaches region.propagate.1.arena.args root id →
          (∃ value, region.propagate.1.arena.get? id = some value ∧ value.isPlaceholder = false) ∧
          (region.propagate.1.arena.validate id = .ok () ∨
            ∃ place, region.propagate.1.arena.validate id = .error (.cycle place))) ∧
      region.propagate.1.propagate = (region.propagate.1, ⟨0, []⟩)) ∧
    ∀ {options failure}, options.strictReferences = false →
      record.resolve options = .error failure → failure.category ≠ "UnresolvedValue" := by
  refine ⟨fun built => ⟨fun root owner id reaches => ?_, Region.propagated_eq_self built⟩, ?_⟩
  · have settled := Region.settled_of_reaches built
      (Region.settled_of_mem_argumentOwners built owner) reaches
    exact ⟨settled.solid, settled.validate built⟩
  · intro options failure lenient failed
    rcases bind_eq_error.1 failed with unbuilt | ⟨region, built, failed⟩
    · rcases Region.failsOnly_ofRecord record failure unbuilt with ⟨_, _, rfl⟩ | ⟨_, _, rfl⟩
      · simp [Failure.category]
      · simp [Failure.category]
    · rcases bind_eq_error.1 failed with strict | ⟨_, _, failed⟩
      · simp [checkReferences, lenient] at strict
      · rcases bind_eq_error.1 failed with unverified | ⟨_, _, joined⟩
        · obtain ⟨finding, member, rfl⟩ := Region.exists_finding unverified
          have valid := fun root (owner : root ∈ region.propagate.1.argumentOwners) =>
            (Region.settled_of_mem_argumentOwners built owner).validate built
          have resolved := Region.isResolved_of_findings valid member
          cases flaw : finding.flaw with
          | unresolved reference => exact absurd flaw (resolved reference)
          | _ => simp [Failure.category, flaw]
        · cases joined

/-- A loop that adds to its own sum something that nothing defines. -/
def accumulating : Record where
  name := "accumulate"
  context := ""
  schedule := ""
  parameters := []
  arrays := [⟨"A", .array, ["*"], "double", ""⟩]
  dependences := ⟨"", "", "", "", ""⟩
  instructions := "%x = fadd double %x, %u\n"
  statements := [
    { name := "S"
      domain := "\x7b S[i0] : 0 <= i0 <= 9 \x7d"
      affine := some true
      loops := ["%i = phi i64 [ 0, %e ]"]
      accesses := [⟨.write, "\x7b S[i0] -> A[i0] \x7d", "store double %x, ptr %p", ""⟩]
      instructions := none }]
  aliasGroups := []

/-- Two placeholders are replaced and one is dropped at once, after which nothing is left to do; the
    sum leads to itself, and the record is refused for that. -/
theorem accumulating_propagate_resolves :
    ∃ region failure, Region.ofRecord accumulating = .ok region ∧
      region.propagate.2 = ⟨2, [⟨"%x", "%u"⟩]⟩ ∧
      (∃ root ∈ region.propagate.1.argumentOwners,
        ∃ place, region.propagate.1.arena.validate root = .error (.cycle place)) ∧
      region.propagate.1.propagate = (region.propagate.1, ⟨0, []⟩) ∧
      accumulating.resolve Options.standard = .error failure ∧
      failure.category ≠ "UnresolvedValue" := by
  have evaluated : succeeds (Region.ofRecord accumulating) (fun region =>
      region.propagate.2 == ⟨2, [⟨"%x", "%u"⟩]⟩ &&
        region.propagate.1.argumentOwners.any fun root =>
          decide (region.propagate.1.arena.validate root ≠ .ok ())) = true := by
    decide +kernel
  have refused : fails (accumulating.resolve Options.standard) (fun _ => true) = true := by
    decide +kernel
  obtain ⟨region, built, evaluated⟩ := exists_of_succeeds evaluated
  obtain ⟨failure, failed, _⟩ := exists_of_fails refused
  simp only [Bool.and_eq_true, beq_iff_eq, List.any_eq_true, decide_eq_true_eq] at evaluated
  obtain ⟨report, root, owner, flawed⟩ := evaluated
  obtain ⟨resolves, never⟩ := propagate_resolves accumulating
  obtain ⟨resolved, unchanged⟩ := resolves built
  exact ⟨region, failure, built, report, ⟨root, owner, (resolved root owner root .refl).2.resolve_left
    flawed⟩, unchanged, failed, never rfl failed⟩

end Record

end RegionFlow
