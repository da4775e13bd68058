/-
Module: RegionFlow.Proofs.WellFormedness
Purpose: The representation invariant of regions. In the region of a record, before and after
  propagation, every table leads to values of its kind, known by the key, and no two entries share a
  value; computations are kept apart from induction variables and from merges without a form; and
  values have no more arguments than their kind takes. All places that tables and arguments name
  hold values, so nothing that is done with the region meets a place without one.
Main exports: Region.tableIds, Region.WellFormed, Region.NeverMisses, Record.wellFormed_ofRecord
-/
import RegionFlow.Proofs.Definitions
import RegionFlow.Proofs.Obstacles
import RegionFlow.Proofs.Resolving

namespace RegionFlow

open Search Sequencing

/-- Whether values of this kind are accesses. -/
def ValueKind.isAccess : ValueKind → Bool
  | access _ _ _ _ => true
  | _ => false

/-- No kind is of two of the sorts that the tables name. -/
theorem ValueKind.sorts_apart (kind : ValueKind) :
    (kind.isInductionVariable = true → kind.isAccess = false) ∧
      (kind.isDefinition = true → (kind.isInductionVariable || kind.isAccess) = false) ∧
      (kind.isParameter = true →
        (kind.isDefinition || (kind.isInductionVariable || kind.isAccess)) = false) := by
  cases kind <;> simp [isParameter, isDefinition, isInductionVariable, isAccess]

namespace Arena

variable {arena : Arena} {one two : ValueKind → Bool} {first second : List ValueId}

/-- Places hold values whose kinds pass a test. -/
def AllPass (arena : Arena) (test : ValueKind → Bool) (ids : List ValueId) : Prop :=
  ∀ id ∈ ids, ∃ value, arena.get? id = some value ∧ test value.kind = true

theorem AllPass.append (ones : arena.AllPass one first) (twos : arena.AllPass two second) :
    arena.AllPass (fun kind => one kind || two kind) (first ++ second) := by
  intro id member
  rcases List.mem_append.1 member with inFirst | inSecond
  · obtain ⟨value, found, passes⟩ := ones id inFirst
    exact ⟨value, found, by simp [passes]⟩
  · obtain ⟨value, found, passes⟩ := twos id inSecond
    exact ⟨value, found, by simp [passes]⟩

/-- Lists of places without repetition have none together, if no kind passes both tests. -/
theorem AllPass.nodup_append (ones : arena.AllPass one first) (twos : arena.AllPass two second)
    (apart : ∀ kind, one kind = true → two kind = false) (firstDistinct : first.Nodup)
    (secondDistinct : second.Nodup) : (first ++ second).Nodup := by
  refine List.nodup_append.2 ⟨firstDistinct, secondDistinct, ?_⟩
  intro id inFirst other inSecond same
  obtain ⟨value, found, passes⟩ := ones id inFirst
  obtain ⟨_, held, also⟩ := twos other inSecond
  rw [same] at found
  cases found.symm.trans held
  rw [apart value.kind passes] at also
  cases also

end Arena

namespace Region

variable {record : Record} {region : Region}

/-- The places that the tables of a region name, entry by entry. -/
def tableIds (region : Region) : List ValueId :=
  region.parameters.values.map Parameter.value ++
    (region.computations.values ++ (loopIds region.statements ++ accessIds region.statements))

/-- The representation invariant of the region of a record. -/
structure WellFormed (record : Record) (region : Region) : Prop where
  /-- The places in the tables are places of the arena. -/
  tables : ∀ id ∈ region.tableIds, id.index < region.arena.size
  /-- The places in argument lists are places of the arena. -/
  args : ∀ {id value}, region.arena.get? id = some value →
    ∀ arg ∈ value.args, arg.index < region.arena.size
  /-- The table of parameters leads to parameters with the reference. -/
  parameter : ∀ {reference entry}, region.parameters.get? reference = some entry →
    region.arena.Names entry.value reference ValueKind.isParameter
  /-- The table of computations leads to computations and merges with the reference. -/
  computation : ∀ {reference id}, region.computations.get? reference = some id →
    region.arena.Names id reference ValueKind.isDefinition
  /-- The tables of loops lead to induction variables with the reference. -/
  loop : ∀ statement ∈ region.statements.values, ∀ {reference id},
    statement.loops.get? reference = some id →
      region.arena.Names id reference ValueKind.isInductionVariable
  /-- The tables of accesses lead to accesses to the array that the relation leads to. -/
  access : ∀ statement ∈ region.statements.values, ∀ access ∈ statement.accesses.values,
    ∃ value direction array text incoming, region.arena.get? access.value = some value ∧
      value.kind = .access direction array text incoming ∧
      Draft.targetArray? access.relation = some array
  /-- No place occurs in two entries. -/
  distinct : region.tableIds.Nodup
  /-- No computation has the reference of an induction variable or of a merge without a form. -/
  free : ∀ reference, region.computations.contains reference = true →
    reference ∉ inductionReferences record ∧ ¬ record.Rejects reference
  /-- A value has no more arguments than its kind takes. -/
  takes : ∀ {id value}, region.arena.get? id = some value → value.kind.Takes value.args.length

/-- What is done with a region meets no place without a value. -/
structure NeverMisses (region : Region) : Prop where
  /-- Arguments lead from the tables to values only. -/
  reached : ∀ root ∈ region.tableIds, ∀ id, Reaches region.arena.args root id →
    ∃ value, region.arena.get? id = some value
  /-- Propagation resolves the arguments of values in the tables, and to such values. -/
  resolves : (∀ owner ∈ region.argumentOwners, owner ∈ region.tableIds) ∧
    ∀ {reference id}, region.lookup? reference = some id → id ∈ region.tableIds
  /-- The flaw that validation finds is one of a value. -/
  validates : ∀ owner ∈ region.argumentOwners, ∀ {flaw},
    region.arena.validate owner = .error flaw →
      ∃ value, region.arena.get? flaw.place = some value
  /-- Generation reports no missing value. -/
  generates : ∀ id, Graph.ofRegion region ≠ .error (.missingValue id)
  /-- A pair on which comparison with a graph fails has a value. -/
  compares : ∀ graph, ∀ statement ∈ region.statements.values,
    ∀ entry ∈ statement.writes region.arena, ∀ stored ∈ region.arena.args entry.2.value,
      ∀ {dims depth nodeId agreed pair},
        (Graph.compareBelow region graph statement dims depth stored nodeId).run agreed = .error pair →
          ∃ value, region.arena.get? pair.1 = some value

/-! ### Tables -/

namespace Sound

variable (sound : region.Sound)

include sound

theorem allPass_parameters :
    region.arena.AllPass ValueKind.isParameter (region.parameters.values.map Parameter.value) := by
  intro id member
  obtain ⟨entry, listed, rfl⟩ := List.mem_map.1 member
  obtain ⟨reference, known⟩ := Table.exists_get?_of_mem_values listed
  obtain ⟨value, found, _, passes⟩ := sound.consistent.parameter known
  exact ⟨value, found, passes⟩

theorem allPass_computations :
    region.arena.AllPass ValueKind.isDefinition region.computations.values := by
  intro id member
  obtain ⟨reference, known⟩ := Table.exists_get?_of_mem_values member
  obtain ⟨value, found, _, passes⟩ := sound.consistent.computation known
  exact ⟨value, found, passes⟩

theorem names_loop {statement : Statement} (declared : statement ∈ region.statements.values)
    {reference : String} {id : ValueId} (known : statement.loops.get? reference = some id) :
    region.arena.Names id reference ValueKind.isInductionVariable := by
  obtain ⟨name, found⟩ := Table.exists_get?_of_mem_values declared
  exact (sound.consistent.statement found).loops known

theorem allPass_loops :
    region.arena.AllPass ValueKind.isInductionVariable (loopIds region.statements) := by
  intro id member
  obtain ⟨statement, declared, inside⟩ := List.mem_flatMap.1 member
  obtain ⟨reference, known⟩ := Table.exists_get?_of_mem_values inside
  obtain ⟨value, found, _, passes⟩ := sound.names_loop declared known
  exact ⟨value, found, passes⟩

theorem allPass_accesses :
    region.arena.AllPass ValueKind.isAccess (accessIds region.statements) := by
  intro id member
  obtain ⟨statement, declared, inside⟩ := List.mem_flatMap.1 member
  obtain ⟨access, listed, rfl⟩ := List.mem_map.1 inside
  obtain ⟨value, _, _, _, _, found, kind, _⟩ := sound.access_kind declared listed
  exact ⟨value, found, by rw [kind]; rfl⟩

/-- The places in the tables hold values, and none occurs twice. -/
theorem tableIds :
    (∀ id ∈ region.tableIds, ∃ value, region.arena.get? id = some value) ∧
      region.tableIds.Nodup := by
  have computations : region.computations.values.Nodup := by
    have named : (region.computations.values.map fun id => id).Nodup :=
      nodup_of_names sound.consistent.computation
    rwa [List.map_id'] at named
  -- the four parts of the list have no place in common, because no kind is of two sorts
  have loops := sound.allPass_loops.append sound.allPass_accesses
  have loopsDistinct := sound.allPass_loops.nodup_append sound.allPass_accesses
    (fun kind => kind.sorts_apart.1) sound.consistent.separate sound.consistent.distinct
  have computed := sound.allPass_computations.append loops
  have computedDistinct := sound.allPass_computations.nodup_append loops
    (fun kind => kind.sorts_apart.2.1) computations loopsDistinct
  have whole := sound.allPass_parameters.append computed
  refine ⟨fun id member => ?_, sound.allPass_parameters.nodup_append computed
    (fun kind => kind.sorts_apart.2.2) (nodup_of_names sound.consistent.parameter) computedDistinct⟩
  obtain ⟨value, found, _⟩ := whole id member
  exact ⟨value, found⟩

/-- A sound region is well formed, if its computations are kept apart. -/
theorem wellFormed (free : ∀ reference, region.computations.contains reference = true →
      reference ∉ inductionReferences record ∧ ¬ record.Rejects reference) :
    region.WellFormed record where
  tables := by
    intro id member
    obtain ⟨value, found⟩ := sound.tableIds.1 id member
    exact Arena.lt_size found
  args := by
    intro id value found arg member
    obtain ⟨argument, held, _⟩ := sound.args found member
    exact Arena.lt_size held
  parameter := sound.consistent.parameter
  computation := sound.consistent.computation
  loop := fun _ declared {_ _} known => sound.names_loop declared known
  access := fun _ declared _ member => sound.access_kind declared member
  distinct := sound.tableIds.2
  free := free
  takes := sound.takes

end Sound

end Region

/-! ### Places without a value -/

namespace Graph

variable {region : Region} {statement : Region.Statement} {dims : List String}

/-- A pair on which a comparison fails is one that the value leads to. -/
theorem failsOnly_compareBelow (graph : Graph) {depth : Nat} {id : ValueId} {nodeId : NodeId}
    (agreed : List (ValueId × NodeId)) :
    FailsOnly (fun pair => Reaches region.arena.args id pair.1)
      ((compareBelow region graph statement dims depth id nodeId).run agreed) := by
  induction depth generalizing id nodeId agreed with
  | zero => exact failsOnly_error .refl
  | succ depth ih =>
    rw [compareBelow_succ, compareStep]
    refine FailsOnly.run_bind (failsOnly_ok (agreed, agreed)) fun _ _ got => ?_
    cases got
    split
    · exact failsOnly_ok _
    · cases placed : graph.node? nodeId with
      | none => exact failsOnly_error .refl
      | some node =>
        cases found : region.arena.get? id with
        | none => exact failsOnly_error .refl
        | some value =>
          have below : ∀ {arg other} before, arg ∈ value.args →
              FailsOnly (fun pair => Reaches region.arena.args id pair.1)
                ((compareBelow region graph statement dims depth arg other).run before) := by
            intro arg other before member
            refine (ih before).mono fun pair reaches => .head ?_ reaches
            rwa [Arena.args_of_get? found]
          dsimp only
          split
          · split
            · rename_i passed args
              refine (below agreed ?_).run_bind fun _ _ _ => failsOnly_ok _
              simp [args]
            · exact failsOnly_error .refl
          · split
            · refine FailsOnly.run_bind (failsOnly_run_forM (fun pair member before => ?_) agreed)
                fun _ _ _ => failsOnly_ok _
              apply below before
              exact Value.mem_args_of_mem_operands (List.of_mem_zip member).1
            · exact failsOnly_error .refl

end Graph

namespace Region

variable {region : Region}

/-- The values whose arguments are resolved are values of the tables. -/
theorem mem_tableIds_of_owner {owner : ValueId} (owns : owner ∈ region.argumentOwners) :
    owner ∈ region.tableIds := by
  apply List.mem_append_right
  rcases List.mem_append.1 owns with computed | accessed
  · exact List.mem_append_left _ computed
  · exact List.mem_append_right _ (List.mem_append_right _ accessed)

/-- What a reference denotes is a value of the tables. -/
theorem mem_tableIds_of_lookup? {reference : String} {id : ValueId}
    (denoted : region.lookup? reference = some id) : id ∈ region.tableIds := by
  rcases lookup?_cases denoted with ⟨entry, known, rfl⟩ | ⟨_, known | ⟨_, known | known⟩⟩
  · exact List.mem_append_left _ (List.mem_map.2 ⟨entry, Table.mem_values_of_get? known, rfl⟩)
  · exact mem_tableIds_of_owner (mem_argumentOwners_of_computation known)
  · obtain ⟨name, statement, access, declared, listed, _, rfl⟩ := findRead?_eq_some known
    exact mem_tableIds_of_owner (mem_argumentOwners_of_access
      (Table.mem_values_of_get? declared) (Table.mem_values_of_get? listed))
  · obtain ⟨name, statement, declared, listed⟩ := findInductionVariable?_eq_some known
    apply List.mem_append_right
    apply List.mem_append_right
    apply List.mem_append_left
    exact List.mem_flatMap.2 ⟨statement, Table.mem_values_of_get? declared,
      Table.mem_values_of_get? listed⟩

/-- Arguments lead from a value of a sound region to values only. -/
theorem Sound.exists_of_reaches (sound : region.Sound) {root id : ValueId} {value : Value}
    (found : region.arena.get? root = some value) (reaches : Reaches region.arena.args root id) :
    ∃ value, region.arena.get? id = some value := by
  cases reaches with
  | refl => exact ⟨value, found⟩
  | tail _ successor =>
    obtain ⟨argument, held, _⟩ := sound.noWrite_of_mem_args successor
    exact ⟨argument, held⟩

/-- Nothing that is done with a sound region meets a place without a value. -/
theorem Sound.neverMisses (sound : region.Sound) : region.NeverMisses := by
  have reached : ∀ root ∈ region.tableIds, ∀ id, Reaches region.arena.args root id →
      ∃ value, region.arena.get? id = some value := by
    intro root member id reaches
    obtain ⟨value, found⟩ := sound.tableIds.1 root member
    exact sound.exists_of_reaches found reaches
  refine ⟨reached, ⟨fun _ owns => mem_tableIds_of_owner owns, mem_tableIds_of_lookup?⟩, ?_, ?_, ?_⟩
  · intro owner owns flaw failed
    exact reached owner (mem_tableIds_of_owner owns) _ (Arena.shows_of_validate failed).reaches
  · intro id failed
    obtain ⟨statement, _, hinders⟩ := Graph.failsOnly_ofRegion sound _ failed
    cases hinders with
    | blocked _ _ blocked =>
      obtain ⟨_, _, _, _, obstructs⟩ := blocked
      cases obstructs
  · intro graph statement declared entry member stored isStored dims depth nodeId agreed pair failed
    have owner := mem_tableIds_of_owner
      (mem_argumentOwners_of_access declared (Statement.access_of_writes member))
    exact reached _ owner _ (.head isStored (Graph.failsOnly_compareBelow graph agreed pair failed))

end Region

namespace Record

variable {record : Record} {region : Region}

/-- Computations of the region of a record are those that the record defines. -/
theorem free_of_ofRecord (built : Region.ofRecord record = .ok region) (reference : String)
    (known : region.computations.contains reference = true) :
    reference ∉ Region.inductionReferences record ∧ ¬ record.Rejects reference := by
  obtain ⟨draft, drafted, builtFrom⟩ := Region.ofRecord_cases built
  rw [builtFrom.computations, Region.Draft.contains_computations_iff drafted] at known
  exact ⟨known.1, known.not_rejects⟩

/-- The region of a record is well formed, before and after propagation, and nothing that is done
    with it meets a place without a value. -/
theorem wellFormed_ofRecord (built : Region.ofRecord record = .ok region) :
    (region.WellFormed record ∧ region.NeverMisses) ∧
      region.propagate.1.WellFormed record ∧ region.propagate.1.NeverMisses := by
  have sound := Region.sound_of_ofRecord built
  have free := free_of_ofRecord built
  exact ⟨⟨sound.wellFormed free, sound.neverMisses⟩, sound.propagate.wellFormed free,
    sound.propagate.neverMisses⟩

/-- The region of the loop that scales and clamps has a statement and is well formed, before and after
    propagation. -/
theorem clamping_wellFormed_ofRecord :
    ∃ region, Region.ofRecord clamping = .ok region ∧
      (∃ statement, statement ∈ region.propagate.1.statements.values) ∧
      (region.WellFormed clamping ∧ region.NeverMisses) ∧
      region.propagate.1.WellFormed clamping ∧ region.propagate.1.NeverMisses := by
  obtain ⟨built, _, statement, constructed, _, declared⟩ := clamping_generates
  exact ⟨built, constructed, ⟨statement, declared⟩, wellFormed_ofRecord constructed⟩

end Record

end RegionFlow
