/-
Module: RegionFlow.Proofs.Dropping
Purpose: Which statements are left out of a region. A statement is left out exactly if a value that it stores
  leads, through arguments and through the producers of placeholders, to a placeholder of a merge without a
  form. If nothing is left, the record is refused with all names; otherwise the others keep their order, the
  relations lose what they say about the statements left out and nothing else, and no value that a write
  still leads to loses an argument that stands for such a merge.
Main exports: Draft.Leads, Draft.DependsOn, Draft.isSome_reachedMerge?_iff, Region.leads_of_reaches,
  Record.Drops, Record.LeavesOut, Record.ofRecord_drops
-/
import RegionFlow.Proofs.Definitions
import RegionFlow.Proofs.Failing
import RegionFlow.Proofs.Propagation
import RegionFlow.Proofs.Searching

namespace RegionFlow

open Search Sequencing
open Polyhedral (Piece)

namespace Region.Draft

variable {draft : Draft} {statement : Statement}

/-- One value leads to another in one step: to an argument, or from a placeholder to its producer. -/
inductive Leads (draft : Draft) : ValueId → ValueId → Prop where
  | arg {id child : ValueId} {value : Value} (found : draft.arena.get? id = some value)
      (member : child ∈ value.args) : Leads draft id child
  | producer {id child : ValueId} {value : Value} (found : draft.arena.get? id = some value)
      (placeholder : value.isPlaceholder = true)
      (known : draft.computations.get? value.reference = some child) : Leads draft id child

/-- A place holds the placeholder of a reference. -/
def HoldsPlaceholder (draft : Draft) (id : ValueId) (reference : String) : Prop :=
  ∃ value, draft.arena.get? id = some value ∧ value.isPlaceholder = true ∧
    value.reference = reference

/-- What a statement stores leads to the placeholder of a reference. -/
def DependsOn (draft : Draft) (statement : Statement) (reference : String) : Prop :=
  ∃ entry ∈ statement.writes draft.arena, ∃ root ∈ draft.arena.args entry.2.value, ∃ id,
    Relation.ReflTransGen draft.Leads root id ∧ draft.HoldsPlaceholder id reference

/-- A placeholder has no arguments, so it leads to its producer only. -/
theorem mem_sources_iff (sound : draft.Sound) {id child : ValueId} :
    child ∈ draft.sources id ↔ draft.Leads id child := by
  unfold sources
  constructor
  · intro member
    split at member
    · cases member
    · rename_i value found
      split at member
      · rename_i placeholder
        exact .producer found placeholder (Option.mem_toList.1 member)
      · exact .arg found member
  · intro leads
    cases leads with
    | @arg value found member =>
      rw [found]
      dsimp only
      split
      · rename_i placeholder
        have childless : value.args = [] := by
          apply (sound.made found).args_eq_nil
          rw [Value.isPlaceholder_iff.1 placeholder]
          rfl
        rw [childless] at member
        cases member
      · exact member
    | producer found placeholder known =>
      simp [found, placeholder, known]

/-- Search from the values that a statement stores enters what they lead to. -/
theorem mem_reached_iff (sound : draft.Sound) {roots : List ValueId} {id : ValueId} :
    id ∈ preorder draft.arena.ids (fun id => (draft.sources id).reverse) roots.reverse ↔
      ∃ root ∈ roots, Relation.ReflTransGen draft.Leads root id := by
  have listed : ∀ item, (draft.sources item).reverse ≠ [] → item ∈ draft.arena.ids := by
    intro item some
    rw [Arena.mem_ids]
    cases found : draft.arena.get? item with
    | none => simp [sources, found] at some
    | some value => exact Arena.lt_size found
  have same : (fun parent child => child ∈ (draft.sources parent).reverse) = draft.Leads := by
    funext parent child
    rw [List.mem_reverse, mem_sources_iff sound]
  rw [mem_preorder_iff listed, Reaches, same]
  simp

theorem formless?_eq_some_iff {id : ValueId} {merge : String} :
    draft.formless? id = some merge ↔ draft.HoldsPlaceholder id merge ∧ merge ∈ draft.formless := by
  unfold formless? HoldsPlaceholder
  cases draft.arena.get? id with
  | none => simp
  | some value =>
    simp only [Option.ite_none_right_eq_some, Option.some.injEq, Bool.and_eq_true,
      List.contains_iff_mem, exists_eq_left']
    constructor
    · rintro ⟨⟨placeholder, marked⟩, rfl⟩
      exact ⟨⟨placeholder, rfl⟩, marked⟩
    · rintro ⟨⟨placeholder, rfl⟩, marked⟩
      exact ⟨⟨placeholder, marked⟩, rfl⟩

/-- The merge that is found for a statement is marked, and the statement depends on it. -/
theorem reachedMerge?_eq_some (sound : draft.Sound) {merge : String}
    (found : draft.reachedMerge? statement = some merge) :
    merge ∈ draft.formless ∧ draft.DependsOn statement merge := by
  obtain ⟨id, reached, formless⟩ := List.exists_of_findSome?_eq_some found
  obtain ⟨root, member, leads⟩ := (mem_reached_iff sound).1 reached
  obtain ⟨entry, writes, stored⟩ := List.mem_flatMap.1 member
  obtain ⟨stands, marked⟩ := formless?_eq_some_iff.1 formless
  exact ⟨marked, entry, writes, root, stored, id, leads, stands⟩

/-- A merge is found exactly for the statements that depend on one that is marked. -/
theorem isSome_reachedMerge?_iff (sound : draft.Sound) :
    (draft.reachedMerge? statement).isSome = true ↔
      ∃ merge ∈ draft.formless, draft.DependsOn statement merge := by
  constructor
  · intro some
    obtain ⟨merge, found⟩ := Option.isSome_iff_exists.1 some
    obtain ⟨marked, depends⟩ := reachedMerge?_eq_some sound found
    exact ⟨merge, marked, depends⟩
  · rintro ⟨merge, marked, entry, writes, root, stored, id, leads, stands⟩
    refine List.findSome?_isSome_iff.2 ⟨id, ?_, ?_⟩
    · exact (mem_reached_iff sound).2
        ⟨root, List.mem_flatMap.2 ⟨entry, writes, stored⟩, leads⟩
    · rw [formless?_eq_some_iff.2 ⟨stands, marked⟩]
      rfl

/-- The names of the statements left out, in order. -/
theorem droppedNames_eq (draft : Draft) :
    draft.droppedNames =
      (draft.statements.values.filter fun statement =>
        (draft.reachedMerge? statement).isSome).map Statement.name := by
  rw [droppedNames, droppedStatements]
  generalize draft.statements.values = statements
  induction statements with
  | nil => rfl
  | cons statement statements ih =>
    cases found : draft.reachedMerge? statement <;> simp [found, ih]

end Region.Draft

namespace Record

/-- A statement of the draft of a record depends on a merge without a form. -/
def Drops (record : Record) (draft : Region.Draft) (name : String) : Prop :=
  ∃ statement, draft.statements.get? name = some statement ∧
    ∃ merge, record.Rejects merge ∧ draft.DependsOn statement merge

end Record

namespace Region

variable {record : Record} {draft : Draft} {region : Region}

/-- The statements left out of a draft are those that depend on a merge without a form. -/
theorem mem_droppedNames_iff (drafted : draftOfRecord record = .ok draft) {name : String} :
    name ∈ draft.droppedNames ↔ record.Drops draft name := by
  obtain ⟨_, _, _, _, _, _, sound⟩ := Draft.draftOfRecord_ok drafted
  have depends : ∀ statement, (draft.reachedMerge? statement).isSome = true ↔
      ∃ merge, record.Rejects merge ∧ draft.DependsOn statement merge := by
    intro statement
    simp only [Draft.isSome_reachedMerge?_iff sound, Draft.mem_formless_iff drafted]
  rw [Draft.droppedNames_eq]
  constructor
  · intro member
    obtain ⟨statement, inside, rfl⟩ := List.mem_map.1 member
    obtain ⟨declared, found⟩ := List.mem_filter.1 inside
    obtain ⟨key, known⟩ := Table.exists_get?_of_mem_values declared
    have name := (sound.consistent.statement known).name
    exact ⟨statement, name ▸ known, (depends statement).1 found⟩
  · rintro ⟨statement, known, found⟩
    refine List.mem_map.2 ⟨statement, List.mem_filter.2 ⟨Table.mem_values_of_get? known, ?_⟩,
      (sound.consistent.statement known).name⟩
    exact (depends statement).2 found

/-- The keys of the statements of a draft are the names of those of the record, in order. -/
theorem keys_draftOfRecord (drafted : draftOfRecord record = .ok draft) :
    draft.statements.keys = record.statements.map Record.Statement.name :=
  map_eq_map_of_partners (fun entered => entered.1) (Draft.draftOfRecord_entered drafted)

/-- If all statements are left out, their names are those of the record, in order. -/
theorem droppedNames_of_all (drafted : draftOfRecord record = .ok draft)
    (all : ∀ recorded ∈ record.statements, recorded.name ∈ draft.droppedNames) :
    draft.droppedNames = record.statements.map Record.Statement.name := by
  obtain ⟨_, _, _, _, _, _, sound⟩ := Draft.draftOfRecord_ok drafted
  have names : draft.statements.values.map Statement.name = draft.statements.keys := by
    rw [Table.values, Table.keys, List.map_map]
    refine List.map_congr_left fun entry member => ?_
    exact (sound.consistent.statement (Table.get?_eq_some_iff.2 member)).name
  have fewer : draft.droppedNames.Sublist (record.statements.map Record.Statement.name) := by
    rw [Draft.droppedNames_eq, ← keys_draftOfRecord drafted, ← names]
    exact List.filter_sublist.map _
  have distinct : (record.statements.map Record.Statement.name).Nodup := by
    rw [← keys_draftOfRecord drafted]
    exact draft.statements.nodup
  refine fewer.eq_of_length_le (distinct.length_le_of_subset ?_)
  intro name member
  obtain ⟨recorded, listed, rfl⟩ := List.mem_map.1 member
  exact all recorded listed

/-- A record whose statements can be entered is refused for its merges if something is left out and nothing
    remains. -/
theorem ofRecord_eq_unrepresentable_iff (drafted : draftOfRecord record = .ok draft) {name : String}
    {names : List String} :
    ofRecord record = .error (.unrepresentableMerge name names) ↔
      record.name = name ∧ draft.droppedNames = names ∧ draft.droppedNames ≠ [] ∧
        ∀ recorded ∈ record.statements, recorded.name ∈ draft.droppedNames := by
  have condition : ((draft.statements.filter fun name _ => !draft.droppedNames.contains name).isEmpty
      && !draft.droppedStatements.isEmpty) = true ↔ draft.droppedNames ≠ [] ∧
      ∀ recorded ∈ record.statements, recorded.name ∈ draft.droppedNames := by
    have keys : (∀ entry ∈ draft.statements.entries, entry.1 ∈ draft.droppedNames) ↔
        ∀ recorded ∈ record.statements, recorded.name ∈ draft.droppedNames := by
      have same := congrArg (fun names => ∀ name ∈ names, name ∈ draft.droppedNames)
        (keys_draftOfRecord drafted)
      simpa only [Table.keys, List.forall_mem_map, eq_iff_iff] using same
    rw [← keys]
    simp [Table.isEmpty, Table.filter, List.filter_eq_nil_iff, Draft.droppedNames, and_comm]
  unfold ofRecord
  rw [drafted]
  change (if _ then _ else _) = _ ↔ _
  split
  · rename_i nothing
    have nothing := condition.1 nothing
    constructor
    · intro failed
      cases failed
      exact ⟨rfl, rfl, nothing⟩
    · rintro ⟨rfl, rfl, _⟩
      rfl
  · rename_i something
    constructor
    · intro failed
      obtain ⟨_, _, same⟩ := failsOnly_readRelations record _ _ failed
      cases same
    · rintro ⟨_, _, nothing⟩
      exact absurd (condition.2 nothing) something

/-! ### What propagation takes out -/

/-- The references that propagation takes out of the arguments of a value. -/
def droppedFrom (region : Region) (owner : ValueId) : List DroppedReference :=
  region.droppedOf owner ((region.arena.args owner).map region.resolveArg)

/-- Propagation reports what it takes out of the arguments of each value that owns some. -/
theorem dropped_propagate (region : Region) :
    region.propagate.2.dropped = region.argumentOwners.flatMap region.droppedFrom := by
  have none : ∀ owner, (region.arena.args owner).any region.isPlaceholderAt = false →
      region.droppedFrom owner = [] := by
    intro owner kept
    have nothing : (region.resolutions owner).filterMap Resolution.dropped? = [] := by
      rw [resolutions_eq_kept kept, List.filterMap_map, List.filterMap_eq_nil_iff]
      intro arg _
      rfl
    rw [droppedFrom, droppedOf, ← resolutions, nothing]
    rfl
  exact flatMap_plan (fun entry => region.droppedOf entry.1 entry.2) none

/-- What is taken out of the arguments of a value is the reference of a placeholder among them. -/
theorem exists_arg_of_droppedFrom {owner : ValueId} {lost : DroppedReference}
    (member : lost ∈ region.droppedFrom owner) :
    ∃ arg ∈ region.arena.args owner, ∃ value, region.arena.get? arg = some value ∧
      value.isPlaceholder = true ∧ value.reference = lost.reference := by
  simp only [droppedFrom, droppedOf, List.mem_map, List.mem_filterMap] at member
  obtain ⟨_, ⟨_, ⟨arg, listed, rfl⟩, dropped⟩, rfl⟩ := member
  refine ⟨arg, listed, ?_⟩
  unfold resolveArg at dropped
  split at dropped
  · cases dropped
  · rename_i value found
    split at dropped
    · rename_i placeholder
      split at dropped
      · cases dropped
      · cases dropped
        exact ⟨value, found, placeholder, rfl⟩
    · cases dropped

/-- A producer that has arguments is entered under its reference. -/
theorem computation_of_lookup? (built : ofRecord record = .ok region) {reference : String}
    {id arg : ValueId} (denoted : region.lookup? reference = some id)
    (member : arg ∈ region.arena.args id) : region.computations.get? reference = some id := by
  obtain ⟨consistent, made⟩ := ofRecord_ok built
  obtain ⟨value, found, ⟨known, _⟩ | ⟨simple, _⟩⟩ := lookup?_kind consistent denoted
  · exact known
  · rw [Arena.args_of_get? found, (made found).args_eq_nil simple] at member
    cases member

/-- What a value leads to after propagation has arguments that the arguments of the value led to before. -/
theorem leads_of_reaches (built : ofRecord record = .ok region) (arena : region.arena = draft.arena)
    (computations : region.computations = draft.computations) {root id : ValueId}
    (reaches : Reaches region.propagate.1.arena.args root id) {arg : ValueId}
    (member : arg ∈ region.arena.args id) :
    ∃ first ∈ region.arena.args root, Relation.ReflTransGen draft.Leads first arg := by
  induction reaches generalizing arg with
  | refl => exact ⟨arg, member, .refl⟩
  | @tail middle id _ successor ih =>
    have below : ∀ {child}, child ∈ region.arena.args id → draft.Leads id child := by
      intro child inside
      cases found : region.arena.get? id with
      | none => simp [Arena.args, found] at inside
      | some value =>
        rw [Arena.args_of_get? found] at inside
        exact .arg (arena ▸ found) inside
    cases held : region.arena.get? middle with
    | none =>
      have after := get?_propagate region middle
      rw [held, Option.map_none] at after
      simp [Arena.args, after] at successor
    | some value =>
      rw [args_propagate held] at successor
      have direct : id ∈ value.args →
          ∃ first ∈ region.arena.args root, Relation.ReflTransGen draft.Leads first arg := by
        intro inside
        obtain ⟨first, start, leads⟩ := ih (Arena.args_of_get? held ▸ inside)
        exact ⟨first, start, leads.tail (below member)⟩
      split at successor
      · rcases mem_resolvedArgs successor with ⟨before, _⟩ |
          ⟨old, before, placeholder, found, isPlaceholder, denoted⟩
        · exact direct before
        · -- the placeholder was replaced by its producer, to which it leads
          obtain ⟨first, start, leads⟩ := ih (Arena.args_of_get? held ▸ before)
          have known := computation_of_lookup? built denoted member
          have produces : draft.Leads old id :=
            .producer (arena ▸ found) isPlaceholder (computations ▸ known)
          exact ⟨first, start, (leads.tail produces).tail (below member)⟩
      · exact direct successor

end Region

/-- The pieces of a relation that mention none of some names. -/
def Polyhedral.Relation.piecesApart (names : List String) (relation : Polyhedral.Relation) :
    List Piece :=
  relation.pieces.filter fun piece => ∀ name ∈ piece.names, name ∉ names

namespace Region

variable {record : Record} {draft : Draft} {region : Region}

/-- A relation without the statements left out has the pieces that mention none of them. -/
theorem pieces_without (names : List String) (relation : Polyhedral.Relation) :
    (if names.isEmpty then relation else relation.without names).pieces =
      relation.piecesApart names := by
  split
  · rename_i none
    rw [List.isEmpty_iff.1 none]
    simp [Polyhedral.Relation.piecesApart]
  · refine List.filter_congr fun piece _ => ?_
    rw [Bool.eq_iff_iff]
    simp

/-- All dependence relations have the pieces that mention none of the statements left out. -/
theorem pieces_dependences_without (names : List String) (dependences : Dependences) :
    List.Forall₂ (fun before after => after.1 = before.1 ∧
        after.2.pieces = Polyhedral.Relation.piecesApart names before.2)
      dependences.toList
      (if names.isEmpty then dependences else dependences.without names).toList := by
  have each := pieces_without names
  cases none : names.isEmpty with
  | true =>
    simp only [none, if_true] at each
    simp [Dependences.toList, each]
  | false =>
    simp only [none, Bool.false_eq_true, if_false] at each
    simp [Dependences.toList, Dependences.without, each]

/-- The merge that is recorded for a statement left out is one without a form that the statement depends
    on. -/
theorem exists_of_mem_droppedStatements (drafted : draftOfRecord record = .ok draft)
    {lost : DroppedStatement} (member : lost ∈ draft.droppedStatements) :
    ∃ statement, draft.statements.get? lost.name = some statement ∧ record.Rejects lost.merge ∧
      draft.DependsOn statement lost.merge := by
  obtain ⟨_, _, _, _, _, _, sound⟩ := Draft.draftOfRecord_ok drafted
  obtain ⟨statement, declared, found⟩ := List.mem_filterMap.1 member
  obtain ⟨merge, reached, rfl⟩ := Option.map_eq_some_iff.1 found
  obtain ⟨marked, depends⟩ := Draft.reachedMerge?_eq_some sound reached
  obtain ⟨key, known⟩ := Table.exists_get?_of_mem_values declared
  have name := (sound.consistent.statement known).name
  exact ⟨statement, name ▸ known, (Draft.mem_formless_iff drafted).1 marked, depends⟩

/-- The statements that are not left out keep their order. -/
theorem BuiltFrom.keys (builtFrom : BuiltFrom record draft region)
    (drafted : draftOfRecord record = .ok draft) :
    region.statements.keys = (record.statements.map Record.Statement.name).filter fun name =>
      name ∉ draft.droppedNames := by
  rw [← keys_draftOfRecord drafted, builtFrom.statements, Table.keys, Table.filter, Table.keys,
    List.filter_map]
  refine congrArg (List.map Prod.fst) (List.filter_congr fun entry _ => ?_)
  simp

/-- Where a write of the region leads to, no argument is taken out that stands for a merge without a form:
    the statement would depend on that merge, so it would have been left out. -/
theorem not_rejects_of_droppedFrom (drafted : draftOfRecord record = .ok draft)
    (built : ofRecord record = .ok region) (builtFrom : BuiltFrom record draft region)
    {statement : Statement} (declared : statement ∈ region.statements.values)
    {entry : String × Access} (writes : entry ∈ statement.writes region.arena) {id : ValueId}
    (reaches : Reaches region.propagate.1.arena.args entry.2.value id) {lost : DroppedReference}
    (taken : lost ∈ region.droppedFrom id) : ¬ record.Rejects lost.reference := by
  intro rejected
  obtain ⟨arg, member, value, found, placeholder, reference⟩ := exists_arg_of_droppedFrom taken
  obtain ⟨root, stored, leads⟩ := leads_of_reaches built builtFrom.arena builtFrom.computations
    reaches member
  obtain ⟨key, known⟩ := Table.exists_get?_of_mem_values declared
  rw [builtFrom.statements, Table.get?_filter_eq_some_iff] at known
  rw [builtFrom.arena] at writes stored found
  have depends : draft.DependsOn statement lost.reference :=
    ⟨entry, writes, root, stored, arg, leads, value, found, placeholder, reference⟩
  have left : key ∈ draft.droppedNames :=
    (mem_droppedNames_iff drafted).2 ⟨statement, known.1, lost.reference, rejected, depends⟩
  simp [left] at known

end Region

namespace Record

open Region (Draft DroppedStatement)

/-- What is left out of the region of a record: the statements that depend on a merge without a form, with
    such a merge recorded for each; what relations say about them; and no argument of a value that a write
    still leads to, as far as it stands for such a merge. -/
structure LeavesOut (record : Record) (draft : Draft) (region : Region) : Prop where
  dropped : ∀ name, name ∈ region.dropped.map DroppedStatement.name ↔ record.Drops draft name
  merge : ∀ lost ∈ region.dropped, ∃ statement,
    draft.statements.get? lost.name = some statement ∧ record.Rejects lost.merge ∧
      draft.DependsOn statement lost.merge
  /-- The others keep their order. -/
  order : region.statements.keys = (record.statements.map Statement.name).filter fun name =>
    name ∉ region.dropped.map DroppedStatement.name
  kept : ∀ {name statement}, region.statements.get? name = some statement →
    draft.statements.get? name = some statement
  schedule : ∃ whole, Region.readPart .schedule record.schedule = .ok whole ∧
    region.schedule.pieces = whole.piecesApart (region.dropped.map DroppedStatement.name)
  dependences : ∃ whole, Region.readDependences record.dependences = .ok whole ∧
    List.Forall₂ (fun before after => after.1 = before.1 ∧ after.2.pieces =
        before.2.piecesApart (region.dropped.map DroppedStatement.name))
      whole.toList region.dependences.toList
  /-- What propagation takes out is taken out of the arguments of some value. -/
  report : region.propagate.2.dropped = region.argumentOwners.flatMap region.droppedFrom
  clean : ∀ statement ∈ region.statements.values, ∀ entry ∈ statement.writes region.arena,
    ∀ id, Reaches region.propagate.1.arena.args entry.2.value id →
      ∀ lost ∈ region.droppedFrom id, ¬ record.Rejects lost.reference

/-- The region of a record leaves out what depends on a merge without a form. -/
theorem leavesOut_of_ofRecord {record : Record} {draft : Draft} {region : Region}
    (drafted : Region.draftOfRecord record = .ok draft)
    (built : Region.ofRecord record = .ok region) : record.LeavesOut draft region := by
  obtain ⟨same, draftedSame, builtFrom⟩ := Region.ofRecord_cases built
  cases drafted.symm.trans draftedSame
  have names : region.dropped.map DroppedStatement.name = draft.droppedNames := by
    rw [builtFrom.dropped]
    rfl
  refine {
    dropped := ?_
    merge := ?_
    order := ?_
    kept := ?_
    schedule := ?_
    dependences := ?_
    report := region.dropped_propagate
    clean := ?_ }
  · intro name
    rw [names]
    exact Region.mem_droppedNames_iff drafted
  · intro lost member
    rw [builtFrom.dropped] at member
    exact Region.exists_of_mem_droppedStatements drafted member
  · rw [names]
    exact builtFrom.keys drafted
  · intro name statement found
    rw [builtFrom.statements, Table.get?_filter_eq_some_iff] at found
    exact found.1
  · obtain ⟨whole, read, kept⟩ := builtFrom.schedule
    exact ⟨whole, read, by rw [names, kept, Region.pieces_without]⟩
  · obtain ⟨whole, read, kept⟩ := builtFrom.dependences
    refine ⟨whole, read, ?_⟩
    rw [names, kept]
    exact Region.pieces_dependences_without draft.droppedNames whole
  · intro statement declared entry writes id reaches lost taken
    exact Region.not_rejects_of_droppedFrom drafted built builtFrom declared writes reaches taken

/-- A record whose statements can be entered loses exactly those that depend on a merge without a form. It is
    refused if these are all of them, and otherwise its region leaves out these and nothing else. -/
theorem ofRecord_drops {record : Record} {draft : Draft}
    (drafted : Region.draftOfRecord record = .ok draft) :
    (∀ name names, Region.ofRecord record = .error (.unrepresentableMerge name names) ↔
      name = record.name ∧ names = record.statements.map Statement.name ∧
        record.statements ≠ [] ∧
        ∀ recorded ∈ record.statements, record.Drops draft recorded.name) ∧
    ∀ region, Region.ofRecord record = .ok region → record.LeavesOut draft region := by
  refine ⟨?_, fun region built => leavesOut_of_ofRecord drafted built⟩
  intro name names
  have drops : (∀ recorded ∈ record.statements, record.Drops draft recorded.name) ↔
      ∀ recorded ∈ record.statements, recorded.name ∈ draft.droppedNames :=
    forall₂_congr fun recorded _ => (Region.mem_droppedNames_iff drafted).symm
  rw [Region.ofRecord_eq_unrepresentable_iff drafted, drops]
  constructor
  · rintro ⟨rfl, rfl, some, all⟩
    have listed := Region.droppedNames_of_all drafted all
    refine ⟨rfl, listed, fun none => some ?_, all⟩
    rw [listed, none]
    rfl
  · rintro ⟨rfl, rfl, some, all⟩
    have listed := Region.droppedNames_of_all drafted all
    refine ⟨rfl, listed, fun none => some ?_, all⟩
    rw [listed] at none
    exact List.map_eq_nil_iff.1 none

/-- A merge in which one side is undefined, for given statements. -/
def undefining (statements : List Statement) : Record where
  name := "undefine"
  context := ""
  schedule := "\x7b S[i0] -> [0, i0]; T[i0] -> [1, i0] \x7d"
  parameters := []
  arrays := [⟨"A", .array, ["*"], "double", ""⟩]
  dependences := ⟨"\x7b S[i0] -> T[i0]; T[i0] -> T[i0] \x7d", "", "", "", ""⟩
  instructions := "%m = phi double [ undef, %a ], [ %y, %b ]\n%z = fadd double %m, 1.0"
  statements := statements
  aliasGroups := []

/-- A statement that stores a value. -/
def storing (name value : String) : Statement where
  name := name
  domain := "\x7b " ++ name ++ "[i0] : 0 <= i0 <= 9 \x7d"
  affine := some true
  loops := ["%i = phi i64 [ 0, %e ]"]
  accesses := [⟨.write, "\x7b " ++ name ++ "[i0] -> A[i0] \x7d",
    "store double " ++ value ++ ", ptr %p", ""⟩]
  instructions := none

/-- Whether a failure says that merges without a form leave out the given statements. -/
def leavesOutAll (name : String) (statements : List String) : Failure → Bool
  | .unrepresentableMerge region names => region == name && names == statements
  | _ => false

theorem eq_of_leavesOutAll {name : String} {statements : List String} {failure : Failure}
    (leaves : leavesOutAll name statements failure = true) :
    failure = .unrepresentableMerge name statements := by
  unfold leavesOutAll at leaves
  split at leaves
  · simp only [Bool.and_eq_true, beq_iff_eq] at leaves
    rw [leaves.1, leaves.2]
  · cases leaves

/-- The sum over the merge leaves its statement out. With another statement beside it the region goes on
    without what the relations say about it, and alone it leaves nothing. -/
theorem undefining_ofRecord_drops :
    (∃ draft region, Region.draftOfRecord (undefining [storing "S" "%z", storing "T" "2.0"]) = .ok draft ∧
      Region.ofRecord (undefining [storing "S" "%z", storing "T" "2.0"]) = .ok region ∧
      region.dropped = [⟨"S", "%m"⟩] ∧ region.schedule.names = ["T"] ∧
      region.dependences.raw.names = ["T", "T"] ∧
      LeavesOut (undefining [storing "S" "%z", storing "T" "2.0"]) draft region) ∧
    ∃ draft, Region.draftOfRecord (undefining [storing "S" "%z"]) = .ok draft ∧
      Region.ofRecord (undefining [storing "S" "%z"]) =
        .error (.unrepresentableMerge "undefine" ["S"]) ∧
      Drops (undefining [storing "S" "%z"]) draft "S" := by
  constructor
  · have evaluated :
        succeeds (Region.ofRecord (undefining [storing "S" "%z", storing "T" "2.0"])) (fun region =>
          region.dropped == [⟨"S", "%m"⟩] && region.schedule.names == ["T"] &&
            region.dependences.raw.names == ["T", "T"]) = true := by
      decide +kernel
    obtain ⟨region, built, evaluated⟩ := exists_of_succeeds evaluated
    simp only [Bool.and_eq_true, beq_iff_eq] at evaluated
    obtain ⟨draft, drafted, _⟩ := Region.ofRecord_cases built
    exact ⟨draft, region, drafted, built, evaluated.1.1, evaluated.1.2, evaluated.2,
      (ofRecord_drops drafted).2 region built⟩
  · have evaluated : (succeeds (Region.draftOfRecord (undefining [storing "S" "%z"])) (fun _ => true) &&
        fails (Region.ofRecord (undefining [storing "S" "%z"])) (leavesOutAll "undefine" ["S"])) = true := by
      decide +kernel
    obtain ⟨drafts, refuses⟩ := Bool.and_eq_true_iff.1 evaluated
    obtain ⟨draft, drafted, _⟩ := exists_of_succeeds drafts
    obtain ⟨failure, failed, same⟩ := exists_of_fails refuses
    rw [eq_of_leavesOutAll same] at failed
    have all := (((ofRecord_drops drafted).1 _ _).1 failed).2.2.2
    exact ⟨draft, drafted, failed, all (storing "S" "%z") List.mem_cons_self⟩

end Record

end RegionFlow
