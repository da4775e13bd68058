/-
Module: RegionFlow.Proofs.Building
Purpose: What holds of every region of a record. Tables lead to values of the right kind under the right
  reference, every access is an access to the array of its relation, no two accesses share a value, and
  arguments are operands. Each step of building keeps this, so it holds of the region at the end.
Main exports: Region.Consistent, Draft.Sound, Draft.draftOfRecord_ok, Draft.draftOfRecord_entered,
  Region.BuiltFrom, Region.ofRecord_ok
-/
import Mathlib.Data.List.Flatten
import RegionFlow.Proofs.Drafting
import RegionFlow.Region.OfRecord

namespace RegionFlow

namespace ValueKind

/-- Whether values of this kind are parameters. -/
def isParameter : ValueKind → Bool
  | parameter _ => true
  | _ => false

/-- Whether values of this kind count a loop. -/
def isInductionVariable : ValueKind → Bool
  | inductionVariable _ => true
  | _ => false

/-- Whether values of this kind are accesses to an array. -/
def isAccessOf (array : String) : ValueKind → Bool
  | access _ touched _ _ => touched == array
  | _ => false

end ValueKind

namespace Region

open Sequencing

/-- The value of an access has a reference and is an access to the array of the relation. -/
def Access.Refers (arena : Arena) (reference : String) (access : Access) : Prop :=
  ∃ array, Draft.targetArray? access.relation = some array ∧
    arena.Names access.value reference (ValueKind.isAccessOf array)

/-- An access is known by the reference of its value, or by that and a number. -/
def Access.Fits (arena : Arena) (key : String) (access : Access) : Prop :=
  ∃ reference, access.Refers arena reference ∧
    (key = reference ∨ ∃ number : Nat, key = reference ++ "#" ++ toString number)

/-- The tables of a statement lead to values of their kind. -/
structure Statement.Fits (arena : Arena) (name : String) (statement : Statement) : Prop where
  name : statement.name = name
  loops : ∀ {reference id}, statement.loops.get? reference = some id →
    arena.Names id reference ValueKind.isInductionVariable
  accesses : ∀ {key access}, statement.accesses.get? key = some access → access.Fits arena key

/-- The places of all accesses. -/
def accessIds (statements : Table Statement) : List ValueId :=
  statements.values.flatMap fun statement => statement.accesses.values.map Access.value

/-- The places of the induction variables of all loops. -/
def loopIds (statements : Table Statement) : List ValueId :=
  statements.values.flatMap fun statement => statement.loops.values

/-- The tables of a region lead to values of their kind, and neither two accesses nor two loops share a
    value. -/
structure Consistent (arena : Arena) (parameters : Table Parameter) (computations : Table ValueId)
    (statements : Table Statement) : Prop where
  parameter : ∀ {reference entry}, parameters.get? reference = some entry →
    arena.Names entry.value reference ValueKind.isParameter
  computation : ∀ {reference id}, computations.get? reference = some id →
    arena.Names id reference ValueKind.isDefinition
  statement : ∀ {name statement}, statements.get? name = some statement →
    statement.Fits arena name
  distinct : (accessIds statements).Nodup
  separate : (loopIds statements).Nodup

theorem Access.Fits.keep {first second : Arena} (keeps : first.Keeps second) {key : String}
    {access : Access} (fits : access.Fits first key) : access.Fits second key := by
  obtain ⟨reference, ⟨array, target, names⟩, known⟩ := fits
  exact ⟨reference, ⟨array, target, names.keep keeps⟩, known⟩

theorem Statement.Fits.keep {first second : Arena} (keeps : first.Keeps second) {name : String}
    {statement : Statement} (fits : statement.Fits first name) : statement.Fits second name :=
  ⟨fits.name, fun found => (fits.loops found).keep keeps,
    fun found => (fits.accesses found).keep keeps⟩

/-- Tables stay consistent when values only change their arguments and values are added. -/
theorem Consistent.keep {first second : Arena} (keeps : first.Keeps second)
    {parameters : Table Parameter} {computations : Table ValueId} {statements : Table Statement}
    (consistent : Consistent first parameters computations statements) :
    Consistent second parameters computations statements :=
  ⟨fun found => (consistent.parameter found).keep keeps,
    fun found => (consistent.computation found).keep keeps,
    fun found => (consistent.statement found).keep keeps, consistent.distinct, consistent.separate⟩

/-- A table whose values are known by their keys has no value twice. -/
theorem nodup_of_names {α : Type} {arena : Arena} {table : Table α} {view : α → ValueId}
    {test : ValueKind → Bool}
    (names : ∀ {key item}, table.get? key = some item → arena.Names (view item) key test) :
    (table.values.map view).Nodup := by
  rw [Table.values, List.map_map]
  refine List.Nodup.map_on ?_ (List.Nodup.of_map Prod.fst table.nodup)
  intro first one second two same
  obtain ⟨value, found, known, _⟩ := names (Table.get?_eq_some_iff.2 one)
  obtain ⟨other, held, named, _⟩ := names (Table.get?_eq_some_iff.2 two)
  dsimp only [Function.comp_apply] at same
  rw [same, held] at found
  cases found
  exact List.inj_on_of_nodup_map table.nodup one two (known.symm.trans named)

/-- The value of an access stands in the arena. -/
theorem Access.Fits.lt_size {arena : Arena} {key : String} {access : Access}
    (fits : access.Fits arena key) : access.value.index < arena.size := by
  obtain ⟨_, ⟨_, _, value, found, _⟩, _⟩ := fits
  exact Arena.lt_size found

namespace Draft

/-- What holds of every draft: its tables are consistent, arguments are operands, and the references of
    induction variables are kept apart from those of computations. -/
structure Sound (draft : Draft) : Prop where
  consistent :
    Consistent draft.arena draft.parameters draft.computations draft.statements
  made : ∀ {id value}, draft.arena.get? id = some value → draft.arena.MadeFromOperands value
  free : ∀ {reference id}, draft.computations.get? reference = some id →
    reference ∉ draft.induction
  counted : ∀ {name statement reference id}, draft.statements.get? name = some statement →
    statement.loops.get? reference = some id → reference ∈ draft.induction

variable {defines : String → Prop} {first second draft : Draft}

theorem sound_empty : Sound empty where
  consistent := ⟨fun found => (by cases found), fun found => (by cases found),
    fun found => (by cases found), List.nodup_nil, List.nodup_nil⟩
  made := by
    intro id value found
    simp [empty, Arena.empty, Arena.get?] at found
  free := fun found => (by cases found)
  counted := fun found => (by cases found)

/-- A draft that extends a sound one is sound. -/
theorem Sound.extend (sound : first.Sound) (extended : Extends defines first second) :
    second.Sound where
  consistent := by
    have kept := sound.consistent.keep extended.grows.keeps
    rw [extended.parameters, extended.statements]
    refine { kept with computation := ?_ }
    intro reference id found
    rcases extended.entered found with old | ⟨_, _, names⟩
    · exact kept.computation old
    · exact names
  made := by
    intro id value found
    rcases extended.made found with old | made
    · exact (sound.made old).grow extended.grows
    · exact made
  free := by
    intro reference id found
    rw [extended.induction]
    rcases extended.entered found with old | ⟨_, free, _⟩
    · exact sound.free old
    · exact free
  counted := by
    intro name statement reference id declared found
    rw [extended.statements] at declared
    rw [extended.induction]
    exact sound.counted declared found

/-! ### Loops and accesses -/

/-- A table of loops leads to induction variables at places from `start` on, whose references satisfy
    `counts`. -/
def LoopsFit (start : Nat) (counts : String → Prop) (arena : Arena) (loops : Table ValueId) : Prop :=
  ∀ {reference id}, loops.get? reference = some id →
    arena.Names id reference ValueKind.isInductionVariable ∧ start ≤ id.index ∧ counts reference

theorem addLoop_ok (defines counts : String → Prop) {start : Nat} {state : Draft × Table ValueId}
    {printed : String}
    (counted : ∀ {reference}, Instruction.definedReference? printed = some reference →
      counts reference)
    (within : start ≤ state.1.arena.size) (fits : LoopsFit start counts state.1.arena state.2) :
    Extends defines state.1 (addLoop state printed).1 ∧
      LoopsFit start counts (addLoop state printed).1.arena (addLoop state printed).2 := by
  unfold addLoop
  split
  · exact ⟨.refl defines state.1, fits⟩
  · rename_i reference defined
    have adds := state.1.arena.adds_push
    refine ⟨extends_add (Arena.madeFromOperands_of_nil rfl), ?_⟩
    intro key id found
    rw [Table.get?_insert] at found
    split at found
    · rename_i same
      cases found
      exact ⟨⟨_, (adds _).get?_nextId, same, rfl⟩, within, same ▸ counted defined⟩
    · exact ⟨(fits found).1.keep (adds _).grows.keeps, (fits found).2⟩

/-- Loops extend a draft and are entered under the references that their texts define. -/
theorem addLoops_ok (defines counts : String → Prop) {start : Nat} {loops : List String}
    (state : Draft × Table ValueId)
    (counted : ∀ printed ∈ loops, ∀ {reference},
      Instruction.definedReference? printed = some reference → counts reference)
    (within : start ≤ state.1.arena.size) (fits : LoopsFit start counts state.1.arena state.2) :
    Extends defines state.1 (loops.foldl addLoop state).1 ∧
      LoopsFit start counts (loops.foldl addLoop state).1.arena (loops.foldl addLoop state).2 := by
  induction loops generalizing state with
  | nil => exact ⟨.refl defines state.1, fits⟩
  | cons printed loops ih =>
    obtain ⟨extendsFirst, fitsFirst⟩ :=
      addLoop_ok defines counts (counted printed List.mem_cons_self) within fits
    obtain ⟨extendsRest, fitsRest⟩ :=
      ih _ (fun other later => counted other (List.mem_cons_of_mem printed later))
        (Nat.le_trans within extendsFirst.grows.size_le) fitsFirst
    exact ⟨extendsFirst.trans extendsRest, fitsRest⟩

/-- Loops are entered under the references that their texts define, in order of the first loop with each. -/
theorem keys_addLoops (loops : List String) (state : Draft × Table ValueId) :
    (loops.foldl addLoop state).2.keys = state.2.keys ++
      ((loops.filterMap Instruction.definedReference?).removeAll state.2.keys).eraseDups := by
  induction loops generalizing state with
  | nil => simp [List.removeAll]
  | cons printed loops ih =>
    rw [List.foldl_cons, ih]
    cases defined : Instruction.definedReference? printed with
    | none => simp only [addLoop, defined, List.filterMap_cons]
    | some reference =>
      have entered : (addLoop state printed).2.keys =
          if reference ∈ state.2.keys then state.2.keys else state.2.keys ++ [reference] := by
        simp only [addLoop, defined, Table.keys_insert]
      by_cases known : reference ∈ state.2.keys
      · simp [entered, known, List.removeAll, defined]
      · simp [entered, known, List.removeAll, defined, List.eraseDups_cons, Bool.and_comm,
          beq_eq_decide]

/-- The text that a write takes its stored value from. -/
def storedText (access : Record.Access) : String :=
  if (Text.trimmed access.incoming).isEmpty then Text.trimmed access.instruction
  else Text.trimmed access.incoming

/-- The references that an access defines: those of the value it stores. -/
def AccessDefines (access : Record.Access) (reference : String) : Prop :=
  access.direction = .write ∧ storedDefinition? (storedText access) = some reference

/-- A read extends a draft by its value. -/
theorem addRead_ok (defines : String → Prop) {array instruction key : String} {position : Nat}
    {element : ScalarType} {relation : Polyhedral.Relation} {after : Draft} {access : Access}
    (target : targetArray? relation = some array)
    (entered : draft.addRead array position element instruction relation = (after, key, access)) :
    Extends defines draft after ∧ access.Refers after.arena key ∧
      draft.arena.size ≤ access.value.index := by
  cases entered
  have adds := draft.arena.adds_push
  refine ⟨extends_add (Arena.madeFromOperands_of_nil rfl),
    ⟨array, target, _, (adds _).get?_nextId, rfl, ?_⟩, Nat.le_refl _⟩
  exact beq_self_eq_true array

/-- A write extends a draft by its value and by what it stores. -/
theorem addWrite_ok {statement array instruction incoming key : String} {element : ScalarType}
    {relation : Polyhedral.Relation} {branches : List Branch} {after : Draft} {access : Access}
    (target : targetArray? relation = some array)
    (ran : draft.addWrite statement array element instruction incoming relation branches
      = .ok (after, key, access)) :
    Extends (fun reference =>
        storedDefinition? (if incoming.isEmpty then instruction else incoming) = some reference)
      draft after ∧ access.Refers after.arena key ∧ draft.arena.size ≤ access.value.index := by
  obtain ⟨⟨middle, stored⟩, entered, last⟩ := bind_eq_ok.1 ran
  cases last
  obtain ⟨extended, operand⟩ := stored_ok entered
  have made : middle.arena.MadeFromOperands ⟨if instruction.isEmpty then statement ++ " -> " ++ array
      else instruction, element, .access .write array instruction
      (if incoming.isEmpty then none else some incoming), stored.toList⟩ := by
    constructor
    · cases stored <;> simp [ValueKind.Takes]
    · intro arg member
      exact operand arg (Option.mem_toList.1 member)
  have adds := middle.arena.adds_push
  refine ⟨extended.trans (extends_add made),
    ⟨array, target, _, (adds _).get?_nextId, rfl, ?_⟩, extended.grows.size_le⟩
  exact beq_self_eq_true array

/-- An access extends a draft by its value and by what it stores. -/
theorem addAccess_ok {statement key : String} {position : Nat} {record : Record.Access}
    {branches : List Branch} {after : Draft} {access : Access}
    (ran : draft.addAccess statement position record branches = .ok (after, key, access)) :
    Extends (AccessDefines record) draft after ∧ access.Refers after.arena key ∧
      draft.arena.size ≤ access.value.index := by
  obtain ⟨relation, _, entered⟩ := bind_eq_ok.1 ran
  split at entered
  · cases entered
  · rename_i array target
    split at entered
    · exact addRead_ok _ target (Except.ok.inj entered)
    · rename_i writes
      obtain ⟨extended, refers, beyond⟩ := addWrite_ok target entered
      exact ⟨extended.mono fun reference defined => ⟨writes, defined⟩, refers, beyond⟩

/-- What holds of a table of accesses while it grows from the place `start` on. -/
structure AccessesFit (start : Nat) (arena : Arena) (table : Table Access) : Prop where
  fits : ∀ {key access}, table.get? key = some access → access.Fits arena key
  fresh : ∀ {access}, access ∈ table.values → start ≤ access.value.index
  distinct : (table.values.map Access.value).Nodup

theorem accessesFit_empty (start : Nat) (arena : Arena) :
    AccessesFit start arena Table.empty where
  fits := fun found => (by cases found)
  fresh := fun member => (by cases member)
  distinct := List.nodup_nil

/-- A table of accesses takes in an access at a place beyond the arena it was built in. -/
theorem AccessesFit.insert {start : Nat} {before after : Arena} {table : Table Access} {key : String}
    {access : Access} (table_fits : AccessesFit start before table) (grows : before.Grows after)
    (fits : access.Fits after key) (beyond : before.size ≤ access.value.index)
    (within : start ≤ before.size) : AccessesFit start after (table.insert key access) where
  fits := by
    intro name other found
    rw [Table.get?_insert] at found
    split at found
    · rename_i same
      cases found
      exact same ▸ fits
    · exact (table_fits.fits found).keep grows.keeps
  fresh := by
    intro other member
    rcases Table.mem_values_insert member with rfl | old
    · exact Nat.le_trans within beyond
    · exact table_fits.fresh old
  distinct := by
    refine Table.nodup_values_insert table_fits.distinct ?_
    intro member
    obtain ⟨other, old, same⟩ := List.mem_map.1 member
    obtain ⟨name, found⟩ := Table.exists_get?_of_mem_values old
    have inside := (table_fits.fits found).lt_size
    rw [same] at inside
    exact Nat.not_lt_of_le beyond inside

/-- Accesses extend a draft, and their table stays fit. -/
theorem addAccesses_ok {statement : String} {branches : List Branch} {position start : Nat}
    {table after_table : Table Access} {records : List Record.Access} {after : Draft}
    (fits : AccessesFit start draft.arena table) (within : start ≤ draft.arena.size)
    (ran : draft.addAccesses statement branches position table records
      = .ok (after, after_table)) :
    Extends (fun reference => ∃ record ∈ records, AccessDefines record reference) draft after ∧
      AccessesFit start after.arena after_table := by
  induction records generalizing draft position table with
  | nil =>
    cases ran
    exact ⟨.refl _ after, fits⟩
  | cons record records ih =>
    obtain ⟨⟨middle, key, access⟩, entered, rest⟩ := bind_eq_ok.1 ran
    obtain ⟨extendsFirst, refers, beyond⟩ := addAccess_ok entered
    have known : access.Fits middle.arena
        (if table.contains key then key ++ "#" ++ toString position else key) := by
      refine ⟨key, refers, ?_⟩
      split
      · exact .inr ⟨position, rfl⟩
      · exact .inl rfl
    obtain ⟨extendsRest, fitsRest⟩ := ih (fits.insert extendsFirst.grows known beyond within)
      (Nat.le_trans within extendsFirst.grows.size_le) rest
    refine ⟨.trans (extendsFirst.mono ?_) (extendsRest.mono ?_), fitsRest⟩
    · intro reference defined
      exact ⟨record, List.mem_cons_self, defined⟩
    · rintro reference ⟨other, later, defined⟩
      exact ⟨other, List.mem_cons_of_mem record later, defined⟩

/-! ### Statements -/

/-- The references that a statement defines: those of its listing and of the values it stores. -/
def StatementDefines (statement : Record.Statement) (reference : String) : Prop :=
  (∃ listing lines, statement.instructions = some listing ∧
    Instruction.readListing listing = .ok lines ∧
    ∃ line ∈ lines, line.2.defines? = some reference) ∨
  ∃ access ∈ statement.accesses, AccessDefines access reference

/-- The listing of a statement, if it has one, extends a draft. -/
theorem scan_ok {listing : String} {after : Draft} {branches : List Branch}
    (ran : draft.scan listing = .ok (after, branches)) :
    ∃ lines, Instruction.readListing listing = .ok lines ∧
      (after, branches) = lines.foldl scanLine (draft, []) := by
  unfold scan at ran
  split at ran
  · cases ran
  · rename_i lines read
    exact ⟨lines, read, (Except.ok.inj ran).symm⟩

/-- What entering a statement does: its listing, if it has one, then its loops, then its accesses. -/
theorem addStatement_cases {branches : List Branch} {record : Record.Statement} {after : Draft}
    (ran : addStatement branches draft record = .ok after) :
    ∃ affine domain listed own accessed accesses,
      draft.statements.get? record.name = none ∧ record.affine = some affine ∧
      readPart (.domain record.name) record.domain = .ok domain ∧
      ((record.instructions = none ∧ listed = draft ∧ own = branches) ∨
        ∃ listing, record.instructions = some listing ∧ draft.scan listing = .ok (listed, own)) ∧
      (record.loops.foldl addLoop (listed, Table.empty)).1.addAccesses record.name own 0 Table.empty
        record.accesses = .ok (accessed, accesses) ∧
      after = { accessed with
        statements := accessed.statements.insert record.name
          ⟨record.name, domain, affine, record.loops.length, accesses,
            (record.loops.foldl addLoop (listed, Table.empty)).2⟩ } := by
  cases taken : draft.statements.contains record.name with
  | true =>
    simp only [addStatement, taken] at ran
    cases ran
  | false =>
    have absent := Table.contains_eq_false_iff.1 taken
    cases affine : record.affine with
    | none =>
      simp only [addStatement, taken, affine] at ran
      cases ran
    | some flag =>
      cases instructions : record.instructions with
      | none =>
        simp only [addStatement, taken, affine, instructions] at ran
        obtain ⟨domain, parsed, ran⟩ := bind_eq_ok.1 ran
        obtain ⟨_, same, ran⟩ := bind_eq_ok.1 ran
        cases same
        obtain ⟨⟨accessed, accesses⟩, entered, ran⟩ := bind_eq_ok.1 ran
        cases ran
        exact ⟨flag, domain, draft, branches, accessed, accesses, absent, rfl, parsed,
          .inl ⟨rfl, rfl, rfl⟩, entered, rfl⟩
      | some listing =>
        simp only [addStatement, taken, affine, instructions] at ran
        obtain ⟨domain, parsed, ran⟩ := bind_eq_ok.1 ran
        obtain ⟨⟨listed, own⟩, scanned, ran⟩ := bind_eq_ok.1 ran
        obtain ⟨⟨accessed, accesses⟩, entered, ran⟩ := bind_eq_ok.1 ran
        cases ran
        exact ⟨flag, domain, listed, own, accessed, accesses, absent, rfl, parsed,
          .inr ⟨listing, rfl, scanned⟩, entered, rfl⟩

/-- A statement is entered from its record: the domain is read, and the loops are known by the references
    that their texts define. -/
structure EnteredFrom (record : Record.Statement) (statement : Statement) : Prop where
  name : statement.name = record.name
  domain : readPart (.domain record.name) record.domain = .ok statement.domain
  loops : statement.loops.keys =
    (record.loops.filterMap Instruction.definedReference?).eraseDups

/-- A statement continues a draft and brings one entry, whose tables fit and whose loops and accesses have
    new places. -/
theorem addStatement_ok {branches : List Branch} {record : Record.Statement} {after : Draft}
    (ran : addStatement branches draft record = .ok after) :
    Continues (StatementDefines record) draft after ∧
      ∃ entry, draft.statements.get? record.name = none ∧
        after.statements = draft.statements.insert record.name entry ∧
        entry.Fits after.arena record.name ∧
        AccessesFit draft.arena.size after.arena entry.accesses ∧
        (∀ {reference id}, entry.loops.get? reference = some id → draft.arena.size ≤ id.index ∧
          ∃ printed ∈ record.loops, Instruction.definedReference? printed = some reference) ∧
        EnteredFrom record entry := by
  obtain ⟨affine, domain, listed, own, accessed, accesses, absent, _, parsed, listing, entered,
    rfl⟩ := addStatement_cases ran
  have extendsListed : Extends (StatementDefines record) draft listed := by
    rcases listing with ⟨_, rfl, _⟩ | ⟨listing, given, scanned⟩
    · exact .refl _ listed
    · obtain ⟨lines, read, folded⟩ := scan_ok scanned
      have extended := extends_scanLines (draft, []) lines
      rw [← folded] at extended
      exact extended.mono fun reference defined => .inl ⟨listing, lines, given, read, defined⟩
  obtain ⟨extendsLoops, loopsFit⟩ := addLoops_ok (StatementDefines record)
    (fun reference => ∃ printed ∈ record.loops,
      Instruction.definedReference? printed = some reference) (listed, Table.empty)
    (fun printed member _ defined => ⟨printed, member, defined⟩) extendsListed.grows.size_le
    (fun found => (by cases found))
  have toLoops := extendsListed.trans extendsLoops
  obtain ⟨extendsAccesses, accessesFit⟩ := addAccesses_ok
    (accessesFit_empty draft.arena.size _) toLoops.grows.size_le entered
  have whole := toLoops.trans (extendsAccesses.mono fun reference defined => .inr defined)
  refine ⟨{ whole.toContinues with }, _, absent, by rw [whole.statements], ⟨rfl, ?_, ?_⟩,
    accessesFit, ?_, rfl, parsed, ?_⟩
  · intro reference id found
    exact (loopsFit found).1.keep extendsAccesses.grows.keeps
  · exact accessesFit.fits
  · exact fun found => (loopsFit found).2
  · rw [keys_addLoops]
    simp [Table.empty, Table.keys, List.removeAll]

/-- The places of the accesses after a new statement. -/
theorem accessIds_insert {statements : Table Statement} {name : String} {entry : Statement}
    (absent : statements.get? name = none) :
    accessIds (statements.insert name entry) =
      accessIds statements ++ entry.accesses.values.map Access.value := by
  simp [accessIds, Table.values, Table.entries_insert_of_get?_eq_none entry absent]

/-- The places of the loops after a new statement. -/
theorem loopIds_insert {statements : Table Statement} {name : String} {entry : Statement}
    (absent : statements.get? name = none) :
    loopIds (statements.insert name entry) = loopIds statements ++ entry.loops.values := by
  simp [loopIds, Table.values, Table.entries_insert_of_get?_eq_none entry absent]

/-- The places of loops stand in the arena. -/
theorem lt_size_of_mem_loopIds {arena : Arena} {parameters : Table Parameter}
    {computations : Table ValueId} {statements : Table Statement}
    (consistent : Consistent arena parameters computations statements) {id : ValueId}
    (member : id ∈ loopIds statements) : id.index < arena.size := by
  obtain ⟨statement, declared, inside⟩ := List.mem_flatMap.1 member
  obtain ⟨name, found⟩ := Table.exists_get?_of_mem_values declared
  obtain ⟨reference, known⟩ := Table.exists_get?_of_mem_values inside
  obtain ⟨value, held, _⟩ := (consistent.statement found).loops known
  exact Arena.lt_size held

/-- The places of accesses stand in the arena. -/
theorem lt_size_of_mem_accessIds {arena : Arena} {parameters : Table Parameter}
    {computations : Table ValueId} {statements : Table Statement}
    (consistent : Consistent arena parameters computations statements) {id : ValueId}
    (member : id ∈ accessIds statements) : id.index < arena.size := by
  obtain ⟨statement, declared, inside⟩ := List.mem_flatMap.1 member
  obtain ⟨access, listed, rfl⟩ := List.mem_map.1 inside
  obtain ⟨name, found⟩ := Table.exists_get?_of_mem_values declared
  obtain ⟨key, known⟩ := Table.exists_get?_of_mem_values listed
  exact ((consistent.statement found).accesses known).lt_size

/-- Entering a statement keeps a draft sound, if its loops are among the induction variables. -/
theorem Sound.addStatement {branches : List Branch} {record : Record.Statement} {after : Draft}
    (sound : draft.Sound)
    (counted : ∀ printed ∈ record.loops, ∀ {reference},
      Instruction.definedReference? printed = some reference → reference ∈ draft.induction)
    (ran : Draft.addStatement branches draft record = .ok after) : after.Sound := by
  obtain ⟨continued, entry, absent, inserted, fits, accessesFit, loops, _⟩ := addStatement_ok ran
  -- without the new statement, the draft only extends the one before
  have extended : Extends (StatementDefines record) draft
      { after with statements := draft.statements } := ⟨{ continued with }, rfl⟩
  have middle := sound.extend extended
  refine { middle with
    consistent := { middle.consistent with
      statement := ?_
      distinct := ?_
      separate := ?_ }
    counted := ?_ }
  · intro name statement found
    rw [inserted, Table.get?_insert] at found
    split at found
    · rename_i same
      cases found
      exact same ▸ fits
    · exact middle.consistent.statement found
  · rw [inserted, accessIds_insert absent]
    refine List.nodup_append.2 ⟨sound.consistent.distinct, accessesFit.distinct, ?_⟩
    rintro old earlier new later rfl
    obtain ⟨access, listed, rfl⟩ := List.mem_map.1 later
    exact Nat.not_lt_of_le (accessesFit.fresh listed)
      (lt_size_of_mem_accessIds sound.consistent earlier)
  · rw [inserted, loopIds_insert absent]
    have own : (entry.loops.values.map fun id => id).Nodup := nodup_of_names fits.loops
    rw [List.map_id'] at own
    refine List.nodup_append.2 ⟨sound.consistent.separate, own, ?_⟩
    rintro old earlier new later rfl
    obtain ⟨reference, known⟩ := Table.exists_get?_of_mem_values later
    exact Nat.not_lt_of_le (loops known).1 (lt_size_of_mem_loopIds sound.consistent earlier)
  · intro name statement reference id declared found
    rw [inserted, Table.get?_insert] at declared
    rw [continued.induction]
    split at declared
    · cases declared
      obtain ⟨_, printed, member, defined⟩ := loops found
      exact counted printed member defined
    · exact sound.counted declared found

/-- The references that the statements of a record define. -/
def LaterDefines (record : Record) (reference : String) : Prop :=
  ∃ statement ∈ record.statements, StatementDefines statement reference

/-- Entering the statements of a record continues a draft and keeps it sound. -/
theorem addStatements_ok {branches : List Branch} {record : Record} {after : Draft}
    (sound : draft.Sound) (induction : draft.induction = inductionReferences record)
    (ran : record.statements.foldlM (addStatement branches) draft = .ok after) :
    Continues (LaterDefines record) draft after ∧ after.Sound := by
  obtain ⟨⟨soundAfter, _⟩, continued, _⟩ := foldlM_ok
    (fun draft => draft.Sound ∧ draft.induction = inductionReferences record)
    (Continues (LaterDefines record)) (fun _ _ => True)
    (Continues.refl _) Continues.trans (fun _ _ => trivial) (fun statement member before after inv
      stepped => by
        have continued := (addStatement_ok stepped).1
        refine ⟨⟨inv.1.addStatement ?_ stepped, continued.induction.trans inv.2⟩,
          continued.mono fun reference defined => ⟨statement, member, defined⟩, trivial⟩
        intro printed counts reference defined
        rw [inv.2]
        exact List.mem_flatMap.2 ⟨statement, member, List.mem_filterMap.2 ⟨printed, counts, defined⟩⟩)
    ⟨sound, induction⟩ ran
  exact ⟨continued, soundAfter⟩

/-! ### Records -/

/-- A sound draft in which nothing is defined yet. -/
structure Blank (draft : Draft) : Prop extends Sound draft where
  computations : draft.computations = Table.empty
  statements : draft.statements = Table.empty
  formless : draft.formless = []

theorem blank_empty : Blank empty := ⟨sound_empty, rfl, rfl, rfl⟩

theorem Blank.addStorage {array : Record.Array} {after : Draft} (blank : draft.Blank)
    (ran : draft.addStorage array = .ok after) : after.Blank := by
  simp only [Draft.addStorage] at ran
  split at ran
  · cases ran
  · cases ran
    exact ⟨{ blank.toSound with }, blank.computations, blank.statements, blank.formless⟩

theorem Blank.addParameter {parameter : Record.Parameter} {after : Draft} (blank : draft.Blank)
    (ran : draft.addParameter parameter = .ok after) : after.Blank := by
  obtain ⟨type, _, entered⟩ := bind_eq_ok.1 ran
  cases entered
  generalize (Instruction.definedReference? parameter.printed).getD ("%" ++ parameter.name)
    = reference
  have adds := draft.arena.adds_push ⟨reference, type, .parameter parameter.name, []⟩
  have extended : Extends (fun _ => False) draft
      (draft.add ⟨reference, type, .parameter parameter.name, []⟩).1 :=
    extends_add (Arena.madeFromOperands_of_nil rfl)
  have middle := blank.toSound.extend extended
  refine ⟨{ middle with consistent := { middle.consistent with parameter := ?_ } },
    blank.computations, blank.statements, blank.formless⟩
  intro key entry found
  rw [Table.get?_insert] at found
  split at found
  · rename_i same
    cases found
    exact ⟨_, adds.get?_nextId, same, rfl⟩
  · exact middle.consistent.parameter found

/-- The references of induction variables are given before anything is defined. -/
theorem Blank.setInduction (blank : draft.Blank) (induction : List String) :
    Blank { draft with induction } where
  consistent := blank.consistent
  made := blank.made
  free := by
    intro reference id found
    rw [blank.computations] at found
    cases found
  counted := by
    intro name statement reference id declared
    rw [blank.statements] at declared
    cases declared
  computations := blank.computations
  statements := blank.statements
  formless := blank.formless

/-- A property that every step of a fold keeps holds at its end. -/
theorem keeps_foldlM {α : Type} {Inv : Draft → Prop} {step : Draft → α → Except Failure Draft}
    (each : ∀ {item before after}, Inv before → step before item = .ok after → Inv after)
    {items : List α} {after : Draft} (inv : Inv draft)
    (ran : items.foldlM step draft = .ok after) : Inv after :=
  (foldlM_ok Inv (fun _ _ => True) (fun _ _ => True) (fun _ => trivial) (fun _ _ => trivial)
    (fun _ _ => trivial) (fun _ _ {_ _} before stepped => ⟨each before stepped, trivial, trivial⟩)
    inv ran).1

/-- How the draft of a record is made: nothing is defined before its listing, and its statements are entered
    with the branches of the listing. -/
theorem draftOfRecord_cases {record : Record} (ran : draftOfRecord record = .ok draft) :
    ∃ before lines, before.Blank ∧ before.induction = inductionReferences record ∧
      Instruction.readListing record.instructions = .ok lines ∧
      record.statements.foldlM (addStatement (lines.foldl scanLine (before, [])).2)
        (lines.foldl scanLine (before, [])).1 = .ok draft := by
  obtain ⟨stored, storing, ran⟩ := bind_eq_ok.1 ran
  obtain ⟨parameterised, entering, ran⟩ := bind_eq_ok.1 ran
  obtain ⟨⟨listed, branches⟩, scanned, ran⟩ := bind_eq_ok.1 ran
  obtain ⟨lines, read, folded⟩ := scan_ok scanned
  have blankStored : stored.Blank := keeps_foldlM Blank.addStorage blank_empty storing
  have blankEntered : parameterised.Blank := keeps_foldlM Blank.addParameter blankStored entering
  exact ⟨_, lines, blankEntered.setInduction (inductionReferences record), rfl, read,
    folded ▸ ran⟩

/-- The statements of a record continue what its listing leaves. -/
theorem draftOfRecord_ok {record : Record} (ran : draftOfRecord record = .ok draft) :
    ∃ before lines, before.Blank ∧ before.induction = inductionReferences record ∧
      Instruction.readListing record.instructions = .ok lines ∧
      Continues (LaterDefines record) (lines.foldl scanLine (before, [])).1 draft ∧
      draft.Sound := by
  obtain ⟨before, lines, blank, induction, read, ran⟩ := draftOfRecord_cases ran
  have extended := extends_scanLines (before, []) lines
  obtain ⟨continued, sound⟩ := addStatements_ok (blank.toSound.extend extended)
    (extended.induction.trans induction) ran
  exact ⟨before, lines, blank, induction, read, continued, sound⟩

/-- The statements of a draft are those of the record, in order. -/
theorem draftOfRecord_entered {record : Record} (ran : draftOfRecord record = .ok draft) :
    List.Forall₂ (fun recorded entry => entry.1 = recorded.name ∧ EnteredFrom recorded entry.2)
      record.statements draft.statements.entries := by
  obtain ⟨before, lines, blank, _, _, ran⟩ := draftOfRecord_cases ran
  have none : (lines.foldl scanLine (before, [])).1.statements.entries = [] := by
    rw [(extends_scanLines (before, []) lines).statements, blank.statements]
    rfl
  obtain ⟨entries, appended, entered⟩ := foldlM_appends
    (fun recorded entry => entry.1 = recorded.name ∧ EnteredFrom recorded entry.2)
    (fun draft => draft.statements.entries)
    (fun recorded _ {_ _} stepped => by
      obtain ⟨_, entry, absent, inserted, _, _, _, entered⟩ := addStatement_ok stepped
      refine ⟨(recorded.name, entry), ?_, rfl, entered⟩
      rw [inserted, Table.entries_insert_of_get?_eq_none entry absent]) ran
  rw [none, List.nil_append] at appended
  rw [appended]
  exact entered

/-- A statement of a draft is entered from the statement of the record with its name. -/
theorem enteredFrom_of_get? {record : Record} (ran : draftOfRecord record = .ok draft)
    {recorded : Record.Statement} (member : recorded ∈ record.statements) {statement : Statement}
    (found : draft.statements.get? recorded.name = some statement) :
    EnteredFrom recorded statement := by
  obtain ⟨⟨name, entry⟩, listed, named, entered⟩ := exists_partner (draftOfRecord_entered ran) member
  cases named
  cases (Table.get?_eq_some_iff.2 listed).symm.trans found
  exact entered

end Draft

/-- The names of the statements that are left out. -/
def Draft.droppedNames (draft : Draft) : List String :=
  draft.droppedStatements.map DroppedStatement.name

/-- A region has what is in its draft, without the statements that are left out, and the relations of its
    record, without what they say about these. -/
structure BuiltFrom (record : Record) (draft : Draft) (region : Region) : Prop where
  arena : region.arena = draft.arena
  storage : region.storage = draft.storage
  parameters : region.parameters = draft.parameters
  computations : region.computations = draft.computations
  dropped : region.dropped = draft.droppedStatements
  statements : region.statements = draft.statements.filter fun name _ =>
    !draft.droppedNames.contains name
  schedule : ∃ whole, readPart .schedule record.schedule = .ok whole ∧
    region.schedule = if draft.droppedNames.isEmpty then whole else whole.without draft.droppedNames
  dependences : ∃ whole, readDependences record.dependences = .ok whole ∧
    region.dependences =
      if draft.droppedNames.isEmpty then whole else whole.without draft.droppedNames

/-- The region of a record is built from its draft. -/
theorem ofRecord_cases {record : Record} {region : Region} (ran : ofRecord record = .ok region) :
    ∃ draft, draftOfRecord record = .ok draft ∧ BuiltFrom record draft region := by
  obtain ⟨draft, drafted, ran⟩ := bind_eq_ok.1 ran
  refine ⟨draft, drafted, ?_⟩
  dsimp only at ran
  split at ran
  · cases ran
  · obtain ⟨schedule, scheduled, ran⟩ := bind_eq_ok.1 ran
    obtain ⟨dependences, depends, ran⟩ := bind_eq_ok.1 ran
    obtain ⟨context, _, ran⟩ := bind_eq_ok.1 ran
    cases ran
    exact ⟨rfl, rfl, rfl, rfl, rfl, rfl, ⟨schedule, scheduled, rfl⟩, ⟨dependences, depends, rfl⟩⟩

/-- The tables of the region of a record are consistent, and its arguments are operands. -/
theorem ofRecord_ok {record : Record} {region : Region} (ran : ofRecord record = .ok region) :
    Consistent region.arena region.parameters region.computations region.statements ∧
      ∀ {id value}, region.arena.get? id = some value →
        region.arena.MadeFromOperands value := by
  obtain ⟨draft, drafted, built⟩ := ofRecord_cases ran
  obtain ⟨_, _, _, _, _, _, sound⟩ := Draft.draftOfRecord_ok drafted
  rw [built.arena, built.parameters, built.computations, built.statements]
  generalize (fun name _ => !draft.droppedNames.contains name) = keep
  refine ⟨{ sound.consistent with
    statement := ?_
    distinct := ?_
    separate := ?_ }, sound.made⟩
  · intro name statement found
    exact sound.consistent.statement (Table.get?_filter_eq_some_iff.1 found).1
  · have fewer : (accessIds (draft.statements.filter keep)).Sublist
        (accessIds draft.statements) := (List.filter_sublist.map Prod.snd).flatMap _
    exact sound.consistent.distinct.sublist fewer
  · have fewer : (loopIds (draft.statements.filter keep)).Sublist
        (loopIds draft.statements) := (List.filter_sublist.map Prod.snd).flatMap _
    exact sound.consistent.separate.sublist fewer

end Region

end RegionFlow
