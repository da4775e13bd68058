/-
Module: RegionFlow.Proofs.Accesses
Purpose: Which accesses of a record its region has. The accesses of a statement are entered in
  order, each under the key that its texts give, or, where that key is taken, under key and number.
  Nothing keeps the key with the number from being taken too: an access that finds it taken takes
  the place of the one that has it. So a statement has all its accesses exactly if no two of them
  are entered under the same key, which is so if no key is a later key with its number.
Main exports: Record.Access.key, Record.labels, Record.labels_nodup, Region.Access.RecordedAs,
  Region.accessesFrom_of_ofRecord, Record.keeps_accesses_iff
-/
import RegionFlow.Proofs.Building

namespace RegionFlow

open Polyhedral (Relation)

namespace Record

/-! ### Keys and labels -/

/-- The array that an access of a statement leads to. -/
def Access.array? (statement : String) (access : Access) : Option String :=
  (Region.readPart (.accessRelation statement) access.relation).toOption.bind
    Region.Draft.targetArray?

/-- The key that the texts of an access give: a read goes by the reference that it defines, failing
    that by the base pointer of its array, failing that by array and position; a write goes by its
    instruction, failing that by statement and array. -/
def Access.key (storage : Table Storage) (statement : String) (position : Nat) (access : Access) :
    String :=
  let array := (access.array? statement).getD ""
  let instruction := Text.trimmed access.instruction
  match access.direction with
  | .read =>
    let pointer := (storage.get? array).bind fun entry =>
      Instruction.definedReference? entry.pointer
    ((Instruction.definedReference? instruction).or pointer).getD
      (array ++ "." ++ toString position)
  | .write => if instruction.isEmpty then statement ++ " -> " ++ array else instruction

/-- The keys of accesses of a statement that are numbered from `position` on. -/
def accessKeys (storage : Table Storage) (statement : String) (position : Nat)
    (accesses : List Access) : List String :=
  (accesses.zipIdx position).map fun entry => entry.1.key storage statement entry.2

theorem accessKeys_cons (storage : Table Storage) (statement : String) (position : Nat)
    (access : Access) (accesses : List Access) :
    accessKeys storage statement position (access :: accesses) =
      access.key storage statement position ::
        accessKeys storage statement (position + 1) accesses := rfl

/-- A key with a number. -/
def numbered (key : String) (position : Nat) : String :=
  key ++ "#" ++ toString position

/-- What accesses with the given keys are entered under, where some labels are taken: a key, or, if
    it is taken, the key with the number of the access. -/
def labelsFrom (taken : List String) (position : Nat) : List String → List String
  | [] => []
  | key :: keys =>
    let label := if key ∈ taken then numbered key position else key
    label :: labelsFrom (taken ++ [label]) (position + 1) keys

/-- What the accesses of a statement are entered under. -/
def labels (storage : Table Storage) (statement : Statement) : List String :=
  labelsFrom [] 0 (accessKeys storage statement.name 0 statement.accesses)

theorem length_labelsFrom (taken : List String) (position : Nat) (keys : List String) :
    (labelsFrom taken position keys).length = keys.length := by
  induction keys generalizing taken position with
  | nil => rfl
  | cons key keys ih => rw [labelsFrom, List.length_cons, List.length_cons, ih]

/-- Keys with different numbers differ: the number is what stands behind the last sharp. -/
theorem position_of_numbered {first second : String} {one two : Nat}
    (same : numbered first one = numbered second two) : one = two := by
  have noSharp : ∀ number : Nat, ∀ c ∈ (toString number).toList.reverse, (c != '#') = true := by
    intro number c member
    have digit : c ∈ Nat.toDigits 10 number := by
      simpa [Nat.repr, ToString.toString] using List.mem_reverse.1 member
    have isDigit := Nat.isDigit_of_mem_toDigits (by decide) (by decide) digit
    simp only [bne_iff_ne]
    rintro rfl
    exact absurd isDigit (by decide)
  have last : ∀ (key : String) (number : Nat),
      (numbered key number).toList.reverse.takeWhile (· != '#') = (toString number).toList.reverse := by
    intro key number
    rw [numbered, String.toList_append, String.toList_append, List.reverse_append,
      List.takeWhile_append_of_pos (noSharp number), List.reverse_append]
    exact List.append_nil _
  have texts := last first one
  rw [same, last second two] at texts
  have digits : Nat.toDigits 10 two = Nat.toDigits 10 one := by
    simpa only [Nat.toString_eq_repr, Nat.toList_repr] using List.reverse_injective texts
  simpa using (congrArg (fun digits => Nat.ofDigitChars 10 digits 0) digits).symm

/-- Labels are distinct, from each other and from the labels that are taken, if no key is a later
    key with its number and no label that is taken is a key with its number. -/
theorem nodup_labelsFrom {keys taken : List String} {position : Nat} (distinct : taken.Nodup)
    (apart : ∀ label ∈ taken, ∀ later key, keys[later]? = some key →
      label ≠ numbered key (position + later))
    (plain : ∀ earlier later first second, earlier < later → keys[earlier]? = some first →
      keys[later]? = some second → first ≠ numbered second (position + later)) :
    (taken ++ labelsFrom taken position keys).Nodup := by
  induction keys generalizing taken position with
  | nil => simpa [labelsFrom] using distinct
  | cons key keys ih =>
    rw [labelsFrom]
    generalize entered : (if key ∈ taken then numbered key position else key) = label
    have fresh : label ∉ taken := by
      rw [← entered]
      split
      · intro member
        exact apart _ member 0 key rfl rfl
      · assumption
    have more : (taken ++ [label]).Nodup := by
      rw [List.nodup_append]
      refine ⟨distinct, List.nodup_singleton label, ?_⟩
      rintro old member new same rfl
      rw [List.mem_singleton] at same
      exact fresh (same ▸ member)
    rw [List.append_cons]
    apply ih more
    · intro other member later second found
      have number : position + 1 + later = position + (later + 1) := by omega
      rw [number]
      rcases List.mem_append.1 member with old | new
      · exact apart other old (later + 1) second found
      · rw [List.mem_singleton.1 new, ← entered]
        split
        · intro same
          have := position_of_numbered same
          omega
        · exact plain 0 (later + 1) key second (Nat.succ_pos later) rfl found
    · intro earlier later first second before found other
      have number : position + 1 + later = position + (later + 1) := by omega
      rw [number]
      exact plain (earlier + 1) (later + 1) first second (Nat.succ_lt_succ before) found other

end Record

namespace Region

open Sequencing

/-! ### Entering accesses -/

/-- An access of a region is that of a record: it has the relation that is read from its text, and
    its value is an access in its direction to the array that the relation leads to. -/
structure Access.RecordedAs (arena : Arena) (statement : String) (recorded : Record.Access)
    (access : Access) : Prop where
  relation : readPart (.accessRelation statement) recorded.relation = .ok access.relation
  value : ∃ array text incoming value, Draft.targetArray? access.relation = some array ∧
    arena.get? access.value = some value ∧ value.kind = .access recorded.direction array text incoming

theorem Access.RecordedAs.keep {first second : Arena} (keeps : first.Keeps second)
    {statement : String} {recorded : Record.Access} {access : Access}
    (same : access.RecordedAs first statement recorded) :
    access.RecordedAs second statement recorded := by
  obtain ⟨array, text, incoming, value, target, found, kind⟩ := same.value
  obtain ⟨args, found⟩ := keeps found
  exact ⟨same.relation, array, text, incoming, _, target, found, kind⟩

/-- The accesses of a statement are those of its record, inserted in order under their labels. -/
def Statement.AccessesFrom (arena : Arena) (storage : Table Storage) (recorded : Record.Statement)
    (statement : Statement) : Prop :=
  ∃ accesses,
    List.Forall₂ (Access.RecordedAs arena recorded.name) recorded.accesses accesses ∧
    statement.accesses = Table.ofList ((Record.labels storage recorded).zip accesses)

/-- Each of these accesses is one that the record has. -/
theorem Statement.AccessesFrom.exists_recorded {arena : Arena} {storage : Table Storage}
    {recorded : Record.Statement} {statement : Statement}
    (entered : statement.AccessesFrom arena storage recorded) {access : Access}
    (member : access ∈ statement.accesses.values) :
    ∃ source ∈ recorded.accesses, access.RecordedAs arena recorded.name source := by
  obtain ⟨accesses, same, inserted⟩ := entered
  obtain ⟨key, found⟩ := Table.exists_get?_of_mem_values member
  rw [inserted] at found
  obtain ⟨before, after, split, _⟩ := Table.get?_ofList_eq_some_iff.1 found
  have listed : (key, access) ∈ (Record.labels storage recorded).zip accesses := by simp [split]
  exact exists_partner same.flip (List.of_mem_zip listed).2

namespace Draft

variable {draft after : Draft} {statement key : String} {position : Nat} {branches : List Branch}

/-- A read is entered with its relation, under the key that its texts give. -/
theorem addRead_recorded {array instruction : String} {element : ScalarType} {relation : Relation}
    {access : Access}
    (entered : draft.addRead array position element instruction relation = (after, key, access)) :
    access.relation = relation ∧
      key = ((Instruction.definedReference? instruction).or ((draft.storage.get? array).bind
        fun entry => Instruction.definedReference? entry.pointer)).getD
          (array ++ "." ++ toString position) ∧
      ∃ text incoming value, after.arena.get? access.value = some value ∧
        value.kind = .access .read array text incoming := by
  cases entered
  exact ⟨rfl, rfl, _, _, _, (draft.arena.adds_push _).get?_nextId, rfl⟩

/-- A write is entered with its relation, under the key that its texts give. -/
theorem addWrite_recorded {array instruction incoming : String} {element : ScalarType}
    {relation : Relation} {access : Access}
    (ran : draft.addWrite statement array element instruction incoming relation branches
      = .ok (after, key, access)) :
    access.relation = relation ∧
      key = (if instruction.isEmpty then statement ++ " -> " ++ array else instruction) ∧
      ∃ text incoming value, after.arena.get? access.value = some value ∧
        value.kind = .access .write array text incoming := by
  obtain ⟨⟨middle, stored⟩, _, last⟩ := bind_eq_ok.1 ran
  cases last
  exact ⟨rfl, rfl, _, _, _, (middle.arena.adds_push _).get?_nextId, rfl⟩

/-- An access is entered as it is recorded, under the key that its texts give. -/
theorem addAccess_recorded {recorded : Record.Access} {access : Access}
    (ran : draft.addAccess statement position recorded branches = .ok (after, key, access)) :
    access.RecordedAs after.arena statement recorded ∧
      key = recorded.key draft.storage statement position := by
  obtain ⟨relation, parsed, entered⟩ := bind_eq_ok.1 ran
  cases target : targetArray? relation with
  | none =>
    simp only [target] at entered
    cases entered
  | some array =>
    have leads : recorded.array? statement = some array := by
      rw [Record.Access.array?, parsed]
      exact target
    rw [Record.Access.key, leads]
    simp only [target] at entered
    cases direction : recorded.direction with
    | read =>
      simp only [direction] at entered
      obtain ⟨rfl, known, text, incoming, value, found, kind⟩ :=
        addRead_recorded (Except.ok.inj entered)
      refine ⟨⟨parsed, array, text, incoming, value, target, found, ?_⟩, known⟩
      rw [direction, kind]
    | write =>
      simp only [direction] at entered
      obtain ⟨rfl, known, text, incoming, value, found, kind⟩ := addWrite_recorded entered
      refine ⟨⟨parsed, array, text, incoming, value, target, found, ?_⟩, known⟩
      rw [direction, kind]

/-- Accesses are entered as they are recorded, in order, under their labels. -/
theorem addAccesses_recorded {records : List Record.Access} {table entered : Table Access}
    {taken : List String} (known : ∀ key, table.contains key = true ↔ key ∈ taken)
    (ran : draft.addAccesses statement branches position table records = .ok (after, entered)) :
    draft.arena.Grows after.arena ∧ after.storage = draft.storage ∧ ∃ accesses,
      List.Forall₂ (Access.RecordedAs after.arena statement) records accesses ∧
      entered = ((Record.labelsFrom taken position
        (Record.accessKeys draft.storage statement position records)).zip accesses).foldl
          (fun table entry => table.insert entry.1 entry.2) table := by
  induction records generalizing draft position table taken with
  | nil =>
    cases ran
    exact ⟨.refl after.arena, rfl, [], .nil, rfl⟩
  | cons recorded records ih =>
    obtain ⟨⟨middle, key, access⟩, stepped, rest⟩ := bind_eq_ok.1 ran
    obtain ⟨same, rfl⟩ := addAccess_recorded stepped
    have extended := (addAccess_ok stepped).1
    generalize label : (if recorded.key draft.storage statement position ∈ taken then
      Record.numbered (recorded.key draft.storage statement position) position
      else recorded.key draft.storage statement position) = name
    have chosen : (if table.contains (recorded.key draft.storage statement position) then
        recorded.key draft.storage statement position ++ "#" ++ toString position
        else recorded.key draft.storage statement position) = name := by
      rw [← label]
      simp only [known, Record.numbered]
    dsimp only at rest
    rw [chosen] at rest
    have knownNext : ∀ key, (table.insert name access).contains key = true ↔
        key ∈ taken ++ [name] := by
      intro key
      rw [Table.contains, Table.get?_insert, List.mem_append, List.mem_singleton, ← known key,
        Table.contains]
      split
      · rename_i hit
        simp [hit]
      · rename_i other
        simp [Ne.symm other]
    obtain ⟨grows, stored, accesses, recordedRest, inserted⟩ := ih knownNext rest
    refine ⟨extended.grows.trans grows, stored.trans extended.storage, access :: accesses,
      .cons (same.keep grows.keeps) recordedRest, ?_⟩
    rw [inserted, extended.storage, Record.accessKeys_cons, Record.labelsFrom, label,
      List.zip_cons_cons, List.foldl_cons]

/-- A statement is entered with the accesses of its record. -/
theorem addStatement_accesses {recorded : Record.Statement}
    (ran : addStatement branches draft recorded = .ok after) :
    ∃ entry, after.statements.get? recorded.name = some entry ∧
      entry.AccessesFrom after.arena after.storage recorded := by
  obtain ⟨affine, domain, listed, own, accessed, accesses, _, _, _, _, entered, rfl⟩ :=
    addStatement_cases ran
  have nothing : ∀ key, (Table.empty : Table Access).contains key = true ↔ key ∈ [] := by
    simp [Table.contains]
  obtain ⟨_, stored, made, recordedAll, inserted⟩ := addAccesses_recorded nothing entered
  refine ⟨_, (Table.get?_insert _ _ _ _).trans (if_pos rfl), made, recordedAll, ?_⟩
  rw [Record.labels, Table.ofList, stored]
  exact inserted

/-- The second draft has the values, the storage and the statements of the first. -/
structure Retains (first second : Draft) : Prop where
  grows : first.arena.Grows second.arena
  storage : second.storage = first.storage
  statements : ∀ {name entry}, first.statements.get? name = some entry →
    second.statements.get? name = some entry

theorem retains_addStatement {recorded : Record.Statement}
    (ran : addStatement branches draft recorded = .ok after) : Retains draft after := by
  obtain ⟨continued, entry, absent, inserted, _⟩ := addStatement_ok ran
  refine ⟨continued.grows, continued.storage, fun {name other} found => ?_⟩
  rw [inserted, Table.get?_insert, if_neg, found]
  rintro rfl
  rw [absent] at found
  cases found

/-- Every statement of a draft has the accesses of its record. -/
theorem draftOfRecord_accesses {record : Record} (drafted : draftOfRecord record = .ok draft)
    {recorded : Record.Statement} (member : recorded ∈ record.statements) :
    ∃ entry, draft.statements.get? recorded.name = some entry ∧
      entry.AccessesFrom draft.arena draft.storage recorded := by
  obtain ⟨before, lines, _, _, _, ran⟩ := draftOfRecord_cases drafted
  refine (foldlM_ok (fun _ : Draft => True) Retains
    (fun draft (recorded : Record.Statement) => ∃ entry,
      draft.statements.get? recorded.name = some entry ∧
      entry.AccessesFrom draft.arena draft.storage recorded) ?_ ?_ ?_ ?_ trivial ran).2.2
        recorded member
  · exact fun draft => ⟨.refl draft.arena, rfl, id⟩
  · exact fun one two => ⟨one.grows.trans two.grows, two.storage.trans one.storage,
      fun found => two.statements (one.statements found)⟩
  · rintro first second recorded retains ⟨entry, found, accesses, same, inserted⟩
    refine ⟨entry, retains.statements found, accesses, ?_, retains.storage ▸ inserted⟩
    exact same.imp fun _ _ recordedAs => recordedAs.keep retains.grows.keeps
  · intro recorded _ first second _ stepped
    exact ⟨trivial, retains_addStatement stepped, addStatement_accesses stepped⟩

end Draft

/-- A statement that the region of a record keeps has the accesses of its record. -/
theorem accessesFrom_of_ofRecord {record : Record} {region : Region}
    (built : ofRecord record = .ok region) {recorded : Record.Statement}
    (member : recorded ∈ record.statements) {statement : Statement}
    (declared : region.statements.get? recorded.name = some statement) :
    statement.AccessesFrom region.arena region.storage recorded := by
  obtain ⟨draft, drafted, builtFrom⟩ := ofRecord_cases built
  obtain ⟨entry, found, accesses⟩ := Draft.draftOfRecord_accesses drafted member
  rw [builtFrom.statements, Table.get?_filter_eq_some_iff] at declared
  cases found.symm.trans declared.1
  rw [builtFrom.arena, builtFrom.storage]
  exact accesses

end Region

namespace Record

variable {record : Record} {region : Region} {recorded : Statement} {statement : Region.Statement}

/-- The labels of accesses are distinct if no key is a later key with its number. -/
theorem labels_nodup {storage : Table Storage}
    (plain : ∀ earlier later first second, earlier < later →
      (accessKeys storage recorded.name 0 recorded.accesses)[earlier]? = some first →
      (accessKeys storage recorded.name 0 recorded.accesses)[later]? = some second →
      first ≠ numbered second later) : (labels storage recorded).Nodup := by
  rw [labels, ← List.nil_append (labelsFrom _ _ _)]
  apply nodup_labelsFrom List.nodup_nil
  · intro label member
    cases member
  · simpa only [Nat.zero_add] using plain

/-- A statement has one entry for each access of its record, in order, if the labels are distinct, and only
    then. -/
theorem forall₂_accesses_iff
    (entered : statement.AccessesFrom region.arena region.storage recorded) :
    List.Forall₂ (fun access entry => entry.2.RecordedAs region.arena recorded.name access)
      recorded.accesses statement.accesses.entries ↔ (labels region.storage recorded).Nodup := by
  obtain ⟨accesses, same, inserted⟩ := entered
  have count : (labels region.storage recorded).length = accesses.length := by
    rw [labels, length_labelsFrom, ← same.length_eq, accessKeys, List.length_map, List.length_zipIdx]
  have keys := List.map_fst_zip (Nat.le_of_eq count)
  have values := List.map_snd_zip (Nat.le_of_eq count.symm)
  rw [inserted]
  constructor
  · intro kept
    rw [← keys]
    apply Table.length_entries_ofList_iff.1
    rw [← kept.length_eq, same.length_eq, List.length_zip, count, Nat.min_self]
  · intro distinct
    rw [Table.entries_ofList (by rw [keys]; exact distinct)]
    rw [← values, List.forall₂_map_right_iff] at same
    exact same

/-- The accesses of a statement of the region are those of its record, inserted in order under their
    labels, so that one with a label that is taken replaces the one that has it. The statement has
    one entry for each access of its record, in order and with its direction, array and relation,
    exactly if the labels are distinct; and so they are, whatever the texts of the accesses, if no
    key is a later key with its number. -/
theorem keeps_accesses_iff (built : Region.ofRecord record = .ok region)
    (member : recorded ∈ record.statements)
    (declared : region.statements.get? recorded.name = some statement) :
    statement.AccessesFrom region.arena region.storage recorded ∧
    (List.Forall₂ (fun access entry => entry.2.RecordedAs region.arena recorded.name access)
      recorded.accesses statement.accesses.entries ↔ (labels region.storage recorded).Nodup) ∧
    ((∀ earlier later first second, earlier < later →
        (accessKeys region.storage recorded.name 0 recorded.accesses)[earlier]? = some first →
        (accessKeys region.storage recorded.name 0 recorded.accesses)[later]? = some second →
        first ≠ numbered second later) →
      List.Forall₂ (fun access entry => entry.2.RecordedAs region.arena recorded.name access)
        recorded.accesses statement.accesses.entries) := by
  have entered := Region.accessesFrom_of_ofRecord built member declared
  have decides := forall₂_accesses_iff entered
  exact ⟨entered, decides, fun plain => decides.2 (labels_nodup plain)⟩

/-- A statement that stores to three arrays, the last two by the same instruction. -/
def thrice (first : String) : Statement where
  name := "S"
  domain := "\x7b S[i0] : 0 <= i0 <= 9 \x7d"
  affine := some true
  loops := ["%i = phi i64 [ 0, %e ]"]
  accesses := [
    ⟨.write, "\x7b S[i0] -> A[i0] \x7d", first, ""⟩,
    ⟨.write, "\x7b S[i0] -> B[i0] \x7d", "store double 1.0, ptr %p", ""⟩,
    ⟨.write, "\x7b S[i0] -> C[i0] \x7d", "store double 1.0, ptr %p", ""⟩]
  instructions := none

/-- The record of this statement. -/
def storingThrice (first : String) : Record where
  name := "thrice"
  context := ""
  schedule := ""
  parameters := []
  arrays := [⟨"A", .array, ["*"], "double", ""⟩, ⟨"B", .array, ["*"], "double", ""⟩,
    ⟨"C", .array, ["*"], "double", ""⟩]
  dependences := ⟨"", "", "", "", ""⟩
  instructions := ""
  statements := [thrice first]
  aliasGroups := []

/-- How many accesses the statement has in the region of the record, if there is a region. -/
def countStored (first : String) : Option Nat :=
  match Region.ofRecord (storingThrice first) with
  | .ok region => (region.statements.get? "S").map fun statement => statement.accesses.entries.length
  | .error _ => none

theorem exists_of_countStored {first : String} {count : Nat} (counted : countStored first = some count) :
    ∃ region statement, Region.ofRecord (storingThrice first) = .ok region ∧
      region.statements.get? "S" = some statement ∧ statement.accesses.entries.length = count := by
  unfold countStored at counted
  split at counted
  · rename_i region built
    obtain ⟨statement, declared, length⟩ := Option.map_eq_some_iff.1 counted
    exact ⟨region, statement, built, declared, length⟩
  · cases counted

/-- If the first instruction is another, the statement has all three accesses, though two have the same
    instruction. -/
theorem storingThrice_keeps_accesses :
    ∃ region statement, Region.ofRecord (storingThrice "store double 1.0, ptr %q") = .ok region ∧
      region.statements.get? "S" = some statement ∧
      List.Forall₂ (fun access entry => entry.2.RecordedAs region.arena "S" access)
        (thrice "store double 1.0, ptr %q").accesses statement.accesses.entries := by
  have counted : countStored "store double 1.0, ptr %q" = some 3 := by decide +kernel
  obtain ⟨region, statement, built, declared, _⟩ := exists_of_countStored counted
  obtain ⟨_, _, kept⟩ := keeps_accesses_iff built (List.mem_singleton.2 rfl) declared
  refine ⟨region, statement, built, declared, kept ?_⟩
  have keys : accessKeys region.storage (thrice "store double 1.0, ptr %q").name 0
      (thrice "store double 1.0, ptr %q").accesses =
        ["store double 1.0, ptr %q", "store double 1.0, ptr %p", "store double 1.0, ptr %p"] := rfl
  have apart : ∀ later < 3, ∀ earlier < later,
      ["store double 1.0, ptr %q", "store double 1.0, ptr %p", "store double 1.0, ptr %p"][earlier]? ≠
        (["store double 1.0, ptr %q", "store double 1.0, ptr %p",
          "store double 1.0, ptr %p"][later]?).map fun key => numbered key later := by
    decide +kernel
  rintro earlier later _ second before one two rfl
  rw [keys] at one two
  apply apart later (List.getElem?_eq_some_iff.1 two).1 earlier before
  rw [one, two]
  rfl

/-- A statement need not have all accesses of its record: if the first instruction is the second
    with the number of the third access behind it, the third access takes the place of the first. -/
theorem storingThrice_loses_access :
    ¬ ∀ (record : Record) (region : Region) (recorded : Statement) (statement : Region.Statement),
      Region.ofRecord record = .ok region → recorded ∈ record.statements →
      region.statements.get? recorded.name = some statement →
      List.Forall₂ (fun access entry => entry.2.RecordedAs region.arena recorded.name access)
        recorded.accesses statement.accesses.entries := by
  intro every
  have counted : countStored "store double 1.0, ptr %p#2" = some 2 := by decide +kernel
  obtain ⟨region, statement, built, declared, two⟩ := exists_of_countStored counted
  have kept := every _ region _ statement built (List.mem_singleton.2 rfl) declared
  have three := kept.length_eq
  rw [two] at three
  cases three

end Record

end RegionFlow
