/-
Module: RegionFlow.Proofs.Lockstep
Purpose: Two records that differ in the listing of the region only. Where each statement has a
  listing of its own, building goes the same way for both: it fails for the same reason, or the
  drafts have the same parameters, statements, loops and accesses, in order and under the same keys,
  made from the same operands. Only places differ, and what names are made from.
Main exports: Together, Table.Agree, Arena.Matches, Draft.Parallel, Record.relist,
  Draft.together_draftOfRecord
-/
import RegionFlow.Proofs.Makings

namespace RegionFlow

/-! ### Computations that go the same way -/

/-- Two computations go the same way: both succeed, with related results, or both fail for the same
    reason. -/
inductive Together {ε α β : Type} (Related : α → β → Prop) : Except ε α → Except ε β → Prop where
  | ok {one : α} {two : β} (related : Related one two) : Together Related (.ok one) (.ok two)
  | error (fault : ε) : Together Related (.error fault) (.error fault)

section

variable {ε α β γ δ σ τ : Type} {Related : α → β → Prop} {first : Except ε α} {second : Except ε β}

theorem together_self (computation : Except ε α) :
    Together (fun one two => one = two) computation computation := by
  cases computation with
  | ok value => exact .ok rfl
  | error fault => exact .error fault

theorem Together.bind {After : γ → δ → Prop} {next : α → Except ε γ} {other : β → Except ε δ}
    (one : Together Related first second)
    (rest : ∀ {value result}, first = .ok value → second = .ok result → Related value result →
      Together After (next value) (other result)) :
    Together After (first >>= next) (second >>= other) := by
  cases one with
  | ok related => exact rest rfl rfl related
  | error fault => exact .error fault

theorem Together.strengthen {After : α → β → Prop} (one : Together Related first second)
    (more : ∀ {value result}, first = .ok value → second = .ok result → Related value result →
      After value result) : Together After first second := by
  cases one with
  | ok related => exact .ok (more rfl rfl related)
  | error fault => exact .error fault

theorem Together.map_eq (one : Together Related first second) {view : α → γ} {other : β → γ}
    (same : ∀ {value result}, first = .ok value → second = .ok result → Related value result →
      view value = other result) : first.map view = second.map other := by
  cases one with
  | ok related => exact congrArg Except.ok (same rfl rfl related)
  | error fault => rfl

/-- Traversals go the same way if their steps do. -/
theorem together_foldlM {Related : σ → τ → Prop} {step : σ → α → Except ε σ}
    {other : τ → α → Except ε τ} {items : List α}
    (each : ∀ item ∈ items, ∀ {one two}, Related one two →
      Together Related (step one item) (other two item)) {one : σ} {two : τ}
    (related : Related one two) :
    Together Related (items.foldlM step one) (items.foldlM other two) := by
  induction items generalizing one two with
  | nil => exact .ok related
  | cons item items ih =>
    obtain ⟨here, later⟩ := List.forall_mem_cons.1 each
    rw [List.foldlM_cons, List.foldlM_cons]
    exact (here related).bind fun _ _ next => ih later next

end

/-! ### Tables with the same keys -/

namespace Table

/-- Two tables have the same keys in the same order, with related values. -/
def Agree {α β : Type} (Related : α → β → Prop) (first : Table α) (second : Table β) : Prop :=
  List.Forall₂ (fun one two => one.1 = two.1 ∧ Related one.2 two.2) first.entries second.entries

variable {α β : Type} {Related : α → β → Prop} {first : Table α} {second : Table β}

theorem agree_empty : Agree Related (empty : Table α) (empty : Table β) :=
  .nil

theorem agree_self {Related : α → α → Prop} {table : Table α}
    (each : ∀ {key value}, table.get? key = some value → Related value value) :
    Agree Related table table :=
  List.forall₂_same.2 fun _ member => ⟨rfl, each (get?_eq_some_iff.2 member)⟩

theorem Agree.mono {Weaker : α → β → Prop} (agree : Agree Related first second)
    (weaker : ∀ {one two}, Related one two → Weaker one two) : Agree Weaker first second :=
  agree.imp fun _ _ both => ⟨both.1, weaker both.2⟩

theorem Agree.flip (agree : Agree Related first second) :
    Agree (fun two one => Related one two) second first :=
  List.Forall₂.flip (agree.imp fun _ _ both => ⟨both.1.symm, both.2⟩)

theorem Agree.values (agree : Agree Related first second) :
    List.Forall₂ Related first.values second.values := by
  rw [Table.values, Table.values, List.forall₂_map_left_iff, List.forall₂_map_right_iff]
  exact agree.imp fun _ _ both => both.2

theorem Agree.isEmpty (agree : Agree Related first second) : first.isEmpty = second.isEmpty := by
  unfold Agree at agree
  unfold Table.isEmpty
  generalize first.entries = left, second.entries = right at agree
  cases agree with
  | nil => rfl
  | cons => rfl

theorem Agree.get? (agree : Agree Related first second) (key : String) :
    Option.Rel Related (first.get? key) (second.get? key) := by
  unfold Agree at agree
  unfold Table.get?
  generalize first.entries = left, second.entries = right at agree
  induction agree with
  | nil => exact .none
  | @cons one two _ _ both _ ih =>
    rw [find?, find?, ← both.1]
    split
    · exact .some both.2
    · exact ih

theorem Agree.contains (agree : Agree Related first second) (key : String) :
    first.contains key = second.contains key := by
  have found := agree.get? key
  rw [Table.contains, Table.contains]
  generalize first.get? key = one, second.get? key = two at found
  cases found with
  | none => rfl
  | some _ => rfl

theorem Agree.insert (agree : Agree Related first second) (key : String) {one : α} {two : β}
    (related : Related one two) : Agree Related (first.insert key one) (second.insert key two) := by
  unfold Agree at agree ⊢
  unfold Table.insert
  dsimp only
  generalize first.entries = left, second.entries = right at agree
  induction agree with
  | nil => exact .cons ⟨rfl, related⟩ .nil
  | @cons left right _ _ both later ih =>
    rw [put, put, ← both.1]
    split
    · exact .cons ⟨rfl, related⟩ later
    · exact .cons both ih

theorem Agree.filter (agree : Agree Related first second) (keep : String → Bool) :
    Agree Related (first.filter fun name _ => keep name) (second.filter fun name _ => keep name) := by
  unfold Agree at agree ⊢
  unfold Table.filter
  refine List.rel_filter ?_ agree
  intro one two both
  dsimp only
  rw [both.1]

end Table

/-! ### Values alike -/

/-- Values are alike: they differ in the texts of instructions and in the places of their arguments only. -/
structure Value.Resembles (one two : Value) : Prop where
  reference : one.reference = two.reference
  type : one.type = two.type
  kind : one.kind.untexted = two.kind.untexted

namespace Arena

/-- Places of two arenas hold the same operand, which is no name or an allowed one. -/
def SameOperand (Allowed : String → Prop) (first second : Arena) (one two : ValueId) : Prop :=
  ∃ operand : Operand × ScalarType, (∀ name, operand.1 = .ref name → Allowed name) ∧
    first.Stands operand one ∧ second.Stands operand two

/-- Places of two arenas hold values that are alike and made from the same operands. -/
def Matches (Allowed : String → Prop) (first second : Arena) (one two : ValueId) : Prop :=
  ∃ value other, first.get? one = some value ∧ second.get? two = some other ∧ value.Resembles other ∧
    List.Forall₂ (SameOperand Allowed first second) value.args other.args

variable {Allowed : String → Prop} {first second : Arena} {one two : ValueId}

theorem SameOperand.flip (same : SameOperand Allowed first second one two) :
    SameOperand Allowed second first two one := by
  obtain ⟨operand, allowed, stands, standsToo⟩ := same
  exact ⟨operand, allowed, standsToo, stands⟩

/-- Operands that stand in two arenas are the same. -/
theorem sameOperands {operands : List (Operand × ScalarType)} {args others : List ValueId}
    (allowed : ∀ operand ∈ operands, ∀ name, operand.1 = .ref name → Allowed name)
    (stands : List.Forall₂ first.Stands operands args)
    (standsToo : List.Forall₂ second.Stands operands others) :
    List.Forall₂ (SameOperand Allowed first second) args others := by
  induction stands generalizing others with
  | nil =>
    cases standsToo
    exact .nil
  | cons here _ ih =>
    obtain ⟨hereAllowed, laterAllowed⟩ := List.forall_mem_cons.1 allowed
    cases standsToo with
    | cons hereToo laterToo => exact .cons ⟨_, hereAllowed, here, hereToo⟩ (ih laterAllowed laterToo)

theorem Matches.flip (matched : Matches Allowed first second one two) :
    Matches Allowed second first two one := by
  obtain ⟨value, other, found, held, same, args⟩ := matched
  refine ⟨other, value, held, found, ⟨same.reference.symm, same.type.symm, same.kind.symm⟩, ?_⟩
  exact List.Forall₂.flip (args.imp fun _ _ operand => operand.flip)

/-- Values that match go on to do so in growing arenas, and where more names are allowed. -/
theorem Matches.mono {Other : String → Prop} (matched : Matches Allowed first second one two)
    (more : ∀ {name}, Allowed name → Other name) {firstAfter secondAfter : Arena}
    (growsFirst : first.Grows firstAfter) (growsSecond : second.Grows secondAfter) :
    Matches Other firstAfter secondAfter one two := by
  obtain ⟨value, other, found, held, same, args⟩ := matched
  refine ⟨value, other, growsFirst found, growsSecond held, same, args.imp fun _ _ operand => ?_⟩
  obtain ⟨operand, allowed, stands, standsToo⟩ := operand
  exact ⟨operand, fun name refers => more (allowed name refers), stands.grow growsFirst,
    standsToo.grow growsSecond⟩

theorem Matches.grow (matched : Matches Allowed first second one two)
    {firstAfter secondAfter : Arena} (growsFirst : first.Grows firstAfter)
    (growsSecond : second.Grows secondAfter) : Matches Allowed firstAfter secondAfter one two :=
  matched.mono (fun allowed => allowed) growsFirst growsSecond

/-- Values that are not made from operands match if they are alike. -/
theorem matches_of_get? {value other : Value} (found : first.get? one = some value)
    (held : second.get? two = some other) (same : value.Resembles other) (none : value.args = [])
    (noneToo : other.args = []) : Matches Allowed first second one two := by
  refine ⟨value, other, found, held, same, ?_⟩
  rw [none, noneToo]
  exact .nil

end Arena

namespace Region

/-- Statements of two regions have the same loops and accesses, made from the same operands. -/
structure Statement.Matches (Allowed : String → Prop) (first second : Arena) (one two : Statement) :
    Prop where
  name : one.name = two.name
  loops : Table.Agree (Arena.Matches Allowed first second) one.loops two.loops
  accesses : Table.Agree
    (fun one two => Arena.Matches Allowed first second one.value two.value) one.accesses two.accesses

theorem Statement.Matches.flip {Allowed : String → Prop} {first second : Arena} {one two : Statement}
    (matched : Statement.Matches Allowed first second one two) :
    Statement.Matches Allowed second first two one :=
  ⟨matched.name.symm, matched.loops.flip.mono Arena.Matches.flip,
    matched.accesses.flip.mono Arena.Matches.flip⟩

namespace Draft

open Sequencing

/-- Two drafts have the same storage, parameters and statements, made from the same operands. -/
structure Parallel (Allowed : String → Prop) (first second : Draft) : Prop where
  storage : first.storage = second.storage
  parameters : Table.Agree
    (fun one two => Arena.Matches Allowed first.arena second.arena one.value two.value)
    first.parameters second.parameters
  statements : Table.Agree (Statement.Matches Allowed first.arena second.arena)
    first.statements second.statements

variable {Allowed : String → Prop} {first second : Draft}

/-- What two drafts have in common is kept where each is continued in its own way. -/
theorem Parallel.grow {defines definesToo : String → Prop} {firstAfter secondAfter : Draft}
    (parallel : Parallel Allowed first second) (one : Continues defines first firstAfter)
    (two : Continues definesToo second secondAfter) :
    Parallel Allowed { firstAfter with statements := first.statements }
      { secondAfter with statements := second.statements } where
  storage := by
    dsimp only
    rw [one.storage, two.storage, parallel.storage]
  parameters := by
    dsimp only
    rw [one.parameters, two.parameters]
    exact parallel.parameters.mono fun matched => matched.grow one.grows two.grows
  statements := parallel.statements.mono fun matched =>
    ⟨matched.name, matched.loops.mono fun loop => loop.grow one.grows two.grows,
      matched.accesses.mono fun access => access.grow one.grows two.grows⟩

theorem Parallel.flip (parallel : Parallel Allowed first second) : Parallel Allowed second first where
  storage := parallel.storage.symm
  parameters := parallel.parameters.flip.mono Arena.Matches.flip
  statements := parallel.statements.flip.mono Statement.Matches.flip

theorem Parallel.mono {Other : String → Prop} (parallel : Parallel Allowed first second)
    (more : ∀ {name}, Allowed name → Other name) : Parallel Other first second where
  storage := parallel.storage
  parameters := parallel.parameters.mono fun matched => matched.mono more (.refl _) (.refl _)
  statements := parallel.statements.mono fun matched =>
    ⟨matched.name, matched.loops.mono fun loop => loop.mono more (.refl _) (.refl _),
      matched.accesses.mono fun access => access.mono more (.refl _) (.refl _)⟩

/-- A stored value is the same operand in both drafts. -/
theorem together_stored (first second : Draft) (printed : String) (fallback : ScalarType)
    (branches : List Branch) :
    Together (fun one two => ∃ operands : List (Operand × ScalarType),
        operands.map Prod.fst = (storedOperand? printed).toList ∧
        List.Forall₂ one.1.arena.Stands operands one.2.toList ∧
        List.Forall₂ two.1.arena.Stands operands two.2.toList)
      (first.stored printed fallback branches) (second.stored printed fallback branches) := by
  -- an operand that is added stands at its place in each of the drafts
  have operand : ∀ (one two : Draft) (operand : Operand) (type : ScalarType),
      ∃ operands : List (Operand × ScalarType), operands.map Prod.fst = [operand] ∧
        List.Forall₂ (one.addOperand operand type).1.arena.Stands operands
          [(one.addOperand operand type).2] ∧
        List.Forall₂ (two.addOperand operand type).1.arena.Stands operands
          [(two.addOperand operand type).2] := by
    intro one two operand type
    have stands := fun draft => (addOperand_ok (fun _ => True) draft operand type).2
    exact ⟨[(operand, type)], rfl, .cons (stands one) .nil, .cons (stands two) .nil⟩
  simp only [stored, storedOperand?]
  split
  · exact .ok ⟨[], rfl, .nil, .nil⟩
  · cases read : Instruction.read (Text.trimmed printed) with
    | error fault =>
      by_cases defines : (Text.trimmed printed).toList.contains '=' = true
      · simp only [if_pos defines]
        exact .error _
      · simp only [if_neg defines]
        cases printedOperand? (Text.trimmed printed) with
        | none => exact .error _
        | some found => exact .ok (operand first second found.2 _)
    | ok instruction =>
      cases instruction with
      | store spelling value address => exact .ok (operand first second value _)
      | phi reference | load reference | address reference | compute reference =>
        exact .ok (operand _ _ (.ref reference) _)
      | _ => exact .ok ⟨[], rfl, .nil, .nil⟩

/-- A read is the same value in both drafts. -/
theorem matches_addRead (storage : first.storage = second.storage) (array : String) (position : Nat)
    (element : ScalarType) (instruction : String) (relation : Polyhedral.Relation) :
    let one := first.addRead array position element instruction relation
    let two := second.addRead array position element instruction relation
    one.2.1 = two.2.1 ∧ Arena.Matches Allowed one.1.arena two.1.arena one.2.2.value two.2.2.value := by
  dsimp only [addRead]
  rw [storage]
  refine ⟨rfl, ?_⟩
  exact Arena.matches_of_get? (first.arena.adds_push _).get?_nextId (second.arena.adds_push _).get?_nextId
    ⟨rfl, rfl, rfl⟩ rfl rfl

/-- A write is the same value in both drafts, made from the operand that it stores. -/
theorem together_addWrite (first second : Draft) (statement array : String) (element : ScalarType)
    (instruction incoming : String) (relation : Polyhedral.Relation) (branches : List Branch)
    (allowed : ∀ name, storedOperand? (if incoming.isEmpty then instruction else incoming) =
      some (.ref name) → Allowed name) :
    Together (fun one two => one.2.1 = two.2.1 ∧
        Arena.Matches Allowed one.1.arena two.1.arena one.2.2.value two.2.2.value)
      (first.addWrite statement array element instruction incoming relation branches)
      (second.addWrite statement array element instruction incoming relation branches) := by
  unfold addWrite
  apply (together_stored first second _ element branches).bind
  rintro ⟨one, stored⟩ ⟨two, storedToo⟩ _ _ ⟨operands, spelled, stands, standsToo⟩
  have addsOne := one.arena.adds_push
  have addsTwo := two.arena.adds_push
  have permitted : ∀ operand ∈ operands, ∀ name, operand.1 = .ref name → Allowed name := by
    intro operand member name refers
    apply allowed
    have listed : operand.1 ∈ operands.map Prod.fst := List.mem_map_of_mem member
    rw [spelled, Option.mem_toList] at listed
    exact refers ▸ listed
  refine .ok ⟨rfl, _, _, (addsOne _).get?_nextId, (addsTwo _).get?_nextId, ⟨rfl, rfl, rfl⟩, ?_⟩
  apply Arena.sameOperands permitted
  · exact stands.imp fun _ _ operand => operand.grow (addsOne _).grows
  · exact standsToo.imp fun _ _ operand => operand.grow (addsTwo _).grows

/-- An access is the same value in both drafts. -/
theorem together_addAccess (storage : first.storage = second.storage) (statement : String)
    (position : Nat) (recorded : Record.Access) (branches : List Branch)
    (allowed : ∀ name, recorded.direction = .write →
      storedOperand? (storedText recorded) = some (.ref name) → Allowed name) :
    Together (fun one two => one.2.1 = two.2.1 ∧
        Arena.Matches Allowed one.1.arena two.1.arena one.2.2.value two.2.2.value)
      (first.addAccess statement position recorded branches)
      (second.addAccess statement position recorded branches) := by
  unfold addAccess
  apply (together_self _).bind
  rintro relation _ _ _ rfl
  cases targetArray? relation with
  | none => exact .error _
  | some array =>
    dsimp only
    rw [storage]
    cases direction : recorded.direction with
    | read => exact .ok (matches_addRead storage _ _ _ _ _)
    | write => exact together_addWrite first second _ _ _ _ _ _ _ fun name => allowed name direction

/-- Accesses are the same values in both drafts, under the same keys. -/
theorem together_addAccesses (storage : first.storage = second.storage) (statement : String)
    (branches : List Branch) (position : Nat) {table other : Table Access} {records : List Record.Access}
    (agree : Table.Agree (fun one two => Arena.Matches Allowed first.arena second.arena one.value two.value)
      table other)
    (allowed : ∀ recorded ∈ records, ∀ name, recorded.direction = .write →
      storedOperand? (storedText recorded) = some (.ref name) → Allowed name) :
    Together (fun one two => Table.Agree
        (fun access other => Arena.Matches Allowed one.1.arena two.1.arena access.value other.value)
        one.2 two.2)
      (first.addAccesses statement branches position table records)
      (second.addAccesses statement branches position other records) := by
  induction records generalizing first second position table other with
  | nil => exact .ok agree
  | cons recorded records ih =>
    obtain ⟨here, later⟩ := List.forall_mem_cons.1 allowed
    rw [addAccesses, addAccesses]
    apply (together_addAccess storage statement position recorded branches here).bind
    rintro ⟨one, key, access⟩ ⟨two, keyToo, accessToo⟩ ranOne ranTwo ⟨rfl, matched⟩
    have extendsOne := (addAccess_ok ranOne).1
    have extendsTwo := (addAccess_ok ranTwo).1
    have grown := agree.mono fun old => old.grow extendsOne.grows extendsTwo.grows
    dsimp only
    rw [agree.contains]
    exact ih (by rw [extendsOne.storage, extendsTwo.storage, storage]) _ (grown.insert _ matched) later

/-- Loops are the same values in both drafts, under the same keys. -/
theorem agree_addLoops (loops : List String) (state other : Draft × Table ValueId)
    (agree : Table.Agree (Arena.Matches Allowed state.1.arena other.1.arena) state.2 other.2) :
    Table.Agree (Arena.Matches Allowed (loops.foldl addLoop state).1.arena
      (loops.foldl addLoop other).1.arena) (loops.foldl addLoop state).2 (loops.foldl addLoop other).2 := by
  induction loops generalizing state other with
  | nil => exact agree
  | cons printed loops ih =>
    apply ih (addLoop state printed) (addLoop other printed)
    unfold addLoop
    split
    · exact agree
    · have addsOne := state.1.arena.adds_push
      have addsTwo := other.1.arena.adds_push
      refine (agree.mono fun old => old.grow (addsOne _).grows (addsTwo _).grows).insert _ ?_
      exact Arena.matches_of_get? (addsOne _).get?_nextId (addsTwo _).get?_nextId ⟨rfl, rfl, rfl⟩ rfl rfl

/-- A listing is read or not for both drafts, and gives the same branches. -/
theorem together_scan (storage : first.storage = second.storage) (listing : String) :
    Together (fun one two => one.2 = two.2 ∧ one.1.storage = two.1.storage)
      (first.scan listing) (second.scan listing) := by
  unfold scan
  cases Instruction.readListing listing with
  | error fault => exact .error _
  | ok lines =>
    refine .ok ⟨?_, ?_⟩
    · rw [branches_scanLines, branches_scanLines]
    · rw [(extends_scanLines (first, []) lines).storage, (extends_scanLines (second, []) lines).storage]
      exact storage

theorem storage_addLoops (loops : List String) (state : Draft × Table ValueId) :
    (loops.foldl addLoop state).1.storage = state.1.storage := by
  induction loops generalizing state with
  | nil => rfl
  | cons printed loops ih =>
    rw [List.foldl_cons, ih]
    unfold addLoop
    split <;> rfl

/-- A statement with a listing of its own is entered alike in both drafts. -/
theorem matches_addStatement {branches others : List Branch} (parallel : Parallel Allowed first second)
    {statement : Record.Statement} (own : statement.instructions.isSome = true)
    (allowed : ∀ recorded ∈ statement.accesses, ∀ name, recorded.direction = .write →
      storedOperand? (storedText recorded) = some (.ref name) → Allowed name) :
    Together (fun one two => ∃ entry other, one.statements.get? statement.name = some entry ∧
        two.statements.get? statement.name = some other ∧
        Statement.Matches Allowed one.arena two.arena entry other)
      (addStatement branches first statement) (addStatement others second statement) := by
  obtain ⟨listing, given⟩ := Option.isSome_iff_exists.1 own
  have taken := parallel.statements.contains statement.name
  cases known : first.statements.contains statement.name with
  | true =>
    simp only [addStatement, ← taken, known]
    exact .error _
  | false =>
    cases affine : statement.affine with
    | none =>
      simp only [addStatement, ← taken, known, affine]
      exact .error _
    | some flag =>
      simp only [addStatement, ← taken, known, affine, given]
      apply (together_self _).bind
      rintro domain _ _ _ rfl
      apply (together_scan parallel.storage listing).bind
      rintro ⟨one, branches⟩ ⟨two, _⟩ _ _ ⟨rfl, storage⟩
      dsimp only
      have loops : Table.Agree (Arena.Matches Allowed _ _) _ _ :=
        agree_addLoops statement.loops (one, Table.empty) (two, Table.empty) Table.agree_empty
      have same : (statement.loops.foldl addLoop (one, Table.empty)).1.storage =
          (statement.loops.foldl addLoop (two, Table.empty)).1.storage := by
        rw [storage_addLoops, storage_addLoops]
        exact storage
      apply (together_addAccesses same statement.name branches 0 Table.agree_empty allowed).bind
      rintro ⟨oneAfter, accesses⟩ ⟨twoAfter, accessesToo⟩ ranOne ranTwo agree
      have growsOne := (addAccesses_ok (accessesFit_empty 0 _) (Nat.zero_le _) ranOne).1.grows
      have growsTwo := (addAccesses_ok (accessesFit_empty 0 _) (Nat.zero_le _) ranTwo).1.grows
      exact .ok ⟨_, _, (Table.get?_insert _ _ _ _).trans (if_pos rfl),
        (Table.get?_insert _ _ _ _).trans (if_pos rfl), rfl,
        loops.mono fun loop => loop.grow growsOne growsTwo, agree⟩

/-- Drafts stay parallel while they are continued. -/
theorem together_addStatement {branches others : List Branch} (parallel : Parallel Allowed first second)
    {statement : Record.Statement} (own : statement.instructions.isSome = true)
    (allowed : ∀ recorded ∈ statement.accesses, ∀ name, recorded.direction = .write →
      storedOperand? (storedText recorded) = some (.ref name) → Allowed name) :
    Together (Parallel Allowed) (addStatement branches first statement)
      (addStatement others second statement) := by
  refine (matches_addStatement parallel own allowed).strengthen ?_
  rintro one two ranOne ranTwo ⟨entry, other, found, foundToo, matched⟩
  obtain ⟨continuedOne, _, _, insertedOne, _⟩ := addStatement_ok ranOne
  obtain ⟨continuedTwo, _, _, insertedTwo, _⟩ := addStatement_ok ranTwo
  rw [insertedOne, Table.get?_insert, if_pos rfl] at found
  rw [insertedTwo, Table.get?_insert, if_pos rfl] at foundToo
  cases found
  cases foundToo
  have grown := parallel.grow continuedOne continuedTwo
  refine { grown with statements := ?_ }
  rw [insertedOne, insertedTwo]
  exact grown.statements.insert _ matched

/-- A draft in which nothing is defined is parallel to itself. -/
theorem Blank.parallel {draft : Draft} (blank : draft.Blank) : Parallel Allowed draft draft where
  storage := rfl
  parameters := by
    refine Table.agree_self fun known => ?_
    obtain ⟨value, found, _, kind⟩ := blank.consistent.parameter known
    have atom : value.kind.isComposite = false := by
      cases same : value.kind <;> rw [same] at kind <;> first | rfl | cases kind
    have none := (blank.made found).args_eq_nil atom
    exact Arena.matches_of_get? found found ⟨rfl, rfl, rfl⟩ none none
  statements := by
    rw [blank.statements]
    exact Table.agree_empty

end Draft

end Region

/-- A record with another listing of the region. -/
def Record.relist (record : Record) (listing : String) : Record :=
  { record with instructions := listing }

namespace Region.Draft

open Sequencing

variable {record : Record} {listing : String} {lines others : List (String × Instruction)}

section

variable (own : ∀ statement ∈ record.statements, statement.instructions.isSome = true)
  (listed : Instruction.readListing record.instructions = .ok lines)
  (relisted : Instruction.readListing listing = .ok others)

include own listed relisted

/-- After two listings, statements that have their own listings are entered alike. -/
theorem together_listed {before : Draft} (blank : before.Blank) :
    Together (Parallel record.Stores)
      (before.scan record.instructions >>= fun state =>
        record.statements.foldlM (addStatement state.2) state.1)
      (before.scan listing >>= fun state => record.statements.foldlM (addStatement state.2) state.1) := by
  have first : before.scan record.instructions = .ok (lines.foldl scanLine (before, [])) := by
    rw [scan, listed]
  have second : before.scan listing = .ok (others.foldl scanLine (before, [])) := by
    rw [scan, relisted]
  rw [first, second]
  apply together_foldlM
  · intro statement member one two parallel
    apply together_addStatement parallel (own statement member)
    intro access inside name writes stored
    exact ⟨statement, member, access, inside, writes, stored⟩
  · have extendsOne := extends_scanLines (before, []) lines
    have extendsTwo := extends_scanLines (before, []) others
    have grown : Parallel record.Stores _ _ :=
      blank.parallel.grow extendsOne.toContinues extendsTwo.toContinues
    refine { grown with statements := ?_ }
    rw [extendsOne.statements, extendsTwo.statements]
    exact grown.statements

/-- Where each statement has its own listing, the drafts of a record with two listings of the region
    are parallel. -/
theorem together_draftOfRecord :
    Together (Parallel record.Stores) (draftOfRecord record)
      (draftOfRecord (record.relist listing)) := by
  unfold draftOfRecord
  apply (together_self (record.arrays.foldlM addStorage empty)).bind
  rintro stored _ storing _ rfl
  apply (together_self (record.parameters.foldlM addParameter stored)).bind
  rintro parameterised _ entering _ rfl
  have blankStored : stored.Blank := keeps_foldlM Blank.addStorage blank_empty storing
  have blankEntered : parameterised.Blank := keeps_foldlM Blank.addParameter blankStored entering
  exact together_listed own listed relisted (blankEntered.setInduction (inductionReferences record))

end

end Region.Draft

end RegionFlow
