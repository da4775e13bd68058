/-
Module: RegionFlow.Proofs.Failing
Purpose: What computations can fail with. A sequence or a traversal fails as one of its steps does.
  In building a region, a text that cannot be read, or that says something inconsistent, is the only
  reason why storage, parameters, listings, statements and relations fail; the one other failure of
  a record is that all its statements depend on merges without a form.
Main exports: FailsOnly, FailsOnly.bind, FailsOnly.run_bind, failsOnly_run_mapM, failsOnly_run_forM,
  Region.failsOnly_draftOfRecord, Region.failsOnly_readRelations, Region.failsOnly_ofRecord
-/
import RegionFlow.Proofs.Sequencing
import RegionFlow.Region.OfRecord

namespace RegionFlow

open Sequencing

/-- Every failure of a computation has a property. -/
def FailsOnly {ε α : Type} (Cause : ε → Prop) (computation : Except ε α) : Prop :=
  ∀ fault, computation = .error fault → Cause fault

section

variable {ε α β σ : Type} {Cause : ε → Prop}

theorem failsOnly_ok (value : α) : FailsOnly Cause (.ok value : Except ε α) :=
  fun _ failed => (by cases failed)

theorem failsOnly_error {fault : ε} (cause : Cause fault) :
    FailsOnly Cause (.error fault : Except ε α) :=
  fun _ failed => Except.error.inj failed ▸ cause

/-- A sequence fails as its first part or as the rest does. -/
theorem FailsOnly.bind {first : Except ε α} {next : α → Except ε β} (one : FailsOnly Cause first)
    (rest : ∀ value, first = .ok value → FailsOnly Cause (next value)) :
    FailsOnly Cause (first >>= next) := by
  intro fault failed
  rcases bind_eq_error.1 failed with early | ⟨value, ran, late⟩
  · exact one fault early
  · exact rest value ran fault late

/-- A fold fails as one of its steps does. -/
theorem failsOnly_foldlM {step : σ → α → Except ε σ} {items : List α}
    (each : ∀ state item, FailsOnly Cause (step state item)) (state : σ) :
    FailsOnly Cause (items.foldlM step state) := by
  intro fault failed
  obtain ⟨before, item, _, stepped⟩ := foldlM_eq_error failed
  exact each before item fault stepped

theorem FailsOnly.mono {Other : ε → Prop} (weaker : ∀ fault, Cause fault → Other fault)
    {computation : Except ε α} (one : FailsOnly Cause computation) : FailsOnly Other computation :=
  fun fault failed => weaker fault (one fault failed)

/-- A traversal fails as one of its steps does. -/
theorem failsOnly_mapM {step : α → Except ε β} {items : List α}
    (each : ∀ item ∈ items, FailsOnly Cause (step item)) : FailsOnly Cause (items.mapM step) := by
  induction items with
  | nil => exact failsOnly_ok _
  | cons item items ih =>
    rw [List.mapM_cons]
    apply (each item List.mem_cons_self).bind
    intro result _
    apply (ih fun other later => each other (List.mem_cons_of_mem item later)).bind
    intro results _
    exact failsOnly_ok _

/-- A sequence with a state fails as its first part or as the rest does. -/
theorem FailsOnly.run_bind {first : StateT σ (Except ε) α} {next : α → StateT σ (Except ε) β}
    {state : σ} (one : FailsOnly Cause (first.run state))
    (rest : ∀ value middle, first.run state = .ok (value, middle) →
      FailsOnly Cause ((next value).run middle)) :
    FailsOnly Cause ((first >>= next).run state) := by
  rw [StateT.run_bind]
  exact one.bind fun result ran => rest result.1 result.2 ran

/-- A computation without a state fails alike where there is one. -/
theorem failsOnly_run_liftM {step : Except ε α} (one : FailsOnly Cause step) {state : σ} :
    FailsOnly Cause ((liftM step : StateT σ (Except ε) α).run state) := by
  intro fault failed
  cases step with
  | error early =>
    cases failed
    exact one fault rfl
  | ok value => cases failed

/-- A traversal with a state fails as one of its steps does. -/
theorem failsOnly_run_mapM {step : α → StateT σ (Except ε) β} {items : List α}
    (each : ∀ item ∈ items, ∀ state, FailsOnly Cause ((step item).run state)) (state : σ) :
    FailsOnly Cause ((items.mapM step).run state) := by
  induction items generalizing state with
  | nil => exact failsOnly_ok _
  | cons item items ih =>
    rw [List.mapM_cons]
    apply (each item List.mem_cons_self state).run_bind
    intro result middle _
    apply (ih (fun other later => each other (List.mem_cons_of_mem item later)) middle).run_bind
    intro results last _
    exact failsOnly_ok _

/-- A traversal without results fails as one of its steps does. -/
theorem failsOnly_run_forM {step : α → StateT σ (Except ε) Unit} {items : List α}
    (each : ∀ item ∈ items, ∀ state, FailsOnly Cause ((step item).run state)) (state : σ) :
    FailsOnly Cause ((items.forM step).run state) := by
  induction items generalizing state with
  | nil => exact failsOnly_ok _
  | cons item items ih =>
    apply (each item List.mem_cons_self state).run_bind
    intro _ middle _
    exact ih (fun other later => each other (List.mem_cons_of_mem item later)) middle

end

/-- A failure that lies in a text of the record. -/
def Failure.IsParse (failure : Failure) : Prop :=
  ∃ problem position, failure = .parse problem position

namespace Region

variable {draft : Draft}

theorem failsOnly_readPart (part : Part) (text : String) :
    FailsOnly Failure.IsParse (readPart part text) := by
  unfold readPart
  dsimp only
  split
  · exact failsOnly_ok _
  · exact failsOnly_error ⟨_, _, rfl⟩

theorem failsOnly_readDependences (texts : Record.Dependences) :
    FailsOnly Failure.IsParse (readDependences texts) := by
  apply (failsOnly_readPart _ texts.raw).bind
  intro raw _
  apply (failsOnly_readPart _ texts.war).bind
  intro war _
  apply (failsOnly_readPart _ texts.waw).bind
  intro waw _
  apply (failsOnly_readPart _ texts.red).bind
  intro red _
  apply (failsOnly_readPart _ texts.tcRed).bind
  intro tcRed _
  exact failsOnly_ok _

namespace Draft

theorem failsOnly_addStorage (array : Record.Array) :
    FailsOnly Failure.IsParse (draft.addStorage array) := by
  unfold addStorage
  split
  · exact failsOnly_error ⟨_, _, rfl⟩
  · exact failsOnly_ok _

theorem failsOnly_addParameter (parameter : Record.Parameter) :
    FailsOnly Failure.IsParse (draft.addParameter parameter) := by
  have typed : FailsOnly Failure.IsParse (parameterType parameter) := by
    unfold parameterType
    split
    · exact failsOnly_ok _
    · split
      · exact failsOnly_ok _
      · exact failsOnly_error ⟨_, _, rfl⟩
  apply typed.bind
  intro type _
  exact failsOnly_ok _

theorem failsOnly_scan (listing : String) : FailsOnly Failure.IsParse (draft.scan listing) := by
  unfold scan
  split
  · exact failsOnly_error ⟨_, _, rfl⟩
  · exact failsOnly_ok _

theorem failsOnly_stored (printed : String) (fallback : ScalarType) (branches : List Branch) :
    FailsOnly Failure.IsParse (draft.stored printed fallback branches) := by
  simp only [stored]
  split
  · exact failsOnly_ok _
  · split
    · exact failsOnly_ok _
    · split
      · exact failsOnly_ok _
      · exact failsOnly_ok _
    · split
      · exact failsOnly_error ⟨_, _, rfl⟩
      · exact failsOnly_ok _

theorem failsOnly_addAccess (statement : String) (position : Nat) (access : Record.Access)
    (branches : List Branch) :
    FailsOnly Failure.IsParse (draft.addAccess statement position access branches) := by
  apply (failsOnly_readPart _ access.relation).bind
  intro relation _
  split
  · exact failsOnly_error ⟨_, _, rfl⟩
  · split
    · exact failsOnly_ok _
    · apply (failsOnly_stored _ _ branches).bind
      intro stored _
      exact failsOnly_ok _

theorem failsOnly_addAccesses (statement : String) (branches : List Branch)
    (accesses : List Record.Access) (position : Nat) (table : Table Access) :
    FailsOnly Failure.IsParse (draft.addAccesses statement branches position table accesses) := by
  induction accesses generalizing draft position table with
  | nil => exact failsOnly_ok _
  | cons access accesses ih =>
    apply (failsOnly_addAccess statement position access branches).bind
    intro entered _
    exact ih _ _

theorem failsOnly_addStatement (branches : List Branch) (statement : Record.Statement) :
    FailsOnly Failure.IsParse (addStatement branches draft statement) := by
  cases taken : draft.statements.contains statement.name with
  | true =>
    simp only [addStatement, taken]
    exact failsOnly_error ⟨_, _, rfl⟩
  | false =>
    cases affine : statement.affine with
    | none =>
      simp only [addStatement, taken, affine]
      exact failsOnly_error ⟨_, _, rfl⟩
    | some flag =>
      simp only [addStatement, taken, affine]
      apply (failsOnly_readPart _ statement.domain).bind
      intro domain _
      split
      · apply (failsOnly_scan _).bind
        intro listed _
        apply (failsOnly_addAccesses _ _ statement.accesses 0 Table.empty).bind
        intro accessed _
        exact failsOnly_ok _
      · apply (failsOnly_addAccesses _ _ statement.accesses 0 Table.empty).bind
        intro accessed _
        exact failsOnly_ok _

end Draft

/-- A draft fails for a text of its record. -/
theorem failsOnly_draftOfRecord (record : Record) :
    FailsOnly Failure.IsParse (draftOfRecord record) := by
  apply (failsOnly_foldlM (fun _ array => Draft.failsOnly_addStorage array) Draft.empty).bind
  intro stored _
  apply (failsOnly_foldlM (fun _ parameter => Draft.failsOnly_addParameter parameter) stored).bind
  intro parameterised _
  apply (Draft.failsOnly_scan record.instructions).bind
  intro scanned _
  exact failsOnly_foldlM (fun _ statement => Draft.failsOnly_addStatement _ statement) _

/-- What is made of the relations of a record fails for their texts. -/
theorem failsOnly_readRelations {α : Type} (record : Record)
    (finish : Polyhedral.Relation → Dependences → Polyhedral.Relation → α) :
    FailsOnly Failure.IsParse (do
      let schedule ← readPart .schedule record.schedule
      let dependences ← readDependences record.dependences
      let context ← readPart .context record.context
      return finish schedule dependences context) := by
  apply (failsOnly_readPart _ record.schedule).bind
  intro schedule _
  apply (failsOnly_readDependences record.dependences).bind
  intro dependences _
  apply (failsOnly_readPart _ record.context).bind
  intro context _
  exact failsOnly_ok _

/-- A failure of the region of a record lies in a text, or all statements depend on merges without a form. -/
theorem failsOnly_ofRecord (record : Record) :
    FailsOnly (fun failure => failure.IsParse ∨
      ∃ region names, failure = .unrepresentableMerge region names) (ofRecord record) := by
  intro failure failed
  rcases bind_eq_error.1 failed with undrafted | ⟨draft, _, failed⟩
  · exact .inl (failsOnly_draftOfRecord record failure undrafted)
  · dsimp only at failed
    split at failed
    · cases failed
      exact .inr ⟨_, _, rfl⟩
    · exact .inl (failsOnly_readRelations record _ failure failed)

end Region

end RegionFlow
