/-
Module: RegionFlow.Proofs.Sequencing
Purpose: Computations that may fail, with or without a state. A sequence succeeds exactly when its
  first part succeeds and the rest succeeds from there; a traversal of a list succeeds exactly when
  it succeeds item by item, which relates the items to the results pairwise. Later proofs take
  computations apart by these equivalences and never unfold a bind.
Main exports: succeeds, fails, bind_eq_ok, bind_eq_error, run_bind_eq_ok, forM_eq_ok_iff, mapM_ok,
  run_mapM_ok, run_mapM_exists, foldlM_appends, foldlM_ok, foldlM_eq_error, foldlM_exists,
  run_forM_cons, run_forM_ok, run_forM_exists
-/
import Mathlib.Data.List.Forall2

namespace RegionFlow.Sequencing

variable {ε σ α β : Type}

/-- An item of a list that is related pairwise to another has a partner there. -/
theorem exists_partner {Related : α → β → Prop} {items : List α} {results : List β}
    (related : List.Forall₂ Related items results) {item : α} (member : item ∈ items) :
    ∃ result ∈ results, Related item result := by
  induction related with
  | nil => cases member
  | @cons first result items results one _ ih =>
    rcases List.mem_cons.1 member with rfl | later
    · exact ⟨result, List.mem_cons_self, one⟩
    · obtain ⟨partner, inside, holds⟩ := ih later
      exact ⟨partner, List.mem_cons_of_mem result inside, holds⟩

/-- Lists that are related to one list pairwise agree if the relations force equal partners. -/
theorem partners_eq {First Second : α → β → Prop} {items : List α} {first second : List β}
    (agree : ∀ {item one two}, First item one → Second item two → one = two)
    (ones : List.Forall₂ First items first) (twos : List.Forall₂ Second items second) :
    first = second := by
  induction ones generalizing second with
  | nil =>
    cases twos
    rfl
  | cons one _ ih =>
    cases twos with
    | cons two rest => rw [agree one two, ih rest]

/-- Pairwise relations compose. -/
theorem partners_trans {γ : Type} {First : α → β → Prop} {Second : β → γ → Prop}
    {Both : α → γ → Prop} (compose : ∀ {one two three}, First one two → Second two three →
      Both one three) {items : List α} {middle : List β} {results : List γ}
    (ones : List.Forall₂ First items middle) (twos : List.Forall₂ Second middle results) :
    List.Forall₂ Both items results := by
  induction ones generalizing results with
  | nil =>
    cases twos
    exact .nil
  | cons one _ ih =>
    cases twos with
    | cons two rest => exact .cons (compose one two) (ih rest)

/-- Partners can be chosen for a whole list if each item has one. -/
theorem exists_partners {Related : α → β → Prop} {items : List α}
    (each : ∀ item ∈ items, ∃ result, Related item result) :
    ∃ results, List.Forall₂ Related items results := by
  induction items with
  | nil => exact ⟨[], .nil⟩
  | cons item items ih =>
    obtain ⟨result, one⟩ := each item List.mem_cons_self
    obtain ⟨results, rest⟩ := ih fun other later => each other (List.mem_cons_of_mem item later)
    exact ⟨result :: results, .cons one rest⟩

/-- Views that agree on related items and results agree on the lists. -/
theorem map_eq_map_of_partners {γ : Type} {Related : α → β → Prop} {first : α → γ} {second : β → γ}
    (agree : ∀ {item result}, Related item result → second result = first item)
    {items : List α} {results : List β} (related : List.Forall₂ Related items results) :
    results.map second = items.map first := by
  induction related with
  | nil => rfl
  | cons one _ ih => rw [List.map_cons, List.map_cons, agree one, ih]

/-- Where related items and results bear the same name and no two items share one, a single result bears
    the name of an item, and it is related to the item. -/
theorem unique_partner {κ : Type} [DecidableEq κ] {Related : α → β → Prop} (key : α → κ)
    (name : β → κ) (agree : ∀ {item result}, Related item result → name result = key item)
    {items : List α} {results : List β} (related : List.Forall₂ Related items results)
    (distinct : (items.map key).Nodup) {item : α} (member : item ∈ items) :
    ∃ result, Related item result ∧ results.filter (fun other => name other = key item) = [result] := by
  induction related with
  | nil => cases member
  | @cons first result items results one rest ih =>
    rw [List.map_cons, List.nodup_cons] at distinct
    rcases List.mem_cons.1 member with rfl | later
    · have others : results.filter (fun other => name other = key item) = [] := by
        refine List.filter_eq_nil_iff.2 fun other inside same => distinct.1 ?_
        obtain ⟨partner, listed, holds⟩ := exists_partner rest.flip inside
        rw [← of_decide_eq_true same, agree holds]
        exact List.mem_map_of_mem listed
      refine ⟨result, one, ?_⟩
      rw [List.filter_cons_of_pos (by simpa using agree one), others]
    · obtain ⟨partner, holds, only⟩ := ih distinct.2 later
      have apart : name result ≠ key item := by
        rw [agree one]
        intro same
        exact distinct.1 (same ▸ List.mem_map_of_mem later)
      refine ⟨partner, holds, ?_⟩
      rw [List.filter_cons_of_neg (by simpa using apart), only]

/-- Whether a computation succeeds with a value that passes a test. -/
def succeeds (ran : Except ε α) (test : α → Bool) : Bool :=
  match ran with
  | .ok value => test value
  | .error _ => false

/-- Whether a computation fails with a fault that passes a test. -/
def fails (ran : Except ε α) (test : ε → Bool) : Bool :=
  match ran with
  | .ok _ => false
  | .error fault => test fault

theorem exists_of_succeeds {ran : Except ε α} {test : α → Bool} (passed : succeeds ran test = true) :
    ∃ value, ran = .ok value ∧ test value = true := by
  cases ran with
  | ok value => exact ⟨value, rfl, passed⟩
  | error fault => cases passed

theorem exists_of_fails {ran : Except ε α} {test : ε → Bool} (passed : fails ran test = true) :
    ∃ fault, ran = .error fault ∧ test fault = true := by
  cases ran with
  | ok value => cases passed
  | error fault => exact ⟨fault, rfl, passed⟩

/-- A sequence succeeds when its first part does and the rest does with that result. -/
theorem bind_eq_ok {first : Except ε α} {next : α → Except ε β} {result : β} :
    (first >>= next) = .ok result ↔ ∃ value, first = .ok value ∧ next value = .ok result := by
  cases first with
  | error fault => simp [bind, Except.bind]
  | ok value => simp [bind, Except.bind]

/-- A sequence fails when its first part does, or when the rest does with that result. -/
theorem bind_eq_error {first : Except ε α} {next : α → Except ε β} {fault : ε} :
    (first >>= next) = .error fault ↔
      first = .error fault ∨ ∃ value, first = .ok value ∧ next value = .error fault := by
  cases first with
  | error early => simp [bind, Except.bind]
  | ok value => simp [bind, Except.bind]

/-- A sequence with a state succeeds when its first part does and the rest does from the state that
    part leaves. -/
theorem run_bind_eq_ok {first : StateT σ (Except ε) α} {next : α → StateT σ (Except ε) β}
    {state : σ} {result : β × σ} :
    (first >>= next).run state = .ok result ↔
      ∃ value middle, first.run state = .ok (value, middle) ∧
        (next value).run middle = .ok result := by
  rw [StateT.run_bind, bind_eq_ok]
  constructor
  · rintro ⟨⟨value, middle⟩, ran, rest⟩
    exact ⟨value, middle, ran, rest⟩
  · rintro ⟨value, middle, ran, rest⟩
    exact ⟨(value, middle), ran, rest⟩

@[simp] theorem run_pure_eq_ok {value : α} {state : σ} {result : α × σ} :
    (pure value : StateT σ (Except ε) α).run state = .ok result ↔ (value, state) = result := by
  rw [StateT.run_pure]
  simp [pure, Except.pure]

@[simp] theorem run_throw_eq_ok {fault : ε} {state : σ} {result : α × σ} :
    (throw fault : StateT σ (Except ε) α).run state = .ok result ↔ False := by
  constructor
  · intro ran
    cases ran
  · exact False.elim

@[simp] theorem run_liftM_eq_ok {step : Except ε α} {state : σ} {result : α × σ} :
    (liftM step : StateT σ (Except ε) α).run state = .ok result ↔
      ∃ value, step = .ok value ∧ (value, state) = result := by
  cases step with
  | error fault =>
    constructor
    · intro ran
      cases ran
    · rintro ⟨value, impossible, _⟩
      cases impossible
  | ok value =>
    constructor
    · intro ran
      exact ⟨value, rfl, Except.ok.inj ran⟩
    · rintro ⟨other, same, rfl⟩
      cases same
      rfl

/-- A traversal without results succeeds when each item does. -/
theorem forM_eq_ok_iff {step : α → Except ε Unit} {items : List α} :
    items.forM step = .ok () ↔ ∀ item ∈ items, step item = .ok () := by
  induction items with
  | nil => simp [pure, Except.pure]
  | cons item items ih =>
    have unrolled : (item :: items).forM step = step item >>= fun _ => items.forM step := rfl
    rw [unrolled, bind_eq_ok]
    constructor
    · rintro ⟨_, stepped, rest⟩ other member
      rcases List.mem_cons.1 member with rfl | later
      · exact stepped
      · exact ih.1 rest other later
    · intro each
      refine ⟨(), each item List.mem_cons_self, ?_⟩
      exact ih.2 fun other later => each other (List.mem_cons_of_mem item later)

/-- A traversal that succeeds does so item by item, in order. -/
theorem mapM_ok {step : α → Except ε β} {items : List α} {results : List β}
    (ran : items.mapM step = .ok results) :
    List.Forall₂ (fun item result => step item = .ok result) items results := by
  induction items generalizing results with
  | nil =>
    cases ran
    exact .nil
  | cons item items ih =>
    rw [List.mapM_cons] at ran
    obtain ⟨result, stepped, ran⟩ := bind_eq_ok.1 ran
    obtain ⟨others, rest, joined⟩ := bind_eq_ok.1 ran
    cases joined
    exact .cons stepped (ih rest)

/-- A fold each step of which appends one result to a view of the state appends one for each item, in
    order. -/
theorem foldlM_appends (Related : α → β → Prop) (view : σ → List β) {step : σ → α → Except ε σ}
    {items : List α}
    (each : ∀ item ∈ items, ∀ {before after}, step before item = .ok after →
      ∃ result, view after = view before ++ [result] ∧ Related item result)
    {before after : σ} (ran : items.foldlM step before = .ok after) :
    ∃ results, view after = view before ++ results ∧ List.Forall₂ Related items results := by
  induction items generalizing before with
  | nil =>
    cases ran
    exact ⟨[], (List.append_nil _).symm, .nil⟩
  | cons item items ih =>
    rw [List.foldlM_cons] at ran
    obtain ⟨middle, stepped, rest⟩ := bind_eq_ok.1 ran
    obtain ⟨result, appended, related⟩ := each item List.mem_cons_self stepped
    obtain ⟨results, others, pairs⟩ :=
      ih (fun other later => each other (List.mem_cons_of_mem item later)) rest
    refine ⟨result :: results, ?_, .cons related pairs⟩
    rw [others, appended, List.append_assoc]
    rfl

/-- What a fold keeps: an invariant of the state that every step keeps, and for each item a fact that
    later states do not lose. -/
theorem foldlM_ok (Inv : σ → Prop) (Grows : σ → σ → Prop) (Holds : σ → α → Prop)
    {step : σ → α → Except ε σ} (refl : ∀ state, Grows state state)
    (trans : ∀ {first second third}, Grows first second → Grows second third → Grows first third)
    (keep : ∀ {first second item}, Grows first second → Holds first item → Holds second item)
    {items : List α}
    (each : ∀ item ∈ items, ∀ {before after}, Inv before → step before item = .ok after →
      Inv after ∧ Grows before after ∧ Holds after item)
    {before after : σ} (inv : Inv before) (ran : items.foldlM step before = .ok after) :
    Inv after ∧ Grows before after ∧ ∀ item ∈ items, Holds after item := by
  induction items generalizing before with
  | nil =>
    cases ran
    exact ⟨inv, refl after, by simp⟩
  | cons item items ih =>
    rw [List.foldlM_cons] at ran
    obtain ⟨middle, stepped, rest⟩ := bind_eq_ok.1 ran
    obtain ⟨invMiddle, growsFirst, holds⟩ := each item List.mem_cons_self inv stepped
    obtain ⟨invAfter, growsRest, holdRest⟩ :=
      ih (fun other member => each other (List.mem_cons_of_mem item member)) invMiddle rest
    exact ⟨invAfter, trans growsFirst growsRest,
      List.forall_mem_cons.2 ⟨keep growsRest holds, holdRest⟩⟩

/-- A fold that fails does so at some item, in the state that the items before it leave. -/
theorem foldlM_eq_error {step : σ → α → Except ε σ} {items : List α} {before : σ} {fault : ε}
    (failed : items.foldlM step before = .error fault) :
    ∃ state, ∃ item ∈ items, step state item = .error fault := by
  induction items generalizing before with
  | nil => cases failed
  | cons item items ih =>
    rw [List.foldlM_cons] at failed
    rcases bind_eq_error.1 failed with stepped | ⟨middle, _, rest⟩
    · exact ⟨before, item, List.mem_cons_self, stepped⟩
    · obtain ⟨state, other, later, stepped⟩ := ih rest
      exact ⟨state, other, List.mem_cons_of_mem item later, stepped⟩

/-- A fold succeeds if each step does, from any state. -/
theorem foldlM_exists {step : σ → α → Except ε σ} {items : List α}
    (each : ∀ item ∈ items, ∀ before, ∃ after, step before item = .ok after) (before : σ) :
    ∃ after, items.foldlM step before = .ok after := by
  induction items generalizing before with
  | nil => exact ⟨before, rfl⟩
  | cons item items ih =>
    obtain ⟨middle, stepped⟩ := each item List.mem_cons_self before
    obtain ⟨after, rest⟩ :=
      ih (fun other member => each other (List.mem_cons_of_mem item member)) middle
    rw [List.foldlM_cons]
    exact ⟨after, bind_eq_ok.2 ⟨middle, stepped, rest⟩⟩

/-- What a traversal with a state keeps: an invariant of the state that every step keeps, and for each
    item a fact about its result that later states do not lose. -/
theorem run_mapM_ok (Inv : σ → Prop) (Grows : σ → σ → Prop) (Holds : σ → α → β → Prop)
    {step : α → StateT σ (Except ε) β} (refl : ∀ state, Grows state state)
    (trans : ∀ {first second third}, Grows first second → Grows second third → Grows first third)
    (keep : ∀ {first second item result}, Grows first second → Holds first item result →
      Holds second item result)
    {items : List α}
    (each : ∀ item ∈ items, ∀ {before result after}, Inv before →
      (step item).run before = .ok (result, after) →
        Inv after ∧ Grows before after ∧ Holds after item result)
    {before after : σ} {results : List β} (inv : Inv before)
    (ran : (items.mapM step).run before = .ok (results, after)) :
    Inv after ∧ Grows before after ∧ List.Forall₂ (Holds after) items results := by
  induction items generalizing before results with
  | nil =>
    rw [List.mapM_nil, run_pure_eq_ok] at ran
    cases ran
    exact ⟨inv, refl after, .nil⟩
  | cons item items ih =>
    rw [List.mapM_cons] at ran
    obtain ⟨result, middle, stepped, rest⟩ := run_bind_eq_ok.1 ran
    obtain ⟨others, last, mapped, joined⟩ := run_bind_eq_ok.1 rest
    cases run_pure_eq_ok.1 joined
    obtain ⟨invMiddle, growsFirst, holds⟩ := each item List.mem_cons_self inv stepped
    obtain ⟨invAfter, growsRest, holdRest⟩ :=
      ih (fun other member => each other (List.mem_cons_of_mem item member)) invMiddle mapped
    exact ⟨invAfter, trans growsFirst growsRest, .cons (keep growsRest holds) holdRest⟩

/-- A traversal with a state succeeds with the expected results if each step does, from any state
    that satisfies the invariant. -/
theorem run_mapM_exists {Inv : σ → Prop} {step : α → StateT σ (Except ε) β} {items : List α}
    {results : List β}
    (each : List.Forall₂ (fun item result => ∀ {before}, Inv before →
      ∃ after, (step item).run before = .ok (result, after) ∧ Inv after) items results)
    {before : σ} (inv : Inv before) :
    ∃ after, (items.mapM step).run before = .ok (results, after) ∧ Inv after := by
  induction each generalizing before with
  | nil =>
    refine ⟨before, ?_, inv⟩
    rw [List.mapM_nil, run_pure_eq_ok]
  | @cons item result items results first _ ih =>
    obtain ⟨middle, stepped, invMiddle⟩ := first inv
    obtain ⟨after, mapped, invAfter⟩ := ih invMiddle
    refine ⟨after, ?_, invAfter⟩
    rw [List.mapM_cons]
    exact run_bind_eq_ok.2 ⟨result, middle, stepped,
      run_bind_eq_ok.2 ⟨results, after, mapped, run_pure_eq_ok.2 rfl⟩⟩

theorem run_forM_nil {step : α → StateT σ (Except ε) Unit} {before after : σ} :
    (([] : List α).forM step).run before = .ok ((), after) ↔ before = after := by
  change (pure () : StateT σ (Except ε) Unit).run before = .ok ((), after) ↔ before = after
  rw [run_pure_eq_ok, Prod.mk.injEq]
  exact and_iff_right rfl

/-- A traversal without results takes one step after the other. -/
theorem run_forM_cons {step : α → StateT σ (Except ε) Unit} {item : α} {items : List α}
    {before after : σ} :
    ((item :: items).forM step).run before = .ok ((), after) ↔
      ∃ middle, (step item).run before = .ok ((), middle) ∧
        (items.forM step).run middle = .ok ((), after) := by
  change (step item >>= fun _ => items.forM step).run before = .ok ((), after) ↔ _
  rw [run_bind_eq_ok]
  constructor
  · rintro ⟨_, middle, stepped, rest⟩
    exact ⟨middle, stepped, rest⟩
  · rintro ⟨middle, stepped, rest⟩
    exact ⟨(), middle, stepped, rest⟩

/-- What a traversal without results keeps, and what it finds out about each item. -/
theorem run_forM_ok (Inv : σ → Prop) (Holds : α → Prop) {step : α → StateT σ (Except ε) Unit}
    {items : List α}
    (each : ∀ item ∈ items, ∀ {before after}, Inv before →
      (step item).run before = .ok ((), after) → Inv after ∧ Holds item)
    {before after : σ} (inv : Inv before)
    (ran : (items.forM step).run before = .ok ((), after)) :
    Inv after ∧ ∀ item ∈ items, Holds item := by
  induction items generalizing before with
  | nil =>
    cases run_forM_nil.1 ran
    exact ⟨inv, by simp⟩
  | cons item items ih =>
    obtain ⟨middle, stepped, rest⟩ := run_forM_cons.1 ran
    obtain ⟨invMiddle, holds⟩ := each item List.mem_cons_self inv stepped
    obtain ⟨invAfter, holdRest⟩ :=
      ih (fun other member => each other (List.mem_cons_of_mem item member)) invMiddle rest
    exact ⟨invAfter, List.forall_mem_cons.2 ⟨holds, holdRest⟩⟩

/-- A traversal without results succeeds if each step does, from any state. -/
theorem run_forM_exists {step : α → StateT σ (Except ε) Unit} {items : List α}
    (each : ∀ item ∈ items, ∀ before, ∃ after, (step item).run before = .ok ((), after))
    (before : σ) : ∃ after, (items.forM step).run before = .ok ((), after) := by
  induction items generalizing before with
  | nil => exact ⟨before, run_forM_nil.2 rfl⟩
  | cons item items ih =>
    obtain ⟨middle, stepped⟩ := each item List.mem_cons_self before
    obtain ⟨after, rest⟩ :=
      ih (fun other member => each other (List.mem_cons_of_mem item member)) middle
    exact ⟨after, run_forM_cons.2 ⟨middle, stepped, rest⟩⟩

end RegionFlow.Sequencing
