/-
Module: RegionFlow.Proofs.Validation
Purpose: What validation decides. A value can be evaluated if it is no placeholder and its arguments
  can be evaluated. The search for a flaw below a value finds none exactly if it can; otherwise the
  flaw it reports is there: a place that can be reached and holds no value but perhaps a
  placeholder, or one that can be reached and reaches itself. The loop over a stack of frames comes
  to the same verdict. So the accesses of a verified region lead to no cycle.
Main exports: Arena.IsResolved, Arena.Evaluable, Arena.Shows, Arena.validate_cases,
  Arena.validate_exact, Region.acc_args_of_verify, Region.acc_of_verify, Region.pieces_of_verify
-/
import RegionFlow.Proofs.Inspection
import RegionFlow.Proofs.Searching
import RegionFlow.Proofs.Unfolding
import RegionFlow.Region.Verification

namespace RegionFlow

open Search Sequencing

namespace Arena

variable {arena : Arena} {root id : ValueId} {flaw : Flaw}

/-- A place holds a value other than a placeholder. -/
def IsResolved (arena : Arena) (id : ValueId) : Prop :=
  ∃ value, arena.get? id = some value ∧ value.isPlaceholder = false

/-! ### Values that can be evaluated -/

/-- A value can be evaluated if it is no placeholder and all its arguments can be evaluated.
    Evaluation ends, so no such value leads to itself. -/
inductive Evaluable (arena : Arena) : ValueId → Prop where
  | intro {id : ValueId} {value : Value} (found : arena.get? id = some value)
      (solid : value.isPlaceholder = false) (args : ∀ child ∈ value.args, Evaluable arena child) :
      Evaluable arena id

theorem Evaluable.isResolved (evaluable : arena.Evaluable id) : arena.IsResolved id := by
  cases evaluable with
  | intro found solid _ => exact ⟨_, found, solid⟩

theorem Evaluable.arg (evaluable : arena.Evaluable id) {child : ValueId}
    (member : child ∈ arena.args id) : arena.Evaluable child := by
  cases evaluable with
  | intro found _ args =>
    rw [args_of_get? found] at member
    exact args child member

theorem Evaluable.reached (evaluable : arena.Evaluable root)
    (reaches : Reaches arena.args root id) : arena.Evaluable id := by
  induction reaches with
  | refl => exact evaluable
  | tail _ successor ih => exact ih.arg successor

/-- Below a value that can be evaluated, chains of arguments come to an end. -/
theorem Evaluable.acc (evaluable : arena.Evaluable id) : Acc (Below arena.args) id := by
  induction evaluable with
  | intro found _ _ ih =>
    constructor
    intro child member
    rw [Below, args_of_get? found] at member
    exact ih child member

/-- The search finds a value sound after all its arguments, and forgets none it found before. -/
theorem soundBelow_ok {depth : Nat} {path done done' : List ValueId}
    (sound : ∀ id ∈ done, arena.Evaluable id)
    (ran : soundBelow arena depth path id done = .ok done') :
    (∀ id ∈ done', arena.Evaluable id) ∧ done ⊆ done' ∧ id ∈ done' := by
  -- the state collects the values found sound; an argument that is not among them yet is searched first
  induction depth generalizing path id done done' with
  | zero => cases ran
  | succ depth ih =>
    rw [soundBelow] at ran
    cases found : arena.get? id with
    | none =>
      rw [found] at ran
      cases ran
    | some value =>
      simp only [found] at ran
      split at ran
      · cases ran
      · rename_i solid
        obtain ⟨searched, folded, joined⟩ := bind_eq_ok.1 ran
        cases joined
        obtain ⟨soundSearched, kept, children⟩ := foldlM_ok (fun done => ∀ id ∈ done, arena.Evaluable id)
          (· ⊆ ·) (fun done child => child ∈ done) List.Subset.refl List.Subset.trans
          (fun sub member => sub member)
          (fun child _ before after soundBefore stepped => by
            split at stepped
            · cases stepped
            · split at stepped
              · rename_i known
                cases stepped
                exact ⟨soundBefore, List.Subset.refl _, known⟩
              · exact ih soundBefore stepped)
          sound folded
        have evaluable : arena.Evaluable id :=
          .intro found (Bool.eq_false_iff.2 solid) fun child member =>
            soundSearched child (children child member)
        exact ⟨List.forall_mem_cons.2 ⟨evaluable, soundSearched⟩, List.subset_cons_of_subset id kept,
          List.mem_cons_self⟩

/-! ### Flaws -/

/-- The place where a flaw is found. -/
def Flaw.place : Flaw → ValueId
  | unresolved id | cycle id => id

/-- What a flaw below a root says: a place that can be reached is not resolved, or reaches itself. -/
inductive Shows (arena : Arena) (root : ValueId) : Flaw → Prop where
  | unresolved {id : ValueId} (reaches : Reaches arena.args root id)
      (missing : ¬ arena.IsResolved id) : Shows arena root (.unresolved id)
  | cycle {id : ValueId} (reaches : Reaches arena.args root id)
      (loop : Relation.TransGen (Below arena.args) id id) : Shows arena root (.cycle id)

theorem Shows.reaches (shown : arena.Shows root flaw) : Reaches arena.args root flaw.place := by
  cases shown with
  | unresolved reaches _ => exact reaches
  | cycle reaches _ => exact reaches

/-- A flaw below an argument is one below the value. -/
theorem Shows.head {child : ValueId} (member : child ∈ arena.args id) (shown : arena.Shows child flaw) :
    arena.Shows id flaw := by
  cases shown with
  | unresolved reaches missing => exact .unresolved (.head member reaches) missing
  | cycle reaches loop => exact .cycle (.head member reaches) loop

/-- An argument that lies on the way to its value, or is the value, closes a cycle. -/
theorem transGen_of_trail {path : List ValueId} {child : ValueId}
    (trail : Trail arena.args arena.ids path id) (member : child ∈ arena.args id)
    (visited : child ∈ id :: path) : Relation.TransGen (Below arena.args) child child := by
  rcases List.mem_cons.1 visited with rfl | before
  · exact .single member
  · exact .head member (trail.leads child before)

/-- A search that fails reports what is there. The way and the depth that is left cover the arena
    together, so the depth never runs out. -/
theorem soundBelow_error {depth : Nat} {path done : List ValueId}
    (trail : Trail arena.args arena.ids path id) (fresh : id ∉ path)
    (deep : arena.size < path.length + depth)
    (failed : soundBelow arena depth path id done = .error flaw) : arena.Shows id flaw := by
  induction depth generalizing path id done with
  | zero =>
    have short := trail.length_le
    rw [length_ids] at short
    omega
  | succ depth ih =>
    rw [soundBelow] at failed
    cases found : arena.get? id with
    | none =>
      rw [found] at failed
      cases failed
      refine .unresolved .refl ?_
      rintro ⟨value, held, _⟩
      cases found.symm.trans held
    | some value =>
      simp only [found] at failed
      split at failed
      · rename_i placeholder
        cases failed
        refine .unresolved .refl ?_
        rintro ⟨other, held, solid⟩
        cases found.symm.trans held
        exact Bool.false_ne_true (solid.symm.trans placeholder)
      · rcases bind_eq_error.1 failed with searched | ⟨_, _, joined⟩
        · obtain ⟨before, child, listed, stepped⟩ := foldlM_eq_error searched
          have member : child ∈ arena.args id := by rwa [args_of_get? found]
          split at stepped
          · rename_i visited
            cases stepped
            exact .cycle (.single member) (transGen_of_trail trail member visited)
          · rename_i unseen
            split at stepped
            · cases stepped
            · have further := trail.extend fresh (mem_ids.2 (lt_size found)) member
              refine (ih further unseen ?_ stepped).head member
              rw [List.length_cons]
              omega
        · cases joined

/-! ### Validation -/

/-- Validation accepts a value that can be evaluated, or reports a flaw that is there. -/
theorem validate_cases (arena : Arena) (root : ValueId) :
    (arena.validate root = .ok () ∧ arena.Evaluable root) ∨
      ∃ flaw, arena.validate root = .error flaw ∧ arena.Shows root flaw := by
  rw [validate]
  cases searched : soundBelow arena (arena.size + 1) [] root [] with
  | ok done =>
    obtain ⟨sound, _, member⟩ := soundBelow_ok (by simp) searched
    exact .inl ⟨rfl, sound root member⟩
  | error flaw =>
    have shown := soundBelow_error (trail_nil arena.args arena.ids root) List.not_mem_nil (by simp)
      searched
    exact .inr ⟨flaw, rfl, shown⟩

theorem evaluable_of_validate (valid : arena.validate root = .ok ()) : arena.Evaluable root := by
  rcases arena.validate_cases root with ⟨_, evaluable⟩ | ⟨_, failed, _⟩
  · exact evaluable
  · cases valid.symm.trans failed

theorem shows_of_validate (failed : arena.validate root = .error flaw) : arena.Shows root flaw := by
  rcases arena.validate_cases root with ⟨valid, _⟩ | ⟨_, other, shown⟩
  · cases failed.symm.trans valid
  · cases failed.symm.trans other
    exact shown

/-- Validation accepts a value exactly if everything it leads to, itself included, is resolved and
    does not lead to itself; what it reports instead is a place that can be reached and is not
    resolved, or one that can be reached and leads to itself. The loop over a stack of frames ends
    with this verdict, and with no other. -/
theorem validate_exact (arena : Arena) (root : ValueId) :
    (arena.validate root = .ok () ↔ ∀ id, Reaches arena.args root id →
      arena.IsResolved id ∧ ¬ Relation.TransGen (Below arena.args) id id) ∧
    (∀ id, arena.validate root = .error (.unresolved id) →
      Reaches arena.args root id ∧ ¬ arena.IsResolved id) ∧
    (∀ id, arena.validate root = .error (.cycle id) →
      Reaches arena.args root id ∧ Relation.TransGen (Below arena.args) id id) ∧
    ∀ verdict, Inspection.Ends arena (.start root) verdict ↔ verdict = arena.validate root := by
  refine ⟨⟨?_, ?_⟩, ?_, ?_, arena.ends_iff_validate root⟩
  · intro valid id reaches
    have there := (evaluable_of_validate valid).reached reaches
    exact ⟨there.isResolved, not_transGen_self there.acc⟩
  · intro clean
    rcases arena.validate_cases root with ⟨valid, _⟩ | ⟨_, _, shown⟩
    · exact valid
    · cases shown with
      | unresolved reaches missing => exact absurd (clean _ reaches).1 missing
      | cycle reaches loop => exact absurd loop (clean _ reaches).2
  · intro id failed
    cases shows_of_validate failed with
    | unresolved reaches missing => exact ⟨reaches, missing⟩
  · intro id failed
    cases shows_of_validate failed with
    | cycle reaches loop => exact ⟨reaches, loop⟩

/-- An arena with a shared argument, an argument without a value, and two values that lead to each other. -/
def tangled : Arena where
  values := #[
    ⟨"%one", .float 64, .constant "1.0", []⟩,
    ⟨"%two", .float 64, .computation (.arith .fadd) "", [⟨0⟩, ⟨0⟩]⟩,
    ⟨"%gone", .float 64, .computation .fneg "", [⟨9⟩]⟩,
    ⟨"%next", .float 64, .computation (.arith .fadd) "", [⟨1⟩, ⟨4⟩]⟩,
    ⟨"%last", .float 64, .computation .fneg "", [⟨3⟩]⟩]
  constants := 0

theorem tangled_validate_exact :
    (∀ id, Reaches tangled.args ⟨1⟩ id →
      tangled.IsResolved id ∧ ¬ Relation.TransGen (Below tangled.args) id id) ∧
    (Reaches tangled.args ⟨2⟩ ⟨9⟩ ∧ ¬ tangled.IsResolved ⟨9⟩) ∧
    (Reaches tangled.args ⟨4⟩ ⟨4⟩ ∧ Relation.TransGen (Below tangled.args) ⟨4⟩ ⟨4⟩) ∧
    Inspection.Ends tangled (.start ⟨4⟩) (.error (.cycle ⟨4⟩)) :=
  ⟨(validate_exact tangled ⟨1⟩).1.1 rfl, (validate_exact tangled ⟨2⟩).2.1 ⟨9⟩ rfl,
    (validate_exact tangled ⟨4⟩).2.2.1 ⟨4⟩ rfl, ((validate_exact tangled ⟨4⟩).2.2.2 _).2 rfl⟩

/-- Operands are arguments. -/
theorem mem_args_of_mem_parts {arena : Arena} {child id : ValueId}
    (member : child ∈ arena.layout.parts id) : child ∈ arena.args id := by
  cases found : arena.get? id with
  | none => simp [Layout.parts, layout, found] at member
  | some value =>
    have operand : child ∈ value.operands := by simpa [Layout.parts, layout, found] using member
    rw [args_of_get? found]
    exact Value.mem_args_of_mem_operands operand

end Arena

namespace Region

variable {region : Region} {statement : Statement} {access : Access}

/-- Nothing is found wrong with a verified region. -/
theorem findings_of_verify (verified : region.verify = .ok ()) : region.findings = [] := by
  unfold verify at verified
  split at verified
  · assumption
  · cases verified

/-- The accesses of a verified region lead to no cycle of arguments. -/
theorem acc_args_of_verify (verified : region.verify = .ok ())
    (declared : statement ∈ region.statements.values)
    (member : access ∈ statement.accesses.values) :
    Acc (Below region.arena.args) access.value := by
  have clean := findings_of_verify verified
  obtain ⟨entry, inTable, rfl⟩ := List.mem_map.1 member
  have none : region.valueFindings (accessLocation statement.name entry.1) entry.2.value = [] := by
    rw [findings, List.append_eq_nil_iff, List.append_eq_nil_iff, List.append_eq_nil_iff,
      allValueFindings, List.append_eq_nil_iff] at clean
    have perStatement := List.flatMap_eq_nil_iff.1 clean.1.1.1.2 statement declared
    exact List.flatMap_eq_nil_iff.1 perStatement entry inTable
  have valid : region.arena.validate entry.2.value = .ok () := by
    unfold valueFindings at none
    split at none
    · assumption
    · cases none
    · cases none
  exact (Arena.evaluable_of_validate valid).acc

/-- The accesses of a verified region lead to no cycle of operands. -/
theorem acc_of_verify (verified : region.verify = .ok ())
    (declared : statement ∈ region.statements.values)
    (member : access ∈ statement.accesses.values) :
    Acc (Below region.arena.layout.parts) access.value :=
  Subrelation.accessible (fun below => Arena.mem_args_of_mem_parts below)
    (acc_args_of_verify verified declared member)

/-- The array of an access of a verified region is declared; all pieces of its relation start at the
    statement and have as many subscripts as the array has dimensions. -/
theorem pieces_of_verify (verified : region.verify = .ok ())
    (declared : statement ∈ region.statements.values)
    (member : access ∈ statement.accesses.values) {array : String} {direction : AccessKind}
    (touches : region.accessArray? access.value = some (array, direction)) :
    ∃ storage, region.storage.get? array = some storage ∧
      ∀ piece ∈ access.relation.pieces, piece.input.name = some statement.name ∧
        (piece.output.map fun target => target.dims.length).getD 0 = storage.rank := by
  have clean := findings_of_verify verified
  obtain ⟨entry, inTable, rfl⟩ := List.mem_map.1 member
  have none : region.accessFlaws statement entry.2 = [] := by
    rw [findings, List.append_eq_nil_iff, List.append_eq_nil_iff, List.append_eq_nil_iff] at clean
    have perStatement := List.flatMap_eq_nil_iff.1 clean.1.1.2 statement declared
    rw [statementFindings, List.append_eq_nil_iff, List.append_eq_nil_iff] at perStatement
    exact List.map_eq_nil_iff.1 (List.flatMap_eq_nil_iff.1 perStatement.1.2 entry inTable)
  simp only [accessFlaws, touches] at none
  split at none
  · cases none
  · rename_i storage known
    refine ⟨storage, known, fun piece listed => ?_⟩
    have clear := List.flatMap_eq_nil_iff.1 none piece listed
    rw [accessPieceFlaws, List.append_eq_nil_iff] at clear
    simpa using clear

end Region

end RegionFlow
