/-
Module: RegionFlow.Proofs.Substitution
Purpose: Propagation as a substitution. What a reference denotes is said without the search for it:
  a parameter before a computation, a computation before the read of the first statement that reads
  under the reference, a read before an induction variable. Each computation and each access of the
  region of a record gets the arguments that this substitution makes of its old ones; nothing else
  changes; and the report accounts for every placeholder, those that are deleted by name and in
  order.
Main exports: Region.Denotes, Region.lookup?_eq_some_iff, Region.Substitutes, Region.Rewrites,
  Region.Substituted, Record.propagate_substitutes
-/
import RegionFlow.Proofs.Dropping

namespace RegionFlow

open Sequencing

/-- What an instruction defines is no access. -/
theorem ValueKind.isDefinition_of_isAccessOf {array : String} {kind : ValueKind}
    (accesses : kind.isAccessOf array = true) : kind.isDefinition = false := by
  unfold isAccessOf at accesses
  split at accesses
  · rfl
  · cases accesses

namespace Region

variable {region : Region} {reference : String} {id : ValueId}

/-! ### What a reference denotes -/

/-- A statement has a reference for the key of a read. -/
def Statement.ReadsUnder (arena : Arena) (reference : String) (statement : Statement) : Prop :=
  ∃ access, statement.accesses.get? reference = some access ∧ isReadIn arena access = true

/-- The read under a reference in the first statement that has one. -/
def FirstRead (region : Region) (reference : String) (id : ValueId) : Prop :=
  ∃ earlier statement later access, region.statements.values = earlier ++ statement :: later ∧
    statement.accesses.get? reference = some access ∧ Statement.isReadIn region.arena access = true ∧
    access.value = id ∧ ∀ other ∈ earlier, ¬ other.ReadsUnder region.arena reference

/-- The induction variable with a reference in the first statement that has one. -/
def FirstLoop (region : Region) (reference : String) (id : ValueId) : Prop :=
  ∃ earlier statement later, region.statements.values = earlier ++ statement :: later ∧
    statement.loops.get? reference = some id ∧ ∀ other ∈ earlier, other.loops.get? reference = none

/-- What a reference denotes, by precedence. -/
inductive Denotes (region : Region) (reference : String) : ValueId → Prop where
  | parameter {entry : Parameter} (declared : region.parameters.get? reference = some entry) :
      Denotes region reference entry.value
  | computation {id : ValueId} (undeclared : region.parameters.get? reference = none)
      (computed : region.computations.get? reference = some id) : Denotes region reference id
  | read {id : ValueId} (undeclared : region.parameters.get? reference = none)
      (uncomputed : region.computations.get? reference = none) (reads : region.FirstRead reference id) :
      Denotes region reference id
  | inductionVariable {id : ValueId} (undeclared : region.parameters.get? reference = none)
      (uncomputed : region.computations.get? reference = none)
      (unread : ∀ statement ∈ region.statements.values, ¬ statement.ReadsUnder region.arena reference)
      (counts : region.FirstLoop reference id) : Denotes region reference id

/-- The read that a statement has under a reference. -/
def Statement.readUnder? (arena : Arena) (reference : String) (statement : Statement) : Option ValueId :=
  match statement.accesses.get? reference with
  | some access => if isReadIn arena access then some access.value else none
  | none => none

theorem Statement.readUnder?_eq_some_iff {arena : Arena} {statement : Statement} :
    statement.readUnder? arena reference = some id ↔
      ∃ access, statement.accesses.get? reference = some access ∧ isReadIn arena access = true ∧
        access.value = id := by
  unfold readUnder?
  cases statement.accesses.get? reference with
  | none => simp
  | some access => simp

theorem Statement.readUnder?_eq_none_iff {arena : Arena} {statement : Statement} :
    statement.readUnder? arena reference = none ↔ ¬ statement.ReadsUnder arena reference := by
  unfold readUnder? ReadsUnder
  cases statement.accesses.get? reference with
  | none => simp
  | some access => simp

theorem findRead?_eq (region : Region) (reference : String) :
    region.findRead? reference =
      region.statements.values.findSome? (Statement.readUnder? region.arena reference) :=
  rfl

theorem findRead?_eq_none_iff :
    region.findRead? reference = none ↔
      ∀ statement ∈ region.statements.values, ¬ statement.ReadsUnder region.arena reference := by
  simp only [findRead?_eq, List.findSome?_eq_none_iff, Statement.readUnder?_eq_none_iff]

theorem findRead?_eq_some_iff : region.findRead? reference = some id ↔ region.FirstRead reference id := by
  simp only [findRead?_eq, List.findSome?_eq_some_iff, Statement.readUnder?_eq_some_iff,
    Statement.readUnder?_eq_none_iff]
  constructor
  · rintro ⟨earlier, statement, later, split, ⟨access, listed, reads, same⟩, none⟩
    exact ⟨earlier, statement, later, access, split, listed, reads, same, none⟩
  · rintro ⟨earlier, statement, later, access, split, listed, reads, same, none⟩
    exact ⟨earlier, statement, later, split, ⟨access, listed, reads, same⟩, none⟩

theorem findInductionVariable?_eq_some_iff :
    region.findInductionVariable? reference = some id ↔ region.FirstLoop reference id := by
  rw [findInductionVariable?, List.findSome?_eq_some_iff]
  rfl

/-- The search for a reference finds what it denotes. -/
theorem lookup?_eq_some_iff : region.lookup? reference = some id ↔ region.Denotes reference id := by
  constructor
  · intro found
    unfold lookup? at found
    cases declared : region.parameters.get? reference with
    | some entry =>
      simp only [declared, Option.some.injEq] at found
      rw [← found]
      exact .parameter declared
    | none =>
      simp only [declared] at found
      cases computed : region.computations.get? reference with
      | some other =>
        simp only [computed, Option.some.injEq] at found
        exact .computation declared (found ▸ computed)
      | none =>
        simp only [computed] at found
        cases read : region.findRead? reference with
        | some other =>
          simp only [read, Option.some.injEq] at found
          exact .read declared computed (findRead?_eq_some_iff.1 (found ▸ read))
        | none =>
          simp only [read] at found
          exact .inductionVariable declared computed (findRead?_eq_none_iff.1 read)
            (findInductionVariable?_eq_some_iff.1 found)
  · intro denoted
    cases denoted with
    | parameter declared => simp [lookup?, declared]
    | computation undeclared computed => simp [lookup?, undeclared, computed]
    | read undeclared uncomputed reads =>
      simp [lookup?, undeclared, uncomputed, findRead?_eq_some_iff.2 reads]
    | inductionVariable undeclared uncomputed unread counts =>
      simp [lookup?, undeclared, uncomputed, findRead?_eq_none_iff.2 unread,
        findInductionVariable?_eq_some_iff.2 counts]

theorem lookup?_eq_none_iff : region.lookup? reference = none ↔ ∀ id, ¬ region.Denotes reference id := by
  simp only [Option.eq_none_iff_forall_ne_some, ne_eq, lookup?_eq_some_iff]

/-! ### Arguments -/

/-- What substitution makes of arguments: those that are no placeholders are kept, a placeholder is
    replaced by what its reference denotes, and deleted if that is nothing. The last list holds the
    references of those deleted. -/
inductive Substitutes (region : Region) : (before after : List ValueId) → (gone : List String) → Prop where
  | nil : Substitutes region [] [] []
  | kept {arg : ValueId} {value : Value} {before after : List ValueId} {gone : List String}
      (found : region.arena.get? arg = some value) (solid : value.isPlaceholder = false)
      (others : Substitutes region before after gone) :
      Substitutes region (arg :: before) (arg :: after) gone
  | replaced {arg producer : ValueId} {value : Value} {before after : List ValueId} {gone : List String}
      (found : region.arena.get? arg = some value) (placeholder : value.isPlaceholder = true)
      (denoted : region.Denotes value.reference producer) (others : Substitutes region before after gone) :
      Substitutes region (arg :: before) (producer :: after) gone
  | deleted {arg : ValueId} {value : Value} {before after : List ValueId} {gone : List String}
      (found : region.arena.get? arg = some value) (placeholder : value.isPlaceholder = true)
      (undenoted : ∀ id, ¬ region.Denotes value.reference id)
      (others : Substitutes region before after gone) :
      Substitutes region (arg :: before) after (value.reference :: gone)

/-- Every argument is kept, replaced or deleted. -/
theorem Substitutes.length_eq {before after : List ValueId} {gone : List String}
    (substitutes : region.Substitutes before after gone) : after.length + gone.length = before.length := by
  induction substitutes with
  | nil => rfl
  | kept _ _ _ ih => rw [List.length_cons, List.length_cons, ← ih, Nat.add_right_comm]
  | replaced _ _ _ _ ih => rw [List.length_cons, List.length_cons, ← ih, Nat.add_right_comm]
  | deleted _ _ _ _ ih => rw [List.length_cons, List.length_cons, ← ih, Nat.add_assoc]

/-- What becomes of an argument. -/
theorem resolveArg_cases {arg : ValueId} {value : Value} (found : region.arena.get? arg = some value) :
    (value.isPlaceholder = false ∧ region.resolveArg arg = .kept arg) ∨
      (value.isPlaceholder = true ∧ ∃ producer, region.Denotes value.reference producer ∧
        region.resolveArg arg = .replaced producer) ∨
      (value.isPlaceholder = true ∧ (∀ id, ¬ region.Denotes value.reference id) ∧
        region.resolveArg arg = .dropped value.reference) := by
  cases placeholder : value.isPlaceholder with
  | false => exact .inl ⟨rfl, by simp [resolveArg, found, placeholder]⟩
  | true =>
    cases looked : region.lookup? value.reference with
    | some producer =>
      have resolved : region.resolveArg arg = .replaced producer := by
        simp [resolveArg, found, placeholder, looked]
      exact .inr (.inl ⟨rfl, producer, lookup?_eq_some_iff.1 looked, resolved⟩)
    | none =>
      have resolved : region.resolveArg arg = .dropped value.reference := by
        simp [resolveArg, found, placeholder, looked]
      exact .inr (.inr ⟨rfl, lookup?_eq_none_iff.1 looked, resolved⟩)

/-- Arguments are resolved by substitution, if all of them are values. -/
theorem substitutes_of_held {args : List ValueId}
    (held : ∀ arg ∈ args, ∃ value, region.arena.get? arg = some value) :
    region.Substitutes args (region.resolvedArgs args)
      ((args.map region.resolveArg).filterMap Resolution.dropped?) := by
  induction args with
  | nil => exact .nil
  | cons arg args ih =>
    obtain ⟨⟨value, found⟩, later⟩ := List.forall_mem_cons.1 held
    have others := ih later
    rw [resolvedArgs, List.map_cons]
    rcases resolveArg_cases found with ⟨solid, resolved⟩ | ⟨placeholder, producer, denoted, resolved⟩ |
      ⟨placeholder, undenoted, resolved⟩
    · rw [resolved]
      exact .kept found solid others
    · rw [resolved]
      exact .replaced found placeholder denoted others
    · rw [resolved]
      exact .deleted found placeholder undenoted others

/-- A placeholder is replaced or deleted, and nothing else is. -/
theorem Substitutes.countP_isReplaced {before after : List ValueId} {gone : List String}
    (substitutes : region.Substitutes before after gone) :
    (before.map region.resolveArg).countP Resolution.isReplaced + gone.length =
      before.countP region.isPlaceholderAt := by
  induction substitutes with
  | nil => rfl
  | @kept arg value before after gone found solid _ ih =>
    have resolved : region.resolveArg arg = .kept arg := by simp [resolveArg, found, solid]
    have outside : region.isPlaceholderAt arg = false := by simp [isPlaceholderAt, found, solid]
    rw [List.map_cons, resolved, List.countP_cons_of_neg (by simp [Resolution.isReplaced]),
      List.countP_cons_of_neg (by simp [outside]), ih]
  | @replaced arg producer value before after gone found placeholder denoted _ ih =>
    have resolved : region.resolveArg arg = .replaced producer := by
      simp [resolveArg, found, placeholder, lookup?_eq_some_iff.2 denoted]
    have inside : region.isPlaceholderAt arg = true := by simp [isPlaceholderAt, found, placeholder]
    rw [List.map_cons, resolved, List.countP_cons_of_pos rfl, List.countP_cons_of_pos inside, ← ih,
      Nat.add_right_comm]
  | @deleted arg value before after gone found placeholder undenoted _ ih =>
    have resolved : region.resolveArg arg = .dropped value.reference := by
      simp [resolveArg, found, placeholder, lookup?_eq_none_iff.2 undenoted]
    have inside : region.isPlaceholderAt arg = true := by simp [isPlaceholderAt, found, placeholder]
    rw [List.map_cons, resolved, List.countP_cons_of_neg (by simp [Resolution.isReplaced]),
      List.countP_cons_of_pos inside, ← ih, List.length_cons, Nat.add_assoc]

/-! ### The whole pass -/

/-- Each of some values gets the arguments that substitution makes of its old ones in the second
    arena. What is deleted is listed with the reference of the value, value by value. -/
inductive Rewrites (region : Region) (after : Arena) :
    (owners : List ValueId) → List DroppedReference → Prop where
  | nil : Rewrites region after [] []
  | cons {owner : ValueId} {value : Value} {args owners : List ValueId} {gone : List String}
      {dropped : List DroppedReference} (found : region.arena.get? owner = some value)
      (rewritten : after.get? owner = some { value with args })
      (substitutes : region.Substitutes value.args args gone)
      (others : Rewrites region after owners dropped) :
      Rewrites region after (owner :: owners) (gone.map (⟨value.reference, ·⟩) ++ dropped)

/-- The placeholders among the arguments are replaced or listed as deleted. -/
theorem Rewrites.countP_isReplaced {after : Arena} {owners : List ValueId} {dropped : List DroppedReference}
    (rewrites : region.Rewrites after owners dropped) :
    (owners.flatMap region.resolutions).countP Resolution.isReplaced + dropped.length =
      (owners.flatMap region.arena.args).countP region.isPlaceholderAt := by
  induction rewrites with
  | nil => rfl
  | cons found _ substitutes _ ih =>
    have here := substitutes.countP_isReplaced
    rw [List.flatMap_cons, List.flatMap_cons, List.countP_append, List.countP_append, List.length_append,
      List.length_map, ← ih, resolutions, Arena.args_of_get? found, ← here]
    omega

/-- Where nothing is listed as deleted, there are as many arguments as before. -/
theorem Rewrites.length_args {after : Arena} {owners : List ValueId}
    (rewrites : region.Rewrites after owners []) :
    ∀ owner ∈ owners, (after.args owner).length = (region.arena.args owner).length := by
  generalize listed : ([] : List DroppedReference) = dropped at rewrites
  induction rewrites with
  | nil => simp
  | cons found rewritten substitutes _ ih =>
    obtain ⟨none, others⟩ := List.nil_eq_append_iff.1 listed
    rw [List.map_eq_nil_iff] at none
    have length := substitutes.length_eq
    rw [none, List.length_nil, Nat.add_zero] at length
    refine List.forall_mem_cons.2 ⟨?_, ih others.symm⟩
    rw [Arena.args_of_get? found, Arena.args_of_get? rewritten, length]

theorem substituted_propagate (region : Region) :
    region.propagate.2.substituted =
      (region.argumentOwners.flatMap region.resolutions).countP Resolution.isReplaced := by
  have none : ∀ owner, (region.arena.args owner).any region.isPlaceholderAt = false →
      (region.resolutions owner).filter Resolution.isReplaced = [] := by
    intro owner kept
    rw [resolutions_eq_kept kept, List.filter_map, List.map_eq_nil_iff, List.filter_eq_nil_iff]
    simp [Resolution.isReplaced]
  change (region.plan.flatMap Prod.snd).countP Resolution.isReplaced = _
  rw [List.countP_eq_length_filter, List.countP_eq_length_filter, List.filter_flatMap, List.filter_flatMap]
  exact congrArg List.length (flatMap_plan (fun entry => entry.2.filter Resolution.isReplaced) none)

theorem constants_applyPlan (arena : Arena) (plan : List (ValueId × List Resolution)) :
    (applyPlan arena plan).constants = arena.constants := by
  induction plan generalizing arena with
  | nil => rfl
  | cons entry plan ih => exact ih _

theorem mem_argumentOwners_iff :
    id ∈ region.argumentOwners ↔ (∃ reference, region.computations.get? reference = some id) ∨
      ∃ name statement key access, region.statements.get? name = some statement ∧
        statement.accesses.get? key = some access ∧ access.value = id := by
  simp only [argumentOwners, List.mem_append, List.mem_flatMap, List.mem_map]
  constructor
  · rintro (computed | ⟨statement, declared, access, member, same⟩)
    · exact .inl (Table.exists_get?_of_mem_values computed)
    · obtain ⟨name, found⟩ := Table.exists_get?_of_mem_values declared
      obtain ⟨key, known⟩ := Table.exists_get?_of_mem_values member
      exact .inr ⟨name, statement, key, access, found, known, same⟩
  · rintro (⟨reference, computed⟩ | ⟨name, statement, key, access, found, known, same⟩)
    · exact .inl (Table.mem_values_of_get? computed)
    · exact .inr ⟨statement, Table.mem_values_of_get? found, access, Table.mem_values_of_get? known, same⟩

section Consistent

variable (consistent : Consistent region.arena region.parameters region.computations region.statements)

include consistent

/-- An access is a value, and no definition. -/
theorem exists_of_mem_accessIds (accessed : id ∈ accessIds region.statements) :
    ∃ value, region.arena.get? id = some value ∧ value.kind.isDefinition = false := by
  obtain ⟨statement, declared, inside⟩ := List.mem_flatMap.1 accessed
  obtain ⟨access, member, rfl⟩ := List.mem_map.1 inside
  obtain ⟨name, found⟩ := Table.exists_get?_of_mem_values declared
  obtain ⟨key, known⟩ := Table.exists_get?_of_mem_values member
  obtain ⟨_, ⟨array, _, value, held, _, kind⟩, _⟩ := (consistent.statement found).accesses known
  exact ⟨value, held, ValueKind.isDefinition_of_isAccessOf kind⟩

/-- What owns arguments is a value. -/
theorem exists_of_mem_argumentOwners (owner : id ∈ region.argumentOwners) :
    ∃ value, region.arena.get? id = some value := by
  rcases List.mem_append.1 owner with computed | accessed
  · obtain ⟨reference, found⟩ := Table.exists_get?_of_mem_values computed
    obtain ⟨value, held, _, _⟩ := consistent.computation found
    exact ⟨value, held⟩
  · obtain ⟨value, held, _⟩ := exists_of_mem_accessIds consistent accessed
    exact ⟨value, held⟩

/-- No value is listed twice among those that own arguments. -/
theorem nodup_argumentOwners : region.argumentOwners.Nodup := by
  have computations : (region.computations.values.map fun id => id).Nodup :=
    nodup_of_names consistent.computation
  rw [List.map_id'] at computations
  refine List.nodup_append'.2 ⟨computations, consistent.distinct, ?_⟩
  intro id computed accessed
  obtain ⟨reference, found⟩ := Table.exists_get?_of_mem_values computed
  obtain ⟨value, held, _, definition⟩ := consistent.computation found
  obtain ⟨other, same, others⟩ := exists_of_mem_accessIds consistent accessed
  cases held.symm.trans same
  exact Bool.false_ne_true (others.symm.trans definition)

end Consistent

/-- Propagation rewrites what owns arguments in a sound region, and lists what it deletes. -/
theorem Sound.rewrites (sound : region.Sound) :
    region.Rewrites region.propagate.1.arena region.argumentOwners region.propagate.2.dropped := by
  have each : ∀ owners ⊆ region.argumentOwners, region.Rewrites region.propagate.1.arena owners
      (owners.flatMap region.droppedFrom) := by
    intro owners
    induction owners with
    | nil => exact fun _ => .nil
    | cons owner owners ih =>
      intro inside
      obtain ⟨owns, later⟩ := List.cons_subset.1 inside
      obtain ⟨value, found⟩ := exists_of_mem_argumentOwners sound.consistent owns
      have rewritten := get?_propagate region owner
      rw [found, Option.map_some, if_pos owns] at rewritten
      have held : ∀ arg ∈ value.args, ∃ argument, region.arena.get? arg = some argument := by
        intro arg member
        obtain ⟨argument, known, _⟩ := sound.args found member
        exact ⟨argument, known⟩
      have name : ((region.arena.get? owner).map Value.reference).getD owner.text = value.reference := by
        rw [found]
        rfl
      rw [List.flatMap_cons, droppedFrom, droppedOf, name, Arena.args_of_get? found]
      exact .cons found rewritten (substitutes_of_held held) (ih later)
  rw [dropped_propagate]
  exact each region.argumentOwners (List.Subset.refl _)

/-- What propagation makes of a region: the computations and accesses, each of them once, are
    rewritten by substitution; no other value changes, and nothing but values does; every
    placeholder among the arguments that are rewritten is counted as substituted or listed as
    dropped; and where none is dropped, none of these values has fewer arguments than before. -/
structure Substituted (region after : Region) (report : Report) : Prop where
  owners : ∀ id, id ∈ region.argumentOwners ↔ (∃ reference, region.computations.get? reference = some id) ∨
    ∃ name statement key access, region.statements.get? name = some statement ∧
      statement.accesses.get? key = some access ∧ access.value = id
  distinct : region.argumentOwners.Nodup
  rewrites : region.Rewrites after.arena region.argumentOwners report.dropped
  others : ∀ id, id ∉ region.argumentOwners → after.arena.get? id = region.arena.get? id
  constants : after.arena.constants = region.arena.constants
  frame : after = { region with arena := after.arena }
  counted : report.substituted + report.dropped.length =
    (region.argumentOwners.flatMap region.arena.args).countP region.isPlaceholderAt
  lengths : report.dropped = [] → ∀ owner ∈ region.argumentOwners,
    (after.arena.args owner).length = (region.arena.args owner).length

end Region

namespace Record

/-- Propagation of the region of a record substitutes by precedence and touches nothing else. -/
theorem propagate_substitutes {record : Record} {region : Region}
    (built : Region.ofRecord record = .ok region) :
    region.Substituted region.propagate.1 region.propagate.2 := by
  have sound := Region.sound_of_ofRecord built
  have rewrites := sound.rewrites
  refine ⟨fun id => Region.mem_argumentOwners_iff, Region.nodup_argumentOwners sound.consistent,
    rewrites, ?_, Region.constants_applyPlan region.arena region.plan, rfl, ?_, ?_⟩
  · intro id unowned
    rw [Region.get?_propagate]
    cases region.arena.get? id with
    | none => rfl
    | some value => rw [Option.map_some, if_neg unowned]
  · rw [Region.substituted_propagate]
    exact rewrites.countP_isReplaced
  · intro none
    rw [none] at rewrites
    exact rewrites.length_args

/-- A parameter that is computed as well, from something that nothing defines. -/
def contested : Record where
  name := "contest"
  context := ""
  schedule := ""
  parameters := [⟨"n", "i64 %n", "i64"⟩]
  arrays := [⟨"A", .array, ["*"], "i64", ""⟩]
  dependences := ⟨"", "", "", "", ""⟩
  instructions := "%n = add i64 %m, 1\n%x = mul i64 %n, %i\n"
  statements := [
    { name := "S"
      domain := "\x7b S[i0] : 0 <= i0 <= 9 \x7d"
      affine := some true
      loops := ["%i = phi i64 [ 0, %e ]"]
      accesses := [⟨.write, "\x7b S[i0] -> A[i0] \x7d", "store i64 %x, ptr %p", ""⟩]
      instructions := none }]
  aliasGroups := []

/-- The parameter wins over the computation, three placeholders are replaced, and one is dropped. -/
theorem contested_propagate_substitutes :
    ∃ region entry product, Region.ofRecord contested = .ok region ∧
      region.parameters.get? "%n" = some entry ∧ region.computations.contains "%n" = true ∧
      region.computations.get? "%x" = some product ∧ entry.value ∈ region.propagate.1.arena.args product ∧
      region.propagate.2 = ⟨3, [⟨"%n", "%m"⟩]⟩ ∧
      region.Substituted region.propagate.1 region.propagate.2 := by
  have evaluated : succeeds (Region.ofRecord contested) (fun region =>
      (region.parameters.get? "%n").any fun entry => (region.computations.get? "%x").any fun product =>
        region.computations.contains "%n" && decide (entry.value ∈ region.propagate.1.arena.args product) &&
          region.propagate.2 == ⟨3, [⟨"%n", "%m"⟩]⟩) = true := by
    decide +kernel
  obtain ⟨region, built, evaluated⟩ := exists_of_succeeds evaluated
  simp only [Option.any_eq_true, Bool.and_eq_true, decide_eq_true_eq, beq_iff_eq] at evaluated
  obtain ⟨entry, declared, product, computed, ⟨contested, wins⟩, report⟩ := evaluated
  exact ⟨region, entry, product, built, declared, contested, computed, wins, report,
    propagate_substitutes built⟩

end Record

end RegionFlow
