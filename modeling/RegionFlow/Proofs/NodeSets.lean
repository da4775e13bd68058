/-
Module: RegionFlow.Proofs.NodeSets
Purpose: Which values have a node in the scope of a statement. Emission remembers a node for each
  value that it meets, once, and with a value also its arguments; what it remembers of a
  pass-through merge is the node of the first value behind it that is none. So the nodes of a scope
  stand for the reads of the statement, for what its writes store and lead to, pass-through merges
  apart, and for the writes, one node for each.
Main exports: Arena.PassesTo, Graph.Tallied, Graph.Collects, Graph.tallied_emitBelow, Graph.HasNode,
  Graph.Tally, Graph.tally_emitStatement
-/
import RegionFlow.Proofs.Depiction
import RegionFlow.Proofs.Searching

namespace RegionFlow

open Search Sequencing

/-- Whether values of this kind pass their argument on. -/
def ValueKind.isForward : ValueKind → Bool
  | forward _ => true
  | _ => false

/-! ### Chains of pass-through merges -/

/-- A value passes to the first value on its chain of pass-through merges that is no such merge. -/
inductive Arena.PassesTo (arena : Arena) : ValueId → ValueId → Prop where
  /-- The value is no pass-through merge. -/
  | stop {id : ValueId} {value : Value} (found : arena.get? id = some value)
      (solid : value.kind.isForward = false) : PassesTo arena id id
  /-- The value passes its only argument on. -/
  | pass {id passed last : ValueId} {value : Value} (found : arena.get? id = some value)
      (forward : value.kind.isForward = true) (args : value.args = [passed])
      (rest : PassesTo arena passed last) : PassesTo arena id last

namespace Arena

variable {arena : Arena} {id last : ValueId}

/-- A chain ends at a value that is no pass-through merge. -/
theorem PassesTo.solid (passes : arena.PassesTo id last) :
    ∃ value, arena.get? last = some value ∧ value.kind.isForward = false := by
  induction passes with
  | stop found solid => exact ⟨_, found, solid⟩
  | pass _ _ _ _ ih => exact ih

/-- The chain of a value that is no pass-through merge ends there. -/
theorem PassesTo.eq_of_solid (passes : arena.PassesTo id last) {value : Value}
    (found : arena.get? id = some value) (solid : value.kind.isForward = false) : last = id := by
  cases passes with
  | stop _ _ => rfl
  | pass held forward _ _ =>
    cases found.symm.trans held
    rw [solid] at forward
    cases forward

/-- A chain ends at one value. -/
theorem PassesTo.unique (one : arena.PassesTo id last) {other : ValueId}
    (two : arena.PassesTo id other) : last = other := by
  induction one with
  | stop found solid => exact (two.eq_of_solid found solid).symm
  | pass found forward args _ ih =>
    cases two with
    | stop held solid =>
      cases found.symm.trans held
      rw [forward] at solid
      cases solid
    | pass held _ same rest =>
      cases found.symm.trans held
      cases args.symm.trans same
      exact ih rest

end Arena

namespace Region.Sound

variable {region : Region} (sound : region.Sound) {id : ValueId} {value : Value}

include sound

/-- Every argument of a value is an operand. -/
theorem operands_eq (found : region.arena.get? id = some value) : value.operands = value.args := by
  cases composite : value.kind.isComposite with
  | true => exact Value.operands_of_composite composite
  | false =>
    rw [Value.operands_of_atom composite]
    exact (List.length_eq_zero_iff.1 (ValueKind.eq_zero_of_takes composite (sound.takes found))).symm

/-- An argument is no write. -/
theorem noWrite_of_mem_args {arg : ValueId} (member : arg ∈ region.arena.args id) :
    Graph.NoWrite region arg := by
  cases found : region.arena.get? id with
  | none => simp [Arena.args, found] at member
  | some value =>
    rw [Arena.args_of_get? found] at member
    exact sound.args found member

/-- An argument leads to no write. -/
theorem not_reaches_write {statement : Statement} (declared : statement ∈ region.statements.values)
    {entry : String × Access} (written : entry ∈ statement.writes region.arena) {arg : ValueId}
    (member : arg ∈ region.arena.args id) : ¬ Reaches region.arena.args arg entry.2.value := by
  intro reaches
  have noWrite : Graph.NoWrite region entry.2.value := by
    cases reaches with
    | refl => exact sound.noWrite_of_mem_args member
    | tail _ successor => exact sound.noWrite_of_mem_args successor
  obtain ⟨_, _, _, _, found, kind, _⟩ := sound.write_kind declared written
  obtain ⟨_, held, apart⟩ := noWrite
  cases found.symm.trans held
  rw [kind] at apart
  cases apart

end Region.Sound

namespace Graph

variable {region : Region} {statement : Region.Statement} {dims : List String} {start : Nat}
  {emission middle after : Emission}

/-! ### What emission remembers -/

/-- The values that have a node. -/
def Emission.known (emission : Emission) : List ValueId :=
  emission.memo.map Prod.fst

theorem Emission.known_add (emission : Emission) (origin : ValueId) (type : ScalarType)
    (kind : NodeKind) (inputs : List NodeId) :
    (emission.add origin type kind inputs).known = origin :: emission.known :=
  rfl

theorem Emission.mem_known {id : ValueId} {nodeId : NodeId} (member : (id, nodeId) ∈ emission.memo) :
    id ∈ emission.known :=
  List.mem_map.2 ⟨_, member, rfl⟩

theorem Emission.lookup_eq_none {id : ValueId} (unknown : emission.memo.lookup id = none) :
    id ∉ emission.known := by
  intro known
  obtain ⟨entry, member, rfl⟩ := List.mem_map.1 known
  simpa using List.lookup_eq_none_iff.1 unknown entry member

/-- What emission keeps: it remembers every value once, with the node of the value that its chain
    passes to; it remembers each node from `start` on under the value that the node stands for, and
    the inputs of the node under the arguments of that value; and with a value it remembers its
    arguments. -/
structure Tallied (region : Region) (start : Nat) (emission : Emission) : Prop where
  within : start ≤ emission.nodes.size
  distinct : emission.known.Nodup
  placed : ∀ entry ∈ emission.memo, start ≤ entry.2.index ∧
    ∃ node, emission.nodes[entry.2.index]? = some node ∧ region.arena.PassesTo entry.1 node.origin
  listed : ∀ {place : Nat} {node : Node}, start ≤ place → emission.nodes[place]? = some node →
    (node.origin, ⟨place⟩) ∈ emission.memo
  inputs : ∀ {place : Nat} {node : Node}, start ≤ place → emission.nodes[place]? = some node →
    List.Forall₂ (fun arg input => (arg, input) ∈ emission.memo) (region.arena.args node.origin)
      node.inputs
  closed : ∀ id ∈ emission.known, ∀ arg ∈ region.arena.args id, arg ∈ emission.known

/-- Adding a node keeps the tally, if its value has none and its inputs are remembered under the
    arguments. -/
theorem Tallied.add (tallied : Tallied region start emission) {origin : ValueId} {type : ScalarType}
    {kind : NodeKind} {inputs : List NodeId} {value : Value}
    (found : region.arena.get? origin = some value) (solid : value.kind.isForward = false)
    (fresh : origin ∉ emission.known)
    (aligned : List.Forall₂ (fun arg input => (arg, input) ∈ emission.memo) value.args inputs) :
    Tallied region start (emission.add origin type kind inputs) where
  within := by
    rw [Emission.add, Array.size_push]
    exact Nat.le_succ_of_le tallied.within
  distinct := List.nodup_cons.2 ⟨fresh, tallied.distinct⟩
  placed := by
    refine List.forall_mem_cons.2
      ⟨⟨tallied.within, _, getElem?_push_size emission.nodes _, .stop found solid⟩, ?_⟩
    intro entry member
    obtain ⟨beyond, node, held, passes⟩ := tallied.placed entry member
    exact ⟨beyond, node, grown_push emission.nodes _ held, passes⟩
  listed := by
    intro place node beyond held
    rcases push_cases held with ⟨rfl, rfl⟩ | old
    · exact List.mem_cons_self
    · exact List.mem_cons_of_mem _ (tallied.listed beyond old)
  inputs := by
    intro place node beyond held
    rcases push_cases held with ⟨rfl, rfl⟩ | old
    · rw [Arena.args_of_get? found]
      exact aligned.imp fun _ _ member => List.mem_cons_of_mem _ member
    · exact (tallied.inputs beyond old).imp fun _ _ member => List.mem_cons_of_mem _ member
  closed := by
    refine List.forall_mem_cons.2 ⟨?_, ?_⟩
    · intro arg member
      rw [Arena.args_of_get? found] at member
      obtain ⟨input, _, remembered⟩ := exists_partner aligned member
      exact List.mem_cons_of_mem _ (Emission.mem_known remembered)
    · intro id known arg member
      exact List.mem_cons_of_mem _ (tallied.closed id known arg member)

/-- Remembering for a pass-through merge the node of what it passes on keeps the tally. -/
theorem Tallied.pass (tallied : Tallied region start emission) {id passed : ValueId} {nodeId : NodeId}
    {value : Value} (found : region.arena.get? id = some value)
    (forward : value.kind.isForward = true) (args : value.args = [passed])
    (fresh : id ∉ emission.known) (known : (passed, nodeId) ∈ emission.memo) :
    Tallied region start { emission with memo := (id, nodeId) :: emission.memo } where
  within := tallied.within
  distinct := List.nodup_cons.2 ⟨fresh, tallied.distinct⟩
  placed := by
    refine List.forall_mem_cons.2 ⟨?_, tallied.placed⟩
    obtain ⟨beyond, node, held, passes⟩ := tallied.placed _ known
    exact ⟨beyond, node, held, .pass found forward args passes⟩
  listed := fun beyond held => List.mem_cons_of_mem _ (tallied.listed beyond held)
  inputs := fun beyond held =>
    (tallied.inputs beyond held).imp fun _ _ member => List.mem_cons_of_mem _ member
  closed := by
    refine List.forall_mem_cons.2 ⟨?_, ?_⟩
    · intro arg member
      rw [Arena.args_of_get? found, args, List.mem_singleton] at member
      rw [member]
      exact List.mem_cons_of_mem _ (Emission.mem_known known)
    · intro other old arg member
      exact List.mem_cons_of_mem _ (tallied.closed other old arg member)

/-- With a value, all that it leads to has a node. -/
theorem Tallied.known_of_reaches (tallied : Tallied region start emission) {root id : ValueId}
    (known : root ∈ emission.known) (reaches : Reaches region.arena.args root id) :
    id ∈ emission.known := by
  induction reaches with
  | refl => exact known
  | tail _ successor ih => exact tallied.closed _ ih _ successor

/-- The second emission remembers what the first does, and besides only values with a property. -/
structure Collects (New : ValueId → Prop) (first second : Emission) : Prop where
  kept : first.memo ⊆ second.memo
  fresh : ∀ id ∈ second.known, id ∈ first.known ∨ New id

theorem Collects.refl {New : ValueId → Prop} (emission : Emission) : Collects New emission emission :=
  ⟨List.Subset.refl _, fun _ known => .inl known⟩

theorem Collects.trans {New : ValueId → Prop} {first second third : Emission}
    (one : Collects New first second) (two : Collects New second third) : Collects New first third where
  kept := List.Subset.trans one.kept two.kept
  fresh := by
    intro id known
    rcases two.fresh id known with before | new
    · exact one.fresh id before
    · exact .inr new

theorem Collects.mono {New Other : ValueId → Prop} (weaker : ∀ id, New id → Other id)
    {first second : Emission} (collects : Collects New first second) : Collects Other first second :=
  ⟨collects.kept, fun id known => (collects.fresh id known).imp_right (weaker id)⟩

/-- Remembering one more value with the property. -/
theorem Collects.cons {New : ValueId → Prop} {first second : Emission}
    (collects : Collects New first second) {id : ValueId} {nodeId : NodeId} (new : New id)
    (nodes : Array Node) : Collects New first ⟨nodes, (id, nodeId) :: second.memo⟩ where
  kept := List.subset_cons_of_subset _ collects.kept
  fresh := List.forall_mem_cons.2 ⟨.inr new, collects.fresh⟩

/-- What was not remembered and lacks the property is not remembered. -/
theorem Collects.not_known {New : ValueId → Prop} {first second : Emission}
    (collects : Collects New first second) {id : ValueId} (unknown : id ∉ first.known)
    (old : ¬ New id) : id ∉ second.known :=
  fun known => (collects.fresh id known).elim unknown old

/-- The kind of node that is chosen for a value is not chosen for a pass-through merge. -/
theorem solid_of_kindOf {id : ValueId} {value : Value} {kind : NodeKind}
    (chosen : kindOf region statement dims id value = .ok kind) : value.kind.isForward = false := by
  cases valueKind : value.kind with
  | forward text =>
    simp only [kindOf, valueKind] at chosen
    cases chosen
  | _ => rfl

/-- Emitting a value keeps the tally and remembers a node for it; what it remembers besides is led
    to by the value and is not on the path. -/
theorem tallied_emitBelow (sound : region.Sound) {depth : Nat} {path : List ValueId} {id : ValueId}
    {nodeId : NodeId} (tallied : Tallied region start emission)
    (ran : (emitBelow region statement dims depth path id).run emission = .ok (nodeId, after)) :
    Tallied region start after ∧
      Collects (fun other => Reaches region.arena.args id other ∧ other ∉ path) emission after ∧
      (id, nodeId) ∈ after.memo := by
  induction depth generalizing path id nodeId emission after with
  | zero => exact False.elim (run_throw_eq_ok.1 ran)
  | succ depth ih =>
    rcases run_emitBelow_succ ran with ⟨known, rfl⟩ | ⟨value, found, unknown, offPath,
      ⟨text, passed, middle, kind, args, emitted, rfl⟩ |
      ⟨kind, inputs, middle, chosen, emitted, rfl, rfl⟩⟩
    · obtain ⟨before, later, split, _⟩ := List.lookup_eq_some_iff.1 known
      exact ⟨tallied, .refl after, by simp [split]⟩
    · -- below the value, the value itself is on the path, so it has no node yet when it gets one
      obtain ⟨talliedMiddle, collects, remembered⟩ := ih tallied emitted
      have successor : passed ∈ region.arena.args id := by simp [Arena.args_of_get? found, args]
      have fresh : id ∉ middle.known :=
        collects.not_known (Emission.lookup_eq_none unknown) fun new => new.2 List.mem_cons_self
      have forward : value.kind.isForward = true := by rw [kind]; rfl
      refine ⟨talliedMiddle.pass found forward args fresh remembered, ?_, List.mem_cons_self⟩
      refine (collects.mono ?_).cons ⟨.refl, offPath⟩ _
      exact fun other ⟨reaches, apart⟩ =>
        ⟨.head successor reaches, fun visited => apart (List.mem_cons_of_mem id visited)⟩
    · obtain ⟨talliedMiddle, collects, aligned⟩ := run_mapM_ok (Tallied region start)
        (Collects fun other => Reaches region.arena.args id other ∧ other ∉ id :: path)
        (fun emission operand input => (operand, input) ∈ emission.memo) Collects.refl Collects.trans
        (fun collects remembered => collects.kept remembered)
        (fun operand member {_ _ _} before stepped => by
          obtain ⟨kept, brings, remembered⟩ := ih before stepped
          have successor : operand ∈ region.arena.args id := by
            rw [Arena.args_of_get? found]
            exact Value.mem_args_of_mem_operands member
          refine ⟨kept, brings.mono ?_, remembered⟩
          exact fun other ⟨reaches, apart⟩ => ⟨.head successor reaches, apart⟩)
        tallied emitted
      have fresh : id ∉ middle.known :=
        collects.not_known (Emission.lookup_eq_none unknown) fun new => new.2 List.mem_cons_self
      rw [sound.operands_eq found] at aligned
      refine ⟨talliedMiddle.add found (solid_of_kindOf chosen) fresh aligned, ?_,
        List.mem_cons_self⟩
      refine (collects.mono ?_).cons ⟨.refl, offPath⟩ _
      exact fun other ⟨reaches, apart⟩ =>
        ⟨reaches, fun visited => apart (List.mem_cons_of_mem id visited)⟩

/-! ### Emission of accesses -/

/-- Between two emissions, a value and all that it leads to become known, and nothing else. -/
def Learns (region : Region) (root : ValueId) (first second : Emission) : Prop :=
  ∀ id, id ∈ second.known ↔ id ∈ first.known ∨ Reaches region.arena.args root id

/-- Emitting a read keeps the tally and makes the read known. -/
theorem tallied_emitRead (sound : region.Sound) {entry : String × Region.Access}
    (member : entry ∈ statement.reads region.arena) (tallied : Tallied region start emission)
    (fresh : entry.2.value ∉ emission.known)
    (ran : (emitRead region entry.2).run emission = .ok ((), after)) :
    Tallied region start after ∧ Learns region entry.2.value emission after := by
  obtain ⟨value, array, text, incoming, found, kind⟩ := Region.Statement.read_kind member
  obtain ⟨_, _, held, _, rfl⟩ := run_emitRead_cases ran
  cases found.symm.trans held
  have noArgs : value.args = [] := by
    rw [← sound.operands_eq found]
    exact Value.operands_of_atom (by rw [kind]; rfl)
  refine ⟨tallied.add found (by rw [kind]; rfl) fresh (noArgs ▸ .nil), ?_⟩
  intro id
  rw [Reaches, Relation.ReflTransGen.cases_head_iff, Arena.args_of_get? found, noArgs]
  simp [Emission.known_add, eq_comm, or_comm]

/-- Emitting a write keeps the tally and makes known the write and what it leads to. -/
theorem tallied_emitWrite (sound : region.Sound) (declared : statement ∈ region.statements.values)
    {entry : String × Region.Access} (member : entry ∈ statement.writes region.arena)
    (tallied : Tallied region start emission) (fresh : entry.2.value ∉ emission.known)
    (ran : (emitWrite region statement dims entry.1 entry.2).run emission = .ok ((), after)) :
    Tallied region start after ∧ Learns region entry.2.value emission after := by
  obtain ⟨value, array, text, incoming, found, kind, _⟩ := sound.write_kind declared member
  obtain ⟨_, stored, input, middle, _, _, held, args, emitted, _, rfl⟩ := run_emitWrite_cases ran
  cases found.symm.trans held
  obtain ⟨talliedMiddle, collects, remembered⟩ := tallied_emitBelow sound tallied emitted
  -- what is stored leads to no write, so the write has no node before it gets one
  have isStored : stored ∈ region.arena.args entry.2.value := by
    simp [Arena.args_of_get? found, args]
  have unreached := sound.not_reaches_write declared member isStored
  have unknown : entry.2.value ∉ middle.known :=
    collects.not_known fresh fun new => unreached new.1
  have aligned : List.Forall₂ (fun arg input => (arg, input) ∈ middle.memo) value.args [input] := by
    rw [args]
    exact .cons remembered .nil
  refine ⟨talliedMiddle.add found (by rw [kind]; rfl) unknown aligned, ?_⟩
  intro id
  have whole : id ∈ middle.known ↔ id ∈ emission.known ∨ Reaches region.arena.args stored id := by
    constructor
    · exact fun known => (collects.fresh id known).imp_right And.left
    · intro known
      rcases known with before | reaches
      · obtain ⟨pair, inside, rfl⟩ := List.mem_map.1 before
        exact Emission.mem_known (collects.kept inside)
      · exact talliedMiddle.known_of_reaches (Emission.mem_known remembered) reaches
  have led : Reaches region.arena.args entry.2.value id ↔
      entry.2.value = id ∨ Reaches region.arena.args stored id := by
    rw [Reaches, Relation.ReflTransGen.cases_head_iff, Arena.args_of_get? found, args]
    simp
  rw [Emission.known_add, List.mem_cons, whole, led, eq_comm, or_left_comm]

/-- Emitting accesses one after the other keeps the tally and makes known what they lead to, if none
    leads to a later one. -/
theorem tallied_forM {entries : List (String × Region.Access)}
    {step : String × Region.Access → Emitting Unit}
    (each : ∀ entry ∈ entries, ∀ {before after}, Tallied region start before →
      entry.2.value ∉ before.known → (step entry).run before = .ok ((), after) →
        Tallied region start after ∧ Learns region entry.2.value before after)
    (apart : entries.Pairwise fun first second =>
      ¬ Reaches region.arena.args first.2.value second.2.value)
    (fresh : ∀ entry ∈ entries, entry.2.value ∉ emission.known)
    (tallied : Tallied region start emission)
    (ran : (entries.forM step).run emission = .ok ((), after)) :
    Tallied region start after ∧ ∀ id, id ∈ after.known ↔ id ∈ emission.known ∨
      ∃ entry ∈ entries, Reaches region.arena.args entry.2.value id := by
  induction entries generalizing emission with
  | nil =>
    cases run_forM_nil.1 ran
    exact ⟨tallied, by simp⟩
  | cons entry entries ih =>
    obtain ⟨middle, stepped, rest⟩ := run_forM_cons.1 ran
    obtain ⟨talliedMiddle, learns⟩ :=
      each entry List.mem_cons_self tallied (fresh entry List.mem_cons_self) stepped
    obtain ⟨first, others⟩ := List.pairwise_cons.1 apart
    have freshMiddle : ∀ other ∈ entries, other.2.value ∉ middle.known := by
      intro other later known
      rcases (learns other.2.value).1 known with before | reaches
      · exact fresh other (List.mem_cons_of_mem entry later) before
      · exact first other later reaches
    obtain ⟨talliedAfter, learnsRest⟩ := ih
      (fun other later => each other (List.mem_cons_of_mem entry later)) others freshMiddle
      talliedMiddle rest
    refine ⟨talliedAfter, fun id => ?_⟩
    rw [learnsRest id, learns id, or_assoc, List.exists_mem_cons_iff]

/-! ### The nodes of a statement -/

/-- No two accesses of a statement share a value. -/
theorem pairwise_accesses (sound : region.Sound) (declared : statement ∈ region.statements.values) :
    statement.accesses.entries.Pairwise fun first second => first.2.value ≠ second.2.value := by
  have values := (List.nodup_flatMap.1 sound.consistent.distinct).1 statement declared
  rw [Table.values, List.map_map] at values
  exact List.pairwise_map.1 values

/-- A read leads to nothing else. -/
theorem eq_of_reaches_read (sound : region.Sound) {entry : String × Region.Access}
    (member : entry ∈ statement.reads region.arena) {id : ValueId}
    (reaches : Reaches region.arena.args entry.2.value id) : entry.2.value = id := by
  obtain ⟨value, array, text, incoming, found, kind⟩ := Region.Statement.read_kind member
  have atom : value.kind.isComposite = false := by rw [kind]; rfl
  rw [Reaches, Relation.ReflTransGen.cases_head_iff, Arena.args_of_get? found,
    ← sound.operands_eq found, Value.operands_of_atom atom] at reaches
  simpa using reaches

/-- What is emitted for a statement keeps the tally, and makes known what the accesses of the
    statement lead to. -/
theorem tallied_emitStatement (sound : region.Sound)
    (declared : statement ∈ region.statements.values) {nodes : Array Node}
    (ran : (emitStatement region statement dims).run ⟨nodes, []⟩ = .ok ((), after)) :
    Tallied region nodes.size after ∧ ∀ id, id ∈ after.known ↔
      (∃ entry ∈ statement.reads region.arena, Reaches region.arena.args entry.2.value id) ∨
        ∃ entry ∈ statement.writes region.arena, Reaches region.arena.args entry.2.value id := by
  have nothing : Tallied region nodes.size ⟨nodes, []⟩ := by
    refine ⟨Nat.le_refl _, List.nodup_nil, by simp, ?_, ?_, by simp [Emission.known]⟩
    · intro place node beyond found
      exact absurd (Array.getElem?_eq_some_iff.1 found).1 (Nat.not_lt_of_le beyond)
    · intro place node beyond found
      exact absurd (Array.getElem?_eq_some_iff.1 found).1 (Nat.not_lt_of_le beyond)
  obtain ⟨_, middle, reads, writes⟩ := run_bind_eq_ok.1 ran
  have distinct := pairwise_accesses sound declared
  have readsApart : (statement.reads region.arena).Pairwise fun first second =>
      ¬ Reaches region.arena.args first.2.value second.2.value :=
    (distinct.filter _).imp_of_mem fun one _ apart reaches =>
      apart (eq_of_reaches_read sound one reaches)
  have writesApart : (statement.writes region.arena).Pairwise fun first second =>
      ¬ Reaches region.arena.args first.2.value second.2.value :=
    (distinct.filter _).imp_of_mem fun _ two apart reaches => by
      rcases Relation.ReflTransGen.cases_head_iff.1 reaches with same | ⟨_, isArg, rest⟩
      · exact apart same
      · exact sound.not_reaches_write declared two isArg rest
  obtain ⟨talliedReads, learnsReads⟩ := tallied_forM
    (fun entry member {_ _} before fresh stepped => tallied_emitRead sound member before fresh stepped)
    readsApart (fun _ _ known => by cases known) nothing reads
  have fresh : ∀ entry ∈ statement.writes region.arena, entry.2.value ∉ middle.known := by
    intro entry member known
    rcases (learnsReads entry.2.value).1 known with before | ⟨other, listed, reaches⟩
    · cases before
    · obtain ⟨_, _, _, _, found, kind⟩ := Region.Statement.read_kind listed
      obtain ⟨_, _, _, _, held, otherKind, _⟩ := sound.write_kind declared member
      rw [eq_of_reaches_read sound listed reaches, held] at found
      cases found
      rw [kind] at otherKind
      cases otherKind
  obtain ⟨talliedAfter, learnsWrites⟩ := tallied_forM
    (fun entry member {_ _} before fresh stepped =>
      tallied_emitWrite sound declared member before fresh stepped)
    writesApart fresh talliedReads writes
  refine ⟨talliedAfter, fun id => ?_⟩
  rw [learnsWrites id, learnsReads id]
  simp [Emission.known]

/-- The values that have a node in the scope of a statement. -/
inductive HasNode (region : Region) (statement : Region.Statement) : ValueId → Prop where
  /-- A read of the statement. -/
  | read {entry : String × Region.Access} (member : entry ∈ statement.reads region.arena) :
      HasNode region statement entry.2.value
  /-- What a write stores, and what that leads to, unless it is a pass-through merge. -/
  | stored {entry : String × Region.Access} {stored id : ValueId} {value : Value}
      (member : entry ∈ statement.writes region.arena)
      (isStored : stored ∈ region.arena.args entry.2.value)
      (reaches : Reaches region.arena.args stored id) (found : region.arena.get? id = some value)
      (solid : value.kind.isForward = false) : HasNode region statement id
  /-- A write of the statement. -/
  | write {entry : String × Region.Access} (member : entry ∈ statement.writes region.arena) :
      HasNode region statement entry.2.value

/-- The values with a node are those that the accesses of the statement lead to, pass-through merges
    apart. -/
theorem hasNode_iff (sound : region.Sound) (declared : statement ∈ region.statements.values)
    {id : ValueId} :
    HasNode region statement id ↔
      (∃ value, region.arena.get? id = some value ∧ value.kind.isForward = false) ∧
      ((∃ entry ∈ statement.reads region.arena, Reaches region.arena.args entry.2.value id) ∨
        ∃ entry ∈ statement.writes region.arena, Reaches region.arena.args entry.2.value id) := by
  constructor
  · intro has
    cases has with
    | read member =>
      obtain ⟨value, _, _, _, found, kind⟩ := Region.Statement.read_kind member
      exact ⟨⟨value, found, by rw [kind]; rfl⟩, .inl ⟨_, member, .refl⟩⟩
    | stored member isStored reaches found solid =>
      exact ⟨⟨_, found, solid⟩, .inr ⟨_, member, .head isStored reaches⟩⟩
    | write member =>
      obtain ⟨value, _, _, _, found, kind, _⟩ := sound.write_kind declared member
      exact ⟨⟨value, found, by rw [kind]; rfl⟩, .inr ⟨_, member, .refl⟩⟩
  · intro led
    obtain ⟨⟨value, found, solid⟩, ⟨entry, member, reaches⟩ | ⟨entry, member, reaches⟩⟩ := led
    · rw [← eq_of_reaches_read sound member reaches]
      exact .read member
    · rcases Relation.ReflTransGen.cases_head_iff.1 reaches with rfl | ⟨stored, isStored, rest⟩
      · exact .write member
      · exact .stored member isStored rest found solid

/-- What holds of the places of the nodes of a statement: no two of the nodes stand for the same
    value, they stand for exactly the values that have a node, and the inputs of a node are, in
    order, the nodes of the values to which the arguments of its own value pass. -/
structure Tally (region : Region) (nodes : Array Node) (statement : Region.Statement)
    (places : List NodeId) : Prop where
  distinct : ∀ first ∈ places, ∀ second ∈ places, ∀ {one two : Node},
    nodes[first.index]? = some one → nodes[second.index]? = some two → one.origin = two.origin →
      first = second
  origins : ∀ id, HasNode region statement id ↔
    ∃ place ∈ places, ∃ node, nodes[place.index]? = some node ∧ node.origin = id
  inputs : ∀ place ∈ places, ∀ {node : Node}, nodes[place.index]? = some node →
    List.Forall₂ (fun arg input => input ∈ places ∧ ∃ source, nodes[input.index]? = some source ∧
      region.arena.PassesTo arg source.origin) (region.arena.args node.origin) node.inputs

/-- The nodes that are emitted for a statement are those of the values that have one. -/
theorem tally_emitStatement (sound : region.Sound)
    (declared : statement ∈ region.statements.values) {nodes : Array Node}
    (ran : (emitStatement region statement dims).run ⟨nodes, []⟩ = .ok ((), after)) :
    Tally region after.nodes statement (placesBetween nodes.size after.nodes.size) := by
  obtain ⟨tallied, learns⟩ := tallied_emitStatement sound declared ran
  constructor
  · intro first one second two firstNode secondNode firstHeld secondHeld same
    have firstListed := tallied.listed (mem_placesBetween.1 one).1 firstHeld
    have secondListed := tallied.listed (mem_placesBetween.1 two).1 secondHeld
    rw [same] at firstListed
    exact congrArg Prod.snd (List.inj_on_of_nodup_map tallied.distinct firstListed secondListed rfl)
  · intro id
    rw [hasNode_iff sound declared, ← learns id]
    constructor
    · intro known
      obtain ⟨⟨value, found, solid⟩, member⟩ := known
      obtain ⟨entry, remembered, rfl⟩ := List.mem_map.1 member
      obtain ⟨beyond, node, held, passes⟩ := tallied.placed entry remembered
      refine ⟨entry.2, mem_placesBetween.2 ⟨beyond, ?_⟩, node, held, passes.eq_of_solid found solid⟩
      exact (Array.getElem?_eq_some_iff.1 held).1
    · intro stands
      obtain ⟨place, member, node, held, rfl⟩ := stands
      have listed := tallied.listed (mem_placesBetween.1 member).1 held
      obtain ⟨_, other, same, passes⟩ := tallied.placed _ listed
      cases held.symm.trans same
      exact ⟨passes.solid, Emission.mem_known listed⟩
  · intro place member node held
    refine (tallied.inputs (mem_placesBetween.1 member).1 held).imp fun arg input remembered => ?_
    obtain ⟨beyond, source, found, passes⟩ := tallied.placed _ remembered
    exact ⟨mem_placesBetween.2 ⟨beyond, (Array.getElem?_eq_some_iff.1 found).1⟩, source, found, passes⟩

/-- The tally stays when nodes are added behind its places. -/
theorem Tally.grow {first second : Array Node} (grown : Grown first second) {places : List NodeId}
    (placed : ∀ id ∈ places, id.index < first.size) (tally : Tally region first statement places) :
    Tally region second statement places := by
  have before : ∀ place ∈ places, ∀ {node : Node}, second[place.index]? = some node →
      first[place.index]? = some node := by
    intro place member node found
    have held := Array.getElem?_eq_getElem (placed place member)
    exact held.trans ((grown held).symm.trans found)
  constructor
  · intro one oneListed two twoListed _ _ oneFound twoFound
    exact tally.distinct one oneListed two twoListed (before one oneListed oneFound)
      (before two twoListed twoFound)
  · intro id
    rw [tally.origins id]
    constructor
    · intro stands
      obtain ⟨place, member, node, found, origin⟩ := stands
      exact ⟨place, member, node, grown found, origin⟩
    · intro stands
      obtain ⟨place, member, node, found, origin⟩ := stands
      exact ⟨place, member, node, before place member found, origin⟩
  · intro place member node found
    refine (tally.inputs place member (before place member found)).imp ?_
    intro arg input stands
    obtain ⟨inside, source, held, passes⟩ := stands
    exact ⟨inside, source, grown held, passes⟩

end Graph

end RegionFlow
