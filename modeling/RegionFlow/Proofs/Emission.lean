/-
Module: RegionFlow.Proofs.Emission
Purpose: What is emitted for a statement. Nodes are only added, every node comes after its inputs, and every
  value that has a node, writes apart, is computed by it. Emitting the value that a write stores adds no
  write; so the writes among the new nodes are those of the statement, one for each, in order.
Main exports: Graph.Formed, Graph.Formed.exists_unfolds, Graph.run_emitBelow_succ, Graph.run_emitBelow_ok,
  Graph.run_emitRead_cases, Graph.run_emitWrite_cases, Graph.WritesTo, Graph.run_emitStatement_ok
-/
import RegionFlow.Proofs.Comparison
import RegionFlow.Proofs.Propagation

namespace RegionFlow

/-- How many inputs nodes of a kind take, where that matters. -/
def NodeKind.Takes : NodeKind → Nat → Prop
  | write _ _, count => count = 1
  | select, count => count = 3
  | _, _ => True

namespace Graph

open Sequencing

variable {region : Region} {statement : Region.Statement} {dims : List String}

/-! ### Nodes that are added -/

/-- The second array holds the nodes of the first at their places. -/
def Grown (first second : Array Node) : Prop :=
  ∀ ⦃place : Nat⦄ ⦃node : Node⦄, first[place]? = some node → second[place]? = some node

theorem Grown.refl (nodes : Array Node) : Grown nodes nodes := fun _ _ found => found

theorem Grown.trans {first second third : Array Node} (one : Grown first second)
    (two : Grown second third) : Grown first third := fun _ _ found => two (one found)

theorem grown_push (nodes : Array Node) (node : Node) : Grown nodes (nodes.push node) := by
  intro place other found
  have inside : place < nodes.size := (Array.getElem?_eq_some_iff.1 found).1
  rw [Array.getElem?_push, if_neg (Nat.ne_of_lt inside), found]

theorem Grown.size_le {first second : Array Node} (grown : Grown first second) :
    first.size ≤ second.size := by
  by_contra shrinks
  have inside : second.size < first.size := Nat.lt_of_not_le shrinks
  have found := grown (Array.getElem?_eq_getElem inside)
  exact Nat.lt_irrefl _ (Array.getElem?_eq_some_iff.1 found).1

/-- The node at the place that a new node takes. -/
theorem getElem?_push_size (nodes : Array Node) (node : Node) :
    (nodes.push node)[nodes.size]? = some node := by
  rw [Array.getElem?_push, if_pos rfl]

/-- After a node is added, a node is the new one or was there before. -/
theorem push_cases {nodes : Array Node} {node other : Node} {place : Nat}
    (found : (nodes.push node)[place]? = some other) :
    (place = nodes.size ∧ other = node) ∨ nodes[place]? = some other := by
  rw [Array.getElem?_push] at found
  split at found
  · rename_i same
    exact .inl ⟨same, (Option.some.inj found).symm⟩
  · exact .inr found

/-- A node that computes a value computes it when nodes are added. -/
theorem Computes.grow {first second : Array Node} (grown : Grown first second) {id : ValueId}
    {nodeId : NodeId} (computes : Computes region statement dims first id nodeId) :
    Computes region statement dims second id nodeId := by
  induction computes with
  | passedOn found kind args _ ih => exact .passedOn found kind args ih
  | made found placed type kind aligned _ ih =>
    exact .made found (grown placed) type kind aligned ih

/-- Every node comes after its inputs and takes as many as its kind asks for. -/
structure Formed (nodes : Array Node) : Prop where
  earlier : ∀ {place : Nat} {node : Node}, nodes[place]? = some node →
    ∀ input ∈ node.inputs, input.index < place
  takes : ∀ {place : Nat} {node : Node}, nodes[place]? = some node →
    node.kind.Takes node.inputs.length

theorem formed_empty : Formed #[] :=
  ⟨fun found => (by simp at found), fun found => (by simp at found)⟩

theorem Formed.push {nodes : Array Node} (formed : Formed nodes) {node : Node}
    (earlier : ∀ input ∈ node.inputs, input.index < nodes.size)
    (takes : node.kind.Takes node.inputs.length) : Formed (nodes.push node) where
  earlier := by
    intro place other found
    rcases push_cases found with ⟨rfl, rfl⟩ | old
    · exact earlier
    · exact formed.earlier old
  takes := by
    intro place other found
    rcases push_cases found with ⟨_, rfl⟩ | old
    · exact takes
    · exact formed.takes old

/-- A node that takes as many inputs as its kind asks for makes something of them. -/
theorem exists_assemble_of_takes {node : Node} {exprs : List Expr}
    (takes : node.kind.Takes exprs.length) : ∃ expr, node.assemble? exprs = some expr := by
  unfold Node.assemble?
  cases kind : node.kind with
  | write array subscript =>
    rw [kind] at takes
    obtain ⟨stored, rfl⟩ := List.length_eq_one_iff.1 takes
    exact ⟨stored, rfl⟩
  | select =>
    rw [kind] at takes
    obtain ⟨condition, ifTrue, ifFalse, rfl⟩ := List.length_eq_three.1 takes
    exact ⟨_, rfl⟩
  | _ => exact ⟨_, rfl⟩

/-- Where every node comes after its inputs, every node unfolds. -/
theorem Formed.exists_unfolds {nodes : Array Node} (formed : Formed nodes) {id : NodeId}
    (inside : id.index < nodes.size) : ∃ expr, Unfolds nodes id expr := by
  obtain ⟨place⟩ := id
  induction place using Nat.strongRecOn with
  | ind place ih =>
    have placed : nodes[place]? = some nodes[place] := Array.getElem?_eq_getElem inside
    have unfolded : ∀ input ∈ nodes[place].inputs, ∃ expr, Unfolds nodes input expr := by
      intro input member
      have earlier := formed.earlier placed input member
      exact ih input.index earlier (Nat.lt_trans earlier inside)
    obtain ⟨exprs, unfolds⟩ := exists_partners unfolded
    obtain ⟨expr, made⟩ := exists_assemble_of_takes
      (unfolds.length_eq ▸ formed.takes placed)
    exact ⟨expr, unfolds_iff.2 ⟨_, exprs, placed, unfolds, made⟩⟩

/-! ### Places of writes -/

/-- Whether a place holds a node that writes. -/
def isWriteIn (nodes : Array Node) (id : NodeId) : Bool :=
  (nodes[id.index]?.map fun node => node.kind.isWrite).getD false

theorem isWriteIn_of_grown {first second : Array Node} (grown : Grown first second) {id : NodeId}
    (inside : id.index < first.size) : isWriteIn second id = isWriteIn first id := by
  have found := Array.getElem?_eq_getElem inside
  rw [isWriteIn, isWriteIn, found, grown found]

theorem mem_placesBetween {start stop : Nat} {id : NodeId} :
    id ∈ placesBetween start stop ↔ start ≤ id.index ∧ id.index < stop := by
  obtain ⟨place⟩ := id
  simp only [placesBetween, List.mem_map, List.mem_range'_1, NodeId.mk.injEq, exists_eq_right]
  omega

theorem placesBetween_succ {start stop : Nat} (within : start ≤ stop) :
    placesBetween start (stop + 1) = placesBetween start stop ++ [⟨stop⟩] := by
  have last : start + (stop - start) = stop := by omega
  rw [placesBetween, placesBetween, Nat.succ_sub within, List.range'_concat, List.map_append,
    Nat.one_mul, last, List.map_singleton]

/-- The places from `start` on that hold a write. -/
def writePlaces (start : Nat) (nodes : Array Node) : List NodeId :=
  (placesBetween start nodes.size).filter (isWriteIn nodes)

/-- A new node brings its place if it writes. -/
theorem writePlaces_push {start : Nat} {nodes : Array Node} (within : start ≤ nodes.size)
    (node : Node) :
    writePlaces start (nodes.push node) =
      writePlaces start nodes ++ if node.kind.isWrite then [⟨nodes.size⟩] else [] := by
  have before : (placesBetween start nodes.size).filter (isWriteIn (nodes.push node)) =
      writePlaces start nodes :=
    List.filter_congr fun id member =>
      isWriteIn_of_grown (grown_push nodes node) (mem_placesBetween.1 member).2
  have last : isWriteIn (nodes.push node) ⟨nodes.size⟩ = node.kind.isWrite := by
    rw [isWriteIn, getElem?_push_size]
    rfl
  rw [writePlaces, Array.size_push, placesBetween_succ within, List.filter_append, before,
    List.filter_singleton, last, Bool.cond_eq_ite]

/-! ### Emission of values -/

/-- The second emission has more nodes, but no more writes. -/
structure Emits (first second : Emission) : Prop where
  grown : Grown first.nodes second.nodes
  writes : ∀ {start}, start ≤ first.nodes.size →
    writePlaces start second.nodes = writePlaces start first.nodes

theorem Emits.refl (emission : Emission) : Emits emission emission :=
  ⟨.refl emission.nodes, fun _ => rfl⟩

theorem Emits.trans {first second third : Emission} (one : Emits first second)
    (two : Emits second third) : Emits first third :=
  ⟨one.grown.trans two.grown, fun within =>
    (two.writes (Nat.le_trans within one.grown.size_le)).trans (one.writes within)⟩

/-- A place holds a value that is no write. -/
def NoWrite (region : Region) (id : ValueId) : Prop :=
  ∃ value, region.arena.get? id = some value ∧ value.kind.isWrite = false

/-- What has been emitted is well formed, and every value that has a node is computed by it, unless the
    value is a write. -/
structure Faithful (region : Region) (statement : Region.Statement) (dims : List String)
    (emission : Emission) : Prop where
  formed : Formed emission.nodes
  memo : ∀ entry ∈ emission.memo, NoWrite region entry.1 →
    Computes region statement dims emission.nodes entry.1 entry.2

/-- The state after a node is added for a value. -/
def Emission.add (emission : Emission) (origin : ValueId) (type : ScalarType) (kind : NodeKind)
    (inputs : List NodeId) : Emission :=
  ⟨emission.nodes.push ⟨kind, type, inputs, origin⟩,
    (origin, ⟨emission.nodes.size⟩) :: emission.memo⟩

theorem run_emitNode {origin : ValueId} {type : ScalarType} {kind : NodeKind}
    {inputs : List NodeId} {emission : Emission} {result : NodeId × Emission} :
    (emitNode origin type kind inputs).run emission = .ok result ↔
      (⟨emission.nodes.size⟩, emission.add origin type kind inputs) = result := by
  change Except.ok _ = Except.ok result ↔ _
  rw [Except.ok.injEq]
  rfl

/-- Adding a node that writes nothing brings no write. -/
theorem emits_add {emission : Emission} {origin : ValueId} {type : ScalarType} {kind : NodeKind}
    {inputs : List NodeId} (noWrite : kind.isWrite = false) :
    Emits emission (emission.add origin type kind inputs) := by
  refine ⟨grown_push emission.nodes _, fun within => ?_⟩
  rw [Emission.add, writePlaces_push within, noWrite]
  exact List.append_nil _

/-- Adding a node that comes after its inputs keeps what has been emitted faithful, if the node computes its
    value or the value is a write. -/
theorem Faithful.add {emission : Emission} {origin : ValueId} {type : ScalarType} {kind : NodeKind}
    {inputs : List NodeId} (faithful : Faithful region statement dims emission)
    (earlier : ∀ input ∈ inputs, input.index < emission.nodes.size)
    (takes : kind.Takes inputs.length)
    (computes : NoWrite region origin → Computes region statement dims
      (emission.add origin type kind inputs).nodes origin ⟨emission.nodes.size⟩) :
    Faithful region statement dims (emission.add origin type kind inputs) := by
  refine ⟨faithful.formed.push earlier takes, List.forall_mem_cons.2 ⟨computes, ?_⟩⟩
  intro entry member noWrite
  exact (faithful.memo entry member noWrite).grow (grown_push emission.nodes _)

/-- The kind of node that is chosen for a value agrees with the value. -/
theorem kindAgrees_of_kindOf {id : ValueId} {value : Value} {kind : NodeKind}
    (found : region.arena.get? id = some value)
    (chosen : kindOf region statement dims id value = .ok kind) :
    kindAgrees region statement dims id value kind = true := by
  unfold kindOf at chosen
  split at chosen
  · rename_i literal valueKind
    cases chosen
    simp [kindAgrees, valueKind]
  · rename_i name valueKind
    cases chosen
    simp [kindAgrees, valueKind]
  · rename_i text valueKind
    split at chosen
    · rename_i dim counted
      cases chosen
      simp [kindAgrees, valueKind, counted]
    · cases chosen
  · rename_i array text incoming valueKind
    split at chosen
    · rename_i access owned
      simp only [readKind, Region.accessArray?_eq_some found valueKind] at chosen
      cases chosen
      simp [kindAgrees, valueKind, readSubscript?, owned]
    · cases chosen
  · rename_i opcode text valueKind
    cases chosen
    simp [kindAgrees, valueKind]
  · rename_i text valueKind
    split at chosen
    · cases chosen
      simp [kindAgrees, valueKind]
    · cases chosen
  · cases chosen
  · cases chosen
  · cases chosen

/-- The kind of node that is chosen for a value takes as many inputs as the value has operands. -/
theorem takes_of_kindOf {id : ValueId} {value : Value} {kind : NodeKind}
    (chosen : kindOf region statement dims id value = .ok kind) :
    kind.Takes value.operands.length ∧ kind.isWrite = false := by
  unfold kindOf at chosen
  split at chosen
  case h_6 =>
    rename_i text valueKind
    split at chosen
    · rename_i three
      cases chosen
      have composite : value.kind.isComposite = true := by rw [valueKind]; rfl
      exact ⟨by rw [Value.operands_of_composite composite]; exact three, rfl⟩
    · cases chosen
  case h_3 =>
    split at chosen
    · cases chosen
      exact ⟨trivial, rfl⟩
    · cases chosen
  case h_4 =>
    split at chosen
    · unfold readKind at chosen
      split at chosen
      · cases chosen
        exact ⟨trivial, rfl⟩
      · cases chosen
    · cases chosen
  all_goals cases chosen
  all_goals exact ⟨trivial, rfl⟩

theorem args_of_passedOn {value : Value} {passed : ValueId} (chosen : passedOn value = .ok passed) :
    value.args = [passed] := by
  unfold passedOn at chosen
  split at chosen
  · rename_i args
    cases chosen
    exact args
  · cases chosen

/-- One step of emission: the node that a value has already; or, for a value that has none and is
    not on the path, the node of the value that it passes on, or a new node whose inputs are the
    nodes of its operands. -/
theorem run_emitBelow_succ {depth : Nat} {path : List ValueId} {id : ValueId} {nodeId : NodeId}
    {emission after : Emission}
    (ran : (emitBelow region statement dims (depth + 1) path id).run emission
      = .ok (nodeId, after)) :
    (emission.memo.lookup id = some nodeId ∧ after = emission) ∨
      ∃ value, region.arena.get? id = some value ∧ emission.memo.lookup id = none ∧ id ∉ path ∧
        ((∃ text passed middle, value.kind = .forward text ∧ value.args = [passed] ∧
            (emitBelow region statement dims depth (id :: path) passed).run emission
              = .ok (nodeId, middle) ∧
            after = { middle with memo := (id, nodeId) :: middle.memo }) ∨
          ∃ kind inputs middle, kindOf region statement dims id value = .ok kind ∧
            (value.operands.mapM (emitBelow region statement dims depth (id :: path))).run emission
              = .ok (inputs, middle) ∧
            nodeId = ⟨middle.nodes.size⟩ ∧ after = middle.add id value.type kind inputs) := by
  rw [emitBelow] at ran
  obtain ⟨_, _, got, ran⟩ := run_bind_eq_ok.1 ran
  cases got
  cases known : emission.memo.lookup id with
  | some node =>
    rw [known, run_pure_eq_ok] at ran
    cases ran
    exact .inl ⟨rfl, rfl⟩
  | none =>
    cases found : region.arena.get? id with
    | none =>
      simp only [known, found] at ran
      exact False.elim (run_throw_eq_ok.1 ran)
    | some value =>
      simp only [known, found] at ran
      split at ran
      · exact False.elim (run_throw_eq_ok.1 ran)
      · rename_i offPath
        refine .inr ⟨value, rfl, rfl, offPath, ?_⟩
        split at ran
        · rename_i text kind
          obtain ⟨passed, _, passes, ran⟩ := run_bind_eq_ok.1 ran
          obtain ⟨_, chosen, same⟩ := run_liftM_eq_ok.1 passes
          cases same
          obtain ⟨node, middle, emitted, ran⟩ := run_bind_eq_ok.1 ran
          cases ran
          exact .inl ⟨text, passed, middle, kind, args_of_passedOn chosen, emitted, rfl⟩
        · obtain ⟨kind, _, chooses, ran⟩ := run_bind_eq_ok.1 ran
          obtain ⟨_, chosen, same⟩ := run_liftM_eq_ok.1 chooses
          cases same
          obtain ⟨inputs, middle, emitted, ran⟩ := run_bind_eq_ok.1 ran
          cases run_emitNode.1 ran
          exact .inr ⟨kind, inputs, middle, chosen, emitted, rfl, rfl⟩

/-- Emitting a value that is no write keeps what has been emitted faithful, brings no write, and gives a node
    that computes the value. -/
theorem run_emitBelow_ok (sound : region.Sound) {depth : Nat} {path : List ValueId} {id : ValueId}
    {nodeId : NodeId} {emission after : Emission} (noWrite : NoWrite region id)
    (faithful : Faithful region statement dims emission)
    (ran : (emitBelow region statement dims depth path id).run emission = .ok (nodeId, after)) :
    Faithful region statement dims after ∧ Emits emission after ∧
      Computes region statement dims after.nodes id nodeId := by
  induction depth generalizing path id nodeId emission after with
  | zero => exact False.elim (run_throw_eq_ok.1 ran)
  | succ depth ih =>
    rcases run_emitBelow_succ ran with ⟨known, rfl⟩ | ⟨value, found, _, _,
      ⟨text, passed, middle, kind, args, emitted, rfl⟩ |
      ⟨kind, inputs, middle, chosen, emitted, rfl, rfl⟩⟩
    -- the value has a node, passes on another value, or gets a node after its operands
    · obtain ⟨before, later, split, _⟩ := List.lookup_eq_some_iff.1 known
      have member : (id, nodeId) ∈ after.memo := by simp [split]
      exact ⟨faithful, .refl after, faithful.memo _ member noWrite⟩
    · have passedNoWrite : NoWrite region passed := sound.args found (by simp [args])
      obtain ⟨faithfulMiddle, emits, computes⟩ := ih passedNoWrite faithful emitted
      have passes := Computes.passedOn found kind args computes
      refine ⟨⟨faithfulMiddle.formed, ?_⟩, ⟨emits.grown, emits.writes⟩, passes⟩
      exact List.forall_mem_cons.2 ⟨fun _ => passes, faithfulMiddle.memo⟩
    · obtain ⟨faithfulMiddle, emits, computes⟩ := run_mapM_ok (Faithful region statement dims) Emits
        (fun emission => Computes region statement dims emission.nodes) Emits.refl Emits.trans
        (fun emits computes => computes.grow emits.grown)
        (fun operand member {_ _ _} before stepped =>
          ih (sound.args found (Value.mem_args_of_mem_operands member)) before stepped)
        faithful emitted
      obtain ⟨takes, noWriteNode⟩ := takes_of_kindOf chosen
      have makes : Computes region statement dims
          (middle.add id value.type kind inputs).nodes id ⟨middle.nodes.size⟩ := by
        obtain ⟨aligned, each⟩ := List.forall₂_iff_zip.1 computes
        refine .made found (getElem?_push_size middle.nodes _) rfl
          (kindAgrees_of_kindOf found chosen) aligned ?_
        intro pair member
        exact (each member).grow (grown_push middle.nodes _)
      refine ⟨faithfulMiddle.add ?_ (computes.length_eq ▸ takes) fun _ => makes,
        emits.trans (emits_add noWriteNode), makes⟩
      intro input member
      obtain ⟨operand, _, computed⟩ := exists_partner computes.flip member
      exact Computes.lt_size computed

/-! ### Emission of accesses -/

/-- Emitting a read adds the node that is chosen for it. -/
theorem run_emitRead_cases {access : Region.Access} {emission after : Emission}
    (ran : (emitRead region access).run emission = .ok ((), after)) :
    ∃ value kind, region.arena.get? access.value = some value ∧
      readKind region access.value value.reference access.relation = .ok kind ∧
      after = emission.add access.value value.type kind [] := by
  cases found : region.arena.get? access.value with
  | none =>
    simp only [emitRead, found] at ran
    exact False.elim (run_throw_eq_ok.1 ran)
  | some value =>
    simp only [emitRead, found] at ran
    obtain ⟨kind, _, chooses, ran⟩ := run_bind_eq_ok.1 ran
    obtain ⟨_, chosen, same⟩ := run_liftM_eq_ok.1 chooses
    cases same
    obtain ⟨_, _, emitted, ran⟩ := run_bind_eq_ok.1 ran
    cases run_emitNode.1 emitted
    cases ran
    exact ⟨value, kind, rfl, chosen, rfl⟩

/-- Emitting a write emits the one value that it stores, and then adds the node that stores it. -/
theorem run_emitWrite_cases {key : String} {access : Region.Access} {emission after : Emission}
    (ran : (emitWrite region statement dims key access).run emission = .ok ((), after)) :
    ∃ value stored input middle array direction, region.arena.get? access.value = some value ∧
      value.args = [stored] ∧
      (emitBelow region statement dims (region.arena.size + 1) [] stored).run emission
        = .ok (input, middle) ∧
      region.accessArray? access.value = some (array, direction) ∧
      after = middle.add access.value value.type (.write array (subscriptOf access.relation))
        [input] := by
  cases found : region.arena.get? access.value with
  | none =>
    simp only [emitWrite, found] at ran
    exact False.elim (run_throw_eq_ok.1 ran)
  | some value =>
    simp only [emitWrite, found] at ran
    split at ran
    · rename_i stored args
      obtain ⟨input, middle, emitted, ran⟩ := run_bind_eq_ok.1 ran
      cases touches : region.accessArray? access.value with
      | none =>
        simp only [touches] at ran
        exact False.elim (run_throw_eq_ok.1 ran)
      | some touched =>
        simp only [touches] at ran
        obtain ⟨_, _, added, ran⟩ := run_bind_eq_ok.1 ran
        cases run_emitNode.1 added
        cases ran
        exact ⟨value, stored, input, middle, touched.1, touched.2, rfl, args, emitted, rfl, rfl⟩
    · exact False.elim (run_throw_eq_ok.1 ran)

/-- Emitting a read of the statement keeps what has been emitted faithful and brings no write. -/
theorem run_emitRead_ok (sound : region.Sound) (declared : statement ∈ region.statements.values)
    {entry : String × Region.Access} (member : entry ∈ statement.reads region.arena)
    {emission after : Emission} (faithful : Faithful region statement dims emission)
    (ran : (emitRead region entry.2).run emission = .ok ((), after)) :
    Faithful region statement dims after ∧ Emits emission after := by
  have listed := Region.Statement.access_of_reads member
  obtain ⟨value, array, text, incoming, found, kind⟩ := Region.Statement.read_kind member
  have operands : value.operands = [] := Value.operands_of_atom (by rw [kind]; rfl)
  obtain ⟨_, _, held, chosen, rfl⟩ := run_emitRead_cases ran
  cases found.symm.trans held
  simp only [readKind, Region.accessArray?_eq_some found kind] at chosen
  cases chosen
  refine ⟨faithful.add (by simp) trivial fun _ => ?_, emits_add rfl⟩
  refine .made found (getElem?_push_size emission.nodes _) rfl ?_ (by simp [operands])
    (by simp [operands])
  simp [kindAgrees, kind, readSubscript?, sound.accessOf?_eq_some declared listed]

/-- A node stands for a write of a statement: it stores to the element that the relation of the write leads
    to, and its input computes the value that the write stores. -/
def WritesTo (region : Region) (statement : Region.Statement) (dims : List String)
    (nodes : Array Node) (entry : String × Region.Access) (id : NodeId) : Prop :=
  ∃ array stored input type,
    Region.Draft.targetArray? entry.2.relation = some array ∧
    region.arena.args entry.2.value = [stored] ∧
    nodes[id.index]? =
      some ⟨.write array (subscriptOf entry.2.relation), type, [input], entry.2.value⟩ ∧
    Computes region statement dims nodes stored input

theorem WritesTo.grow {first second : Array Node} (grown : Grown first second)
    {entry : String × Region.Access} {id : NodeId}
    (writes : WritesTo region statement dims first entry id) :
    WritesTo region statement dims second entry id := by
  obtain ⟨array, stored, input, type, target, args, placed, computes⟩ := writes
  exact ⟨array, stored, input, type, target, args, grown placed, computes.grow grown⟩

/-- Emitting a write of the statement brings one write, which stands for it. -/
theorem run_emitWrite_ok (sound : region.Sound) (declared : statement ∈ region.statements.values)
    {entry : String × Region.Access} (member : entry ∈ statement.writes region.arena)
    {emission after : Emission} (faithful : Faithful region statement dims emission)
    (ran : (emitWrite region statement dims entry.1 entry.2).run emission = .ok ((), after)) :
    Faithful region statement dims after ∧ Grown emission.nodes after.nodes ∧
      ∃ id, WritesTo region statement dims after.nodes entry id ∧
        ∀ {start}, start ≤ emission.nodes.size →
          writePlaces start after.nodes = writePlaces start emission.nodes ++ [id] := by
  obtain ⟨value, array, text, incoming, found, kind, target⟩ := sound.write_kind declared member
  obtain ⟨_, stored, input, middle, _, _, held, args, emitted, touches, rfl⟩ :=
    run_emitWrite_cases ran
  cases found.symm.trans held
  cases (Region.accessArray?_eq_some found kind).symm.trans touches
  have noWrite : NoWrite region stored := sound.args found (by simp [args])
  obtain ⟨faithfulMiddle, emits, computes⟩ := run_emitBelow_ok sound noWrite faithful emitted
  have grown := grown_push middle.nodes
    ⟨.write array (subscriptOf entry.2.relation), value.type, [input], entry.2.value⟩
  refine ⟨faithfulMiddle.add ?_ rfl ?_, emits.grown.trans grown, ⟨middle.nodes.size⟩,
    ⟨array, stored, input, value.type, target, ?_, getElem?_push_size middle.nodes _,
      computes.grow grown⟩, ?_⟩
  · intro other inside
    rw [List.mem_singleton.1 inside]
    exact computes.lt_size
  · rintro ⟨other, held, apart⟩
    cases found.symm.trans held
    rw [kind] at apart
    cases apart
  · rw [Arena.args_of_get? found, args]
  · intro start within
    rw [Emission.add, writePlaces_push (Nat.le_trans within emits.grown.size_le),
      emits.writes within]
    rfl

/-- Emitting writes of the statement brings one write for each, in order. -/
theorem run_emitWrites_ok (sound : region.Sound) (declared : statement ∈ region.statements.values)
    {entries : List (String × Region.Access)}
    (members : ∀ entry ∈ entries, entry ∈ statement.writes region.arena)
    {emission after : Emission} (faithful : Faithful region statement dims emission)
    (ran : (entries.forM fun entry => emitWrite region statement dims entry.1 entry.2).run emission
      = .ok ((), after)) :
    Faithful region statement dims after ∧ Grown emission.nodes after.nodes ∧
      ∃ ids, List.Forall₂ (WritesTo region statement dims after.nodes) entries ids ∧
        ∀ {start}, start ≤ emission.nodes.size →
          writePlaces start after.nodes = writePlaces start emission.nodes ++ ids := by
  induction entries generalizing emission with
  | nil =>
    cases run_forM_nil.1 ran
    exact ⟨faithful, .refl after.nodes, [], .nil, fun _ => (List.append_nil _).symm⟩
  | cons entry entries ih =>
    obtain ⟨middle, stepped, rest⟩ := run_forM_cons.1 ran
    obtain ⟨faithfulMiddle, grownFirst, id, writes, brings⟩ :=
      run_emitWrite_ok sound declared (members entry List.mem_cons_self) faithful stepped
    obtain ⟨faithfulAfter, grownRest, ids, others, bringsRest⟩ :=
      ih (fun other later => members other (List.mem_cons_of_mem entry later)) faithfulMiddle rest
    refine ⟨faithfulAfter, grownFirst.trans grownRest, id :: ids,
      .cons (writes.grow grownRest) others, fun within => ?_⟩
    rw [bringsRest (Nat.le_trans within grownFirst.size_le), brings within, List.append_assoc]
    rfl

/-- What is emitted for a statement: nodes after their inputs, and among them one write for each write of the
    statement, in order. -/
theorem run_emitStatement_ok (sound : region.Sound)
    (declared : statement ∈ region.statements.values) {nodes : Array Node} (formed : Formed nodes)
    {after : Emission}
    (ran : (emitStatement region statement dims).run ⟨nodes, []⟩ = .ok ((), after)) :
    Formed after.nodes ∧ Grown nodes after.nodes ∧
      List.Forall₂ (WritesTo region statement dims after.nodes) (statement.writes region.arena)
        (writePlaces nodes.size after.nodes) := by
  have faithful : Faithful region statement dims ⟨nodes, []⟩ := ⟨formed, by simp⟩
  obtain ⟨_, middle, reads, writes⟩ := run_bind_eq_ok.1 ran
  obtain ⟨⟨faithfulMiddle, emits⟩, _⟩ := run_forM_ok
    (fun emission => Faithful region statement dims emission ∧ Emits ⟨nodes, []⟩ emission)
    (fun _ => True)
    (fun entry member {before after} inv stepped => by
      obtain ⟨kept, emitted⟩ := run_emitRead_ok sound declared member inv.1 stepped
      exact ⟨⟨kept, inv.2.trans emitted⟩, trivial⟩)
    ⟨faithful, .refl _⟩ reads
  obtain ⟨faithfulAfter, grown, ids, stand, brings⟩ :=
    run_emitWrites_ok sound declared (fun _ member => member) faithfulMiddle writes
  have none : writePlaces nodes.size nodes = [] := by simp [writePlaces, placesBetween]
  have places : writePlaces nodes.size after.nodes = ids := by
    rw [brings emits.grown.size_le, emits.writes (Nat.le_refl _), none, List.nil_append]
  exact ⟨faithfulAfter.formed, emits.grown.trans grown, places ▸ stand⟩

end Graph

end RegionFlow
