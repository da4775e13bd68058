/-
Module: RegionFlow.Proofs.Depiction
Purpose: What each node of a scope looks like. A node has the type of the value that it stands for;
  its kind is the one that is chosen for an operand of that value's kind, or it stores to the
  element that a write of the region leads to. Every step of emission adds such nodes only.
Main exports: Graph.Depicts, Graph.Draws, Graph.draws_emitStatement
-/
import RegionFlow.Proofs.Emission

namespace RegionFlow.Graph

open Sequencing

variable {region : Region} {statement : Region.Statement} {dims : List String}

/-- A node looks like the value that it stands for, in the scope of a statement with the given
    dimensions. -/
inductive Depicts (region : Region) (statement : Region.Statement) (dims : List String)
    (node : Node) : Prop where
  /-- The node computes what an operand is. -/
  | operand {value : Value} (found : region.arena.get? node.origin = some value)
      (type : node.type = value.type)
      (kind : kindOf region statement dims node.origin value = .ok node.kind)
  /-- The node stores to the element that a write leads to. -/
  | write {value : Value} {access : Region.Access} {array text : String} {incoming : Option String}
      (found : region.arena.get? node.origin = some value) (type : node.type = value.type)
      (writes : value.kind = .access .write array text incoming)
      (owned : region.accessOf? node.origin = some access)
      (kind : node.kind = .write array (subscriptOf access.relation))

/-- From a place on, every node looks like the value that it stands for. -/
def Draws (region : Region) (statement : Region.Statement) (dims : List String) (start : Nat)
    (emission : Emission) : Prop :=
  ∀ ⦃place : Nat⦄ ⦃node : Node⦄, start ≤ place → emission.nodes[place]? = some node →
    Depicts region statement dims node

variable {start : Nat} {emission after : Emission}

theorem Draws.add (draws : Draws region statement dims start emission) {origin : ValueId}
    {type : ScalarType} {kind : NodeKind} {inputs : List NodeId}
    (depicts : Depicts region statement dims ⟨kind, type, inputs, origin⟩) :
    Draws region statement dims start (emission.add origin type kind inputs) := by
  intro place node beyond found
  rcases push_cases found with ⟨_, rfl⟩ | old
  · exact depicts
  · exact draws beyond old

/-- Emitting a value adds nodes that look like what they stand for. -/
theorem draws_emitBelow {depth : Nat} {path : List ValueId} {id : ValueId} {nodeId : NodeId}
    (draws : Draws region statement dims start emission)
    (ran : (emitBelow region statement dims depth path id).run emission = .ok (nodeId, after)) :
    Draws region statement dims start after := by
  induction depth generalizing path id nodeId emission after with
  | zero => exact False.elim (run_throw_eq_ok.1 ran)
  | succ depth ih =>
    rcases run_emitBelow_succ ran with ⟨_, rfl⟩ | ⟨value, found, _, _,
      ⟨_, _, middle, _, _, emitted, rfl⟩ | ⟨kind, inputs, middle, chosen, emitted, _, rfl⟩⟩
    · exact draws
    · have kept := ih draws emitted
      exact kept
    · obtain ⟨drawsMiddle, _⟩ := run_mapM_ok (Draws region statement dims start)
        (fun _ _ => True) (fun _ _ _ => True) (fun _ => trivial) (fun _ _ => trivial)
        (fun _ _ => trivial)
        (fun _ _ {_ _ _} before stepped => ⟨ih before stepped, trivial, trivial⟩) draws emitted
      exact drawsMiddle.add (.operand found rfl chosen)

/-- Emitting a read of the statement adds the node that is chosen for it. -/
theorem draws_emitRead (sound : region.Sound) (declared : statement ∈ region.statements.values)
    {entry : String × Region.Access} (member : entry ∈ statement.reads region.arena)
    (draws : Draws region statement dims start emission)
    (ran : (emitRead region entry.2).run emission = .ok ((), after)) :
    Draws region statement dims start after := by
  have listed := Region.Statement.access_of_reads member
  obtain ⟨value, array, text, incoming, found, kind⟩ := Region.Statement.read_kind member
  obtain ⟨_, _, held, chosen, rfl⟩ := run_emitRead_cases ran
  cases found.symm.trans held
  apply draws.add
  apply Depicts.operand found rfl
  -- a read that is an operand gets the same node, as its access is found by its value
  simpa only [kindOf, kind, sound.accessOf?_eq_some declared listed] using chosen

/-- Emitting a write of the statement adds the nodes of what it stores and one that stores. -/
theorem draws_emitWrite (sound : region.Sound) (declared : statement ∈ region.statements.values)
    {entry : String × Region.Access} (member : entry ∈ statement.writes region.arena)
    (draws : Draws region statement dims start emission)
    (ran : (emitWrite region statement dims entry.1 entry.2).run emission = .ok ((), after)) :
    Draws region statement dims start after := by
  have listed := Region.Statement.access_of_writes member
  obtain ⟨value, array, text, incoming, found, kind, _⟩ := sound.write_kind declared member
  obtain ⟨_, _, _, _, _, _, held, _, emitted, touches, rfl⟩ := run_emitWrite_cases ran
  cases found.symm.trans held
  cases (Region.accessArray?_eq_some found kind).symm.trans touches
  apply (draws_emitBelow draws emitted).add
  exact .write found rfl kind (sound.accessOf?_eq_some declared listed) rfl

/-- The nodes that are emitted for a statement look like what they stand for. -/
theorem draws_emitStatement (sound : region.Sound)
    (declared : statement ∈ region.statements.values) {nodes : Array Node}
    (ran : (emitStatement region statement dims).run ⟨nodes, []⟩ = .ok ((), after)) :
    Draws region statement dims nodes.size after := by
  have nothing : Draws region statement dims nodes.size ⟨nodes, []⟩ := by
    intro place node beyond found
    exact absurd (Array.getElem?_eq_some_iff.1 found).1 (Nat.not_lt_of_le beyond)
  obtain ⟨_, middle, reads, writes⟩ := run_bind_eq_ok.1 ran
  obtain ⟨drawsReads, _⟩ := run_forM_ok (Draws region statement dims nodes.size) (fun _ => True)
    (fun _ member {_ _} before stepped =>
      ⟨draws_emitRead sound declared member before stepped, trivial⟩) nothing reads
  exact (run_forM_ok (Draws region statement dims nodes.size) (fun _ => True)
    (fun _ member {_ _} before stepped =>
      ⟨draws_emitWrite sound declared member before stepped, trivial⟩) drawsReads writes).1

end RegionFlow.Graph
