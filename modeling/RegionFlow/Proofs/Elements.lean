/-
Module: RegionFlow.Proofs.Elements
Purpose: Which elements the nodes of a graph touch. A node that reads or writes stands for one access of one
  statement, and touches the element that the first piece of the access relation leads to. All pieces of the
  relation start at the statement and have the rank of the array; where they lead to different elements, the
  graph keeps the first and the others are lost.
Main exports: NodeKind.touched?, Graph.Touches, Record.lift_touches
-/
import RegionFlow.Proofs.Lifting

namespace RegionFlow

open Sequencing
open Polyhedral (Relation Piece)

/-- The array and the subscripts of the element that a node reads or writes. -/
def NodeKind.touched? : NodeKind → Option (String × List String)
  | read array subscript _ => some (array, subscript)
  | write array subscript => some (array, subscript)
  | _ => none

/-- A piece leads to an element of an array. -/
def Polyhedral.Piece.LeadsTo (array : String) (subscript : List String) (piece : Piece) : Prop :=
  piece.output = some ⟨some array, subscript⟩

namespace Graph

variable {region : Region} {statement : Region.Statement} {dims : List String} {node : Node}
  {array : String} {subscript : List String}

/-- The first piece of a relation leads to the element that is taken from the relation. -/
theorem leadsTo_subscriptOf {relation : Relation}
    (target : Region.Draft.targetArray? relation = some array) :
    ∃ first rest, relation.pieces = first :: rest ∧ first.LeadsTo array (subscriptOf relation) := by
  obtain ⟨first, head, leads⟩ := Option.bind_eq_some_iff.1 target
  obtain ⟨tuple, output, name⟩ := Option.bind_eq_some_iff.1 leads
  obtain ⟨rest, pieces⟩ := List.head?_eq_some_iff.1 head
  refine ⟨first, rest, pieces, ?_⟩
  simp only [Piece.LeadsTo, subscriptOf, head, output, Option.map_some, Option.getD_some, ← name]

/-- A node that touches an element stands for an access, and the element is that of the access. -/
theorem Depicts.touches (depicts : Depicts region statement dims node)
    (touched : node.kind.touched? = some (array, subscript)) :
    ∃ access direction, region.accessOf? node.origin = some access ∧
      region.accessArray? node.origin = some (array, direction) ∧
      subscript = subscriptOf access.relation := by
  cases depicts with
  | @write value access array text incoming found type writes owned kind =>
    rw [kind] at touched
    cases touched
    exact ⟨access, .write, owned, Region.accessArray?_eq_some found writes, rfl⟩
  | @operand value found type kind =>
    -- of the kinds that operands have, only a read touches an element
    have agrees := kindAgrees_of_kindOf found kind
    unfold kindAgrees at agrees
    split at agrees
    case h_4 =>
      rename_i read text incoming emitted subscripts reference valueKind nodeKind
      simp only [Bool.and_eq_true, beq_iff_eq, readSubscript?, Option.map_eq_some_iff] at agrees
      obtain ⟨⟨rfl, _⟩, access, owned, rfl⟩ := agrees
      rw [nodeKind] at touched
      cases touched
      exact ⟨access, .read, owned, Region.accessArray?_eq_some found valueKind, rfl⟩
    case h_7 => cases agrees
    all_goals
      rename_i nodeKind
      rw [nodeKind] at touched
      cases touched

/-- A node touches an element of an array on behalf of an access of a statement. -/
structure Touches (region : Region) (node : Node) (array : String) (subscript : List String)
    (statement : Region.Statement) (access : Region.Access) : Prop where
  /-- The access is one of the statement. -/
  listed : access ∈ statement.accesses.values
  /-- The node stands for its value. -/
  value : access.value = node.origin
  /-- No other access has this value. -/
  only : ∀ other ∈ region.statements.values, ∀ twin ∈ other.accesses.values,
    twin.value = node.origin → twin = access
  /-- The first piece of its relation leads to the element. -/
  first : ∃ first rest, access.relation.pieces = first :: rest ∧ first.LeadsTo array subscript
  /-- All pieces start at the statement. -/
  starts : ∀ piece ∈ access.relation.pieces, piece.input.name = some statement.name
  /-- All pieces have the rank of the array. -/
  ranked : ∃ storage, region.storage.get? array = some storage ∧
    ∀ piece ∈ access.relation.pieces,
      (piece.output.map fun target => target.dims.length).getD 0 = storage.rank
  /-- All pieces lead to the element exactly if they agree. -/
  whole : (∀ piece ∈ access.relation.pieces, piece.LeadsTo array subscript) ↔
    ∀ one ∈ access.relation.pieces, ∀ two ∈ access.relation.pieces, one.output = two.output

end Graph

namespace Record

variable {record : Record} {options : Options} {lifted : Lifted}

/-- However a record is lifted, a node that reads or writes touches the element that the first piece of the
    relation of one access leads to, which is all that the relation leads to if its pieces agree. -/
theorem lift_touches (succeeded : record.lift options = .ok lifted) {id : NodeId} {node : Node}
    (found : lifted.graph.node? id = some node) {array : String} {subscript : List String}
    (touched : node.kind.touched? = some (array, subscript)) :
    ∃ statement ∈ lifted.region.statements.values, ∃ access,
      Graph.Touches lifted.region node array subscript statement access := by
  obtain ⟨resolved, made⟩ := lift_cases succeeded
  have sound := sound_of_resolve resolved
  obtain ⟨_, _, _, _, verified⟩ := resolve_cases resolved
  obtain ⟨_, _, scope, _, member, scopeOf⟩ := Graph.exists_scope_of_node sound made found
  obtain ⟨access, direction, owned, touches, rfl⟩ :=
    (scopeOf.depicts id member found).touches touched
  obtain ⟨statement, declared, listed, value⟩ := Region.exists_of_accessOf? owned
  obtain ⟨held, _, target, _, _, there, kind, leads⟩ := sound.access_kind declared listed
  rw [← value, Region.accessArray?_eq_some there kind] at touches
  cases touches
  obtain ⟨storage, known, pieces⟩ := Region.pieces_of_verify verified declared listed
    (Region.accessArray?_eq_some there kind)
  obtain ⟨first, rest, split, element⟩ := Graph.leadsTo_subscriptOf leads
  refine ⟨statement, declared, access, listed, value, ?_, ⟨first, rest, split, element⟩,
    fun piece inside => (pieces piece inside).1,
    ⟨storage, known, fun piece inside => (pieces piece inside).2⟩, ?_, ?_⟩
  · intro other others twin twins same
    have found := sound.accessOf?_eq_some others twins
    rw [same, owned] at found
    exact (Option.some.inj found).symm
  · intro all one inside two within
    exact (all one inside).trans (all two within).symm
  · intro agree piece inside
    exact (agree piece inside first (by simp [split])).trans element

/-- A loop whose write leads to two elements. -/
def pairing : Record where
  name := "pair"
  context := ""
  schedule := ""
  parameters := []
  arrays := [⟨"A", .array, ["*"], "double", ""⟩]
  dependences := ⟨"", "", "", "", ""⟩
  instructions := ""
  statements := [
    { name := "S"
      domain := "\x7b S[i0] : 0 <= i0 <= 9 \x7d"
      affine := some true
      loops := ["%i = phi i64 [ 0, %e ]"]
      accesses := [
        ⟨.write, "\x7b S[i0] -> A[i0]; S[i0] -> A[i0 + 1] \x7d", "store double 1.0, ptr %p", ""⟩]
      instructions := none }]
  aliasGroups := []

/-- The record is lifted, and the node of the write touches the element that one of the two pieces leads
    to. -/
theorem pairing_lifts :
    ∃ lifted node access, pairing.lift Options.standard = .ok lifted ∧
      lifted.graph.node? ⟨1⟩ = some node ∧ node.kind.touched? = some ("A", ["i0"]) ∧
      lifted.region.accessOf? node.origin = some access ∧
      access.relation.pieces.map Piece.output =
        [some ⟨some "A", ["i0"]⟩, some ⟨some "A", ["i0 + 1"]⟩] := by
  have evaluated : succeeds (pairing.lift Options.standard) (fun lifted =>
      (lifted.graph.node? ⟨1⟩).any fun node => (lifted.region.accessOf? node.origin).any fun access =>
        node.kind.touched? == some ("A", ["i0"]) &&
          access.relation.pieces.map Piece.output ==
            [some ⟨some "A", ["i0"]⟩, some ⟨some "A", ["i0 + 1"]⟩]) = true := by
    decide +kernel
  obtain ⟨lifted, succeeded, evaluated⟩ := exists_of_succeeds evaluated
  simp only [Option.any_eq_true, Bool.and_eq_true, beq_iff_eq] at evaluated
  obtain ⟨node, found, access, owned, touched, outputs⟩ := evaluated
  exact ⟨lifted, node, access, succeeded, found, touched, owned, outputs⟩

/-- The node of that write touches the first of the two elements. -/
theorem pairing_lift_touches :
    ∃ lifted node, pairing.lift Options.standard = .ok lifted ∧
      lifted.graph.node? ⟨1⟩ = some node ∧ node.kind.touched? = some ("A", ["i0"]) ∧
      ∃ statement ∈ lifted.region.statements.values, ∃ access,
        Graph.Touches lifted.region node "A" ["i0"] statement access := by
  obtain ⟨lifted, node, _, succeeded, found, touched, _, _⟩ := pairing_lifts
  exact ⟨lifted, node, succeeded, found, touched, lift_touches succeeded found touched⟩

/-- Not every piece of the relation of an access leads to the element that its node touches. -/
theorem pairing_loses_piece :
    ¬ ∀ (record : Record) (options : Options) (lifted : Lifted) (id : NodeId) (node : Node)
      (array : String) (subscript : List String) (access : Region.Access),
      record.lift options = .ok lifted → lifted.graph.node? id = some node →
      node.kind.touched? = some (array, subscript) →
      lifted.region.accessOf? node.origin = some access →
      ∀ piece ∈ access.relation.pieces, piece.LeadsTo array subscript := by
  intro every
  obtain ⟨lifted, node, access, succeeded, found, touched, owned, outputs⟩ := pairing_lifts
  have all := every _ _ lifted _ node _ _ access succeeded found touched owned
  have second : some ⟨some "A", ["i0 + 1"]⟩ ∈ access.relation.pieces.map Piece.output := by
    simp [outputs]
  obtain ⟨piece, inside, output⟩ := List.mem_map.1 second
  have same := (all piece inside).symm.trans output
  simp at same

end Record

end RegionFlow
