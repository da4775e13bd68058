/-
Module: RegionFlow.Proofs.Agreement
Purpose: What it means that a graph agrees with a region. A node realizes a write if it stores to the element
  that the relation of the write leads to, and expands to the expression that the write expands to. If
  any graph at all passes the check, it has a node for every write that realizes it, and no other writes;
  and the graph of a region passes the check.
Main exports: Graph.Realizes, Graph.WritesTo.realizes, Graph.Mirrors, Graph.mirrors_of_agree,
  Graph.agree_of_ofRegion
-/
import RegionFlow.Proofs.Generation

namespace RegionFlow

namespace Expr

mutual

/-- Whether every reference in an expression has a producer. -/
def isKnown : Expr → Bool
  | const _ | param _ | index _ | read _ _ => true
  | op _ _ operands => allKnown operands
  | select condition ifTrue ifFalse => condition.isKnown && ifTrue.isKnown && ifFalse.isKnown
  | unknown _ => false

/-- Whether every reference in several expressions has a producer. -/
def allKnown : List Expr → Bool
  | [] => true
  | e :: rest => e.isKnown && allKnown rest

end

theorem allKnown_iff {exprs : List Expr} :
    allKnown exprs = true ↔ ∀ expr ∈ exprs, expr.isKnown = true := by
  induction exprs with
  | nil => simp [allKnown]
  | cons expr exprs ih => simp [allKnown, ih]

end Expr

namespace Graph

open Search Sequencing

variable {region : Region} {statement : Region.Statement} {dims : List String} {graph : Graph}

/-- What a node makes of known expressions is known. -/
theorem isKnown_assemble {node : Node} {exprs : List Expr} {expr : Expr}
    (known : ∀ part ∈ exprs, part.isKnown = true) (made : node.assemble? exprs = some expr) :
    expr.isKnown = true := by
  unfold Node.assemble? at made
  split at made
  case h_2 =>
    cases made
    exact known _ List.mem_cons_self
  case h_4 =>
    cases made
    rw [Expr.isKnown]
    exact Expr.allKnown_iff.2 known
  case h_5 =>
    cases made
    simp [Expr.isKnown, known]
  all_goals cases made
  all_goals rfl

/-- Whatever a node unfolds to is known. -/
theorem Unfolds.isKnown {nodes : Array Node} {id : NodeId} {expr : Expr}
    (unfolded : Unfolds nodes id expr) : expr.isKnown = true := by
  induction unfolded with
  | @made id parts whole results expr opened aligned each joined ih =>
    have known : ∀ part ∈ results, part.isKnown = true := by
      have knowns : List.Forall₂ (fun (_ : NodeId) (part : Expr) => part.isKnown = true) parts
          results := List.forall₂_iff_zip.2 ⟨aligned, fun member => ih _ member⟩
      intro part member
      obtain ⟨_, _, known⟩ := exists_partner knowns.flip member
      exact known
    unfold layout at opened
    split at opened
    · cases opened
    · rename_i node placed
      cases opened
      cases made : node.assemble? results with
      | none => simp [made] at joined
      | some other =>
        simp only [made, Except.ok.injEq] at joined
        exact joined ▸ isKnown_assemble known made

/-- A node realizes a write: it stores to the element that the first piece of the relation leads to, and
    node and write expand to the same expression, in which every reference has a producer. -/
def Realizes (region : Region) (graph : Graph) (access : Region.Access) (id : NodeId) : Prop :=
  ∃ piece target array node expr,
    access.relation.pieces.head? = some piece ∧ piece.output = some target ∧
    target.name = some array ∧ graph.node? id = some node ∧
    node.kind = .write array target.dims ∧ node.origin = access.value ∧
    graph.expand? id = some expr ∧ region.arena.expand access.value = .ok expr ∧
    expr.isKnown = true

/-- The array of a relation is the output of its first piece. -/
theorem targetArray?_eq_some {relation : Polyhedral.Relation} {array : String}
    (target : Region.Draft.targetArray? relation = some array) :
    ∃ piece output, relation.pieces.head? = some piece ∧ piece.output = some output ∧
      output.name = some array ∧ subscriptOf relation = output.dims := by
  unfold Region.Draft.targetArray? at target
  obtain ⟨piece, first, rest⟩ := Option.bind_eq_some_iff.1 target
  obtain ⟨output, leads, named⟩ := Option.bind_eq_some_iff.1 rest
  exact ⟨piece, output, first, leads, named, by simp [subscriptOf, first, leads]⟩

/-- A node that stands for a write realizes it, if the nodes that compute something unfold. -/
theorem WritesTo.realizes (sound : region.Sound) (declared : statement ∈ region.statements.values)
    {entry : String × Region.Access} (member : entry ∈ statement.writes region.arena) {id : NodeId}
    (writes : WritesTo region statement dims graph.nodes entry id)
    (unfold : ∀ {value nodeId}, Computes region statement dims graph.nodes value nodeId →
      ∃ expr, Unfolds graph.nodes nodeId expr) :
    Realizes region graph entry.2 id := by
  obtain ⟨array, stored, input, type, target, args, placed, computes⟩ := writes
  obtain ⟨value, _, text, incoming, found, kind, _⟩ := sound.write_kind declared member
  obtain ⟨piece, output, first, leads, named, subscript⟩ := targetArray?_eq_some target
  obtain ⟨expr, unfolded⟩ := unfold computes
  have nodeUnfolds : Unfolds graph.nodes id expr :=
    unfolds_iff.2 ⟨_, [expr], placed, .cons unfolded .nil, rfl⟩
  have operands : value.operands = [stored] := by
    rw [Value.operands_of_composite (by rw [kind]; rfl), ← Arena.args_of_get? found, args]
  have valueUnfolds : region.arena.Unfolds entry.2.value expr := by
    refine Arena.unfolds_iff.2 ⟨value, [expr], found, ?_, by simp [Value.assemble, kind]⟩
    rw [operands]
    exact .cons (computes.unfolds unfolded) .nil
  exact ⟨piece, output, array, _, expr, first, leads, named, placed, by rw [subscript], rfl,
    expand?_eq_some_iff.2 nodeUnfolds, Arena.expand_eq_ok_iff.2 valueUnfolds, nodeUnfolds.isKnown⟩

/-! ### What the check accepts -/

/-- The element that a node stores to passes the check if array and subscript are those of the write. -/
theorem checkElement_eq_ok {name key array : String} {access : Region.Access}
    {subscript : List String} :
    checkElement region name key access array subscript = .ok () ↔
      (region.accessArray? access.value).map Prod.fst = some array ∧
        subscript = subscriptOf access.relation := by
  simp only [checkElement]
  split
  · rename_i same
    exact ⟨fun _ => same, fun _ => rfl⟩
  · rename_i differs
    constructor
    · intro ran
      cases ran
    · intro same
      exact absurd same differs

/-- What a node stores passes the check if its input is accepted with the value that the write stores. -/
theorem checkStored_eq_ok {key : String} {access : Region.Access} {id : NodeId}
    {inputs : List NodeId} {agreed agreed' : List (ValueId × NodeId)} :
    checkStored region graph statement dims key access id inputs agreed = .ok agreed' ↔
      ∃ stored input, region.arena.args access.value = [stored] ∧ inputs = [input] ∧
        (compareBelow region graph statement dims (pairBound region graph) stored input).run agreed
          = .ok ((), agreed') := by
  unfold checkStored
  split
  · rename_i stored input args
    simp only [args, List.cons.injEq, and_true]
    constructor
    · intro ran
      refine ⟨stored, input, rfl, rfl, ?_⟩
      split at ran
      · rename_i compared
        cases ran
        exact compared
      · cases ran
    · rintro ⟨_, _, rfl, rfl, compared⟩
      rw [compared]
  · rename_i other
    constructor
    · intro ran
      cases ran
    · rintro ⟨stored, input, args, rfl, _⟩
      exact (other stored input args rfl).elim

/-- A write that passes the check has a node in the scope that stands for it. -/
theorem checkWrite_sound (sound : region.Sound) (declared : statement ∈ region.statements.values)
    {scope : Scope} {entry : String × Region.Access}
    (member : entry ∈ statement.writes region.arena) {agreed agreed' : List (ValueId × NodeId)}
    (right : Agreed region statement dims graph.nodes agreed)
    (ran : checkWrite region graph statement dims scope agreed entry = .ok agreed') :
    Agreed region statement dims graph.nodes agreed' ∧
      ∃ id, scope.nodes.find? (graph.isWriteOf entry.2.value) = some id ∧
        WritesTo region statement dims graph.nodes entry id := by
  obtain ⟨value, array, text, incoming, found, kind, target⟩ := sound.write_kind declared member
  cases listed : graph.writeNode? scope entry.2.value with
  | none =>
    simp only [checkWrite, listed] at ran
    cases ran
  | some id =>
    have origin : graph.isWriteOf entry.2.value id = true := List.find?_some listed
    simp only [checkWrite, listed] at ran
    split at ran
    · rename_i emitted subscript type inputs valueId placed
      obtain ⟨_, element, storing⟩ := bind_eq_ok.1 ran
      obtain ⟨sameArray, rfl⟩ := checkElement_eq_ok.1 element
      obtain ⟨stored, input, args, rfl, compared⟩ := checkStored_eq_ok.1 storing
      obtain ⟨rightAfter, computes⟩ := run_compareBelow_sound right compared
      have sameOrigin : valueId = entry.2.value := by
        simpa [isWriteOf, placed, NodeKind.isWrite] using origin
      rw [Region.accessArray?_eq_some found kind] at sameArray
      cases sameArray
      subst sameOrigin
      exact ⟨rightAfter, id, listed, array, stored, input, type, target, args, placed, computes⟩
    · cases ran

/-- The writes of a statement that passes the check have nodes in the first scope of its name that stand for
    them. -/
theorem checkStatement_sound (sound : region.Sound)
    (declared : statement ∈ region.statements.values)
    (ran : checkStatement region graph statement = .ok ()) :
    ∃ scope, graph.scopes.find? (fun other => other.statement == statement.name) = some scope ∧
      ∀ entry ∈ statement.writes region.arena,
        ∃ id, scope.nodes.find? (graph.isWriteOf entry.2.value) = some id ∧
          WritesTo region statement (domainDims statement) graph.nodes entry id := by
  unfold checkStatement at ran
  split at ran
  · cases ran
  · rename_i scope named
    obtain ⟨agreed, folded, _⟩ := bind_eq_ok.1 ran
    obtain ⟨_, _, each⟩ := foldlM_ok
      (Agreed region statement (domainDims statement) graph.nodes) (fun _ _ => True)
      (fun _ (entry : String × Region.Access) =>
        ∃ id, scope.nodes.find? (graph.isWriteOf entry.2.value) = some id ∧
          WritesTo region statement (domainDims statement) graph.nodes entry id)
      (fun _ => trivial) (fun _ _ => trivial) (fun _ holds => holds)
      (fun entry member {_ _} right stepped =>
        let ⟨rightAfter, stands⟩ := checkWrite_sound sound declared member right stepped
        ⟨rightAfter, trivial, stands⟩)
      agreed_nil folded
    exact ⟨scope, named, each⟩

/-- A graph agrees with a region if every statement passes the check and no write is left over. -/
theorem agree_eq_ok :
    agree region graph = .ok () ↔
      (∀ statement ∈ region.statements.values, checkStatement region graph statement = .ok ()) ∧
        graph.writes.length = regionWrites region := by
  rw [← forM_eq_ok_iff, agree, bind_eq_ok]
  constructor
  · rintro ⟨_, checked, counted⟩
    refine ⟨checked, ?_⟩
    by_contra differs
    rw [if_pos differs] at counted
    cases counted
  · rintro ⟨checked, counted⟩
    exact ⟨(), checked, if_neg (not_not_intro counted)⟩

/-! ### Graphs that agree with a region -/

/-- The writes of a region, each with its statement. -/
def allWrites (region : Region) : List (Region.Statement × String × Region.Access) :=
  region.statements.values.flatMap fun statement =>
    (statement.writes region.arena).map fun entry => (statement, entry)

/-- A graph mirrors a region: each write of the region is realized by a node that the first scope named
    after its statement lists, and the graph writes from these nodes, each once, and from no other. -/
def Mirrors (region : Region) (graph : Graph) : Prop :=
  ∃ nodes : List (Scope × NodeId),
    List.Forall₂ (fun write node =>
      graph.scopes.find? (fun scope => scope.statement == write.1.name) = some node.1 ∧
        node.2 ∈ node.1.nodes ∧ Realizes region graph write.2.2 node.2) (allWrites region) nodes ∧
    graph.writes.Perm nodes ∧ (nodes.map Prod.snd).Nodup

/-- In a sound region the values of all writes are distinct. -/
theorem nodup_allWrites (sound : region.Sound) :
    ((allWrites region).map fun write => some write.2.2.value).Nodup := by
  have values : ((allWrites region).map fun write => write.2.2.value).Nodup := by
    simpa only [allWrites, List.map_flatMap, List.map_map, Function.comp_def] using
      sound.nodup_writes
  simpa only [List.map_map, Function.comp_def] using
    values.map fun _ _ same => Option.some.inj same

/-- A graph that agrees with a sound region mirrors it. -/
theorem mirrors_of_agree (sound : region.Sound) (choices : SelectsByCondition region)
    (agrees : agree region graph = .ok ()) : Mirrors region graph := by
  obtain ⟨checked, counted⟩ := agree_eq_ok.1 agrees
  have each : ∀ write ∈ allWrites region, ∃ node : Scope × NodeId,
      graph.scopes.find? (fun scope => scope.statement == write.1.name) = some node.1 ∧
        node.2 ∈ node.1.nodes ∧ Realizes region graph write.2.2 node.2 := by
    intro write member
    obtain ⟨statement, declared, listed⟩ := List.mem_flatMap.1 member
    obtain ⟨entry, inStatement, rfl⟩ := List.mem_map.1 listed
    obtain ⟨scope, named, stand⟩ := checkStatement_sound sound declared (checked statement declared)
    obtain ⟨id, inScope, writes⟩ := stand entry inStatement
    exact ⟨(scope, id), named, List.mem_of_find?_eq_some inScope,
      writes.realizes sound declared inStatement fun computes => computes.exists_unfolds choices⟩
  obtain ⟨nodes, realized⟩ := exists_partners each
  -- a node knows the value it was made for, so nodes of different writes differ
  have origins : nodes.map (fun node => (graph.node? node.2).map Node.origin) =
      (allWrites region).map fun write => some write.2.2.value := by
    refine map_eq_map_of_partners ?_ realized
    rintro write node ⟨_, _, _, _, _, _, _, _, _, _, placed, _, origin, _⟩
    rw [placed, Option.map_some, origin]
  have distinct : (nodes.map Prod.snd).Nodup := by
    refine List.Nodup.of_map (fun id => (graph.node? id).map Node.origin) ?_
    rw [List.map_map]
    exact origins ▸ nodup_allWrites sound
  -- as many distinct writes of the graph as the graph has are all its writes
  have written : nodes ⊆ graph.writes := by
    intro node member
    obtain ⟨write, _, named, inScope, _, _, _, _, _, _, _, _, placed, kind, _⟩ :=
      exists_partner realized.flip member
    refine List.mem_flatMap.2 ⟨node.1, List.mem_of_find?_eq_some named, List.mem_map.2 ⟨node.2,
      List.mem_filter.2 ⟨inScope, ?_⟩, rfl⟩⟩
    rw [isWriteAt, placed, Option.map_some, kind]
    rfl
  have enough : graph.writes.length ≤ nodes.length := by
    rw [counted, ← realized.length_eq, regionWrites, allWrites, List.length_flatMap,
      List.length_flatMap]
    simp
  exact ⟨nodes, realized, ((List.subperm_of_subset (List.Nodup.of_map _ distinct) written
    ).perm_of_length_le enough).symm, distinct⟩

/-! ### The graph of a region -/

/-- A write of a statement passes the check against its node. -/
theorem checkWrite_complete (sound : region.Sound)
    (declared : statement ∈ region.statements.values) {scope : Scope}
    {entry : String × Region.Access} (member : entry ∈ statement.writes region.arena) {id : NodeId}
    (listed : scope.nodes.find? (graph.isWriteOf entry.2.value) = some id)
    (writes : WritesTo region statement dims graph.nodes entry id)
    (agreed : List (ValueId × NodeId)) :
    ∃ agreed', checkWrite region graph statement dims scope agreed entry = .ok agreed' := by
  obtain ⟨array, stored, input, type, target, args, placed, computes⟩ := writes
  obtain ⟨value, _, text, incoming, found, kind, target'⟩ := sound.write_kind declared member
  cases target.symm.trans target'
  obtain ⟨agreed', compared⟩ :=
    run_compareBelow_complete computes (within_pairBound graph computes.acc) agreed
  have foundNode : graph.writeNode? scope entry.2.value = some id := listed
  have node : graph.node? id =
      some ⟨.write array (subscriptOf entry.2.relation), type, [input], entry.2.value⟩ := placed
  refine ⟨agreed', ?_⟩
  simp only [checkWrite, foundNode, node]
  refine bind_eq_ok.2 ⟨(), checkElement_eq_ok.2
    ⟨by rw [Region.accessArray?_eq_some found kind]; rfl, rfl⟩, ?_⟩
  exact checkStored_eq_ok.2 ⟨stored, input, args, rfl, compared⟩

/-- Every statement passes the check against the graph of the region. -/
theorem checkStatement_of_ofRegion (sound : region.Sound) (ran : ofRegion region = .ok graph)
    (declared : statement ∈ region.statements.values) :
    checkStatement region graph statement = .ok () := by
  obtain ⟨scope, scopeOf, only⟩ := exists_scope sound ran declared
  have named : graph.scopes.find? (fun other => other.statement == statement.name) = some scope := by
    rw [← List.head?_filter, only]
    rfl
  have each : ∀ entry ∈ statement.writes region.arena, ∀ before, ∃ after,
      checkWrite region graph statement (domainDims statement) scope before entry = .ok after := by
    intro entry member before
    obtain ⟨id, writes, onlyNode⟩ := exists_writeNode sound declared scopeOf member
    refine checkWrite_complete sound declared member ?_ writes before
    rw [← List.head?_filter, onlyNode]
    rfl
  obtain ⟨agreed, folded⟩ := foldlM_exists each []
  simp only [checkStatement, named]
  exact bind_eq_ok.2 ⟨agreed, folded, rfl⟩

/-- The graph of a region has as many writes as the region. -/
theorem length_writes_of_ofRegion (sound : region.Sound) (ran : ofRegion region = .ok graph) :
    graph.writes.length = regionWrites region := by
  have counts : graph.scopes.map (fun scope =>
        ((scope.nodes.filter graph.isWriteAt).map fun id => (scope, id)).length) =
      (region.statementOrder.filterMap region.statements.get?).map fun statement =>
        (statement.writes region.arena).length := by
    refine map_eq_map_of_partners (fun scopeOf => ?_) (ofRegion_ok sound ran).2
    rw [List.length_map]
    exact scopeOf.writes.length_eq.symm
  rw [writes, regionWrites, List.length_flatMap, List.length_flatMap, counts]
  exact (region.statementOrder_perm.map _).sum_nat

/-- The graph of a region agrees with the region. -/
theorem agree_of_ofRegion (sound : region.Sound) (ran : ofRegion region = .ok graph) :
    agree region graph = .ok () :=
  agree_eq_ok.2 ⟨fun _ declared => checkStatement_of_ofRegion sound ran declared,
    length_writes_of_ofRegion sound ran⟩

end Graph

end RegionFlow
