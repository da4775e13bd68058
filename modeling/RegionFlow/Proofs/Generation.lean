/-
Module: RegionFlow.Proofs.Generation
Purpose: The graph of a sound region. Its scopes are those of the statements in order of execution, one for
  each, and the writes of a scope are those of its statement, one for each, in order. Every node of the
  graph comes after its inputs, stands in one scope, and looks like the value that it stands for; the values
  that have a node in a scope are those that its statement reads, writes, or leads to.
Main exports: Graph.ScopeOf, Graph.ofRegion_ok, Graph.exists_scope, Graph.exists_writeNode,
  Graph.places_ofRegion, Graph.exists_scope_of_node
-/
import RegionFlow.Proofs.NodeSets

namespace RegionFlow

open Sequencing

namespace Table

/-- Looking up the keys of a table gives its values. -/
theorem filterMap_keys {α : Type} (table : Table α) :
    table.keys.filterMap table.get? = table.values := by
  rw [keys, values, List.filterMap_map, ← List.filterMap_eq_map]
  refine List.filterMap_congr fun entry member => ?_
  exact get?_eq_some_iff.2 member

end Table

namespace Region

/-- The names in order of execution are those of the statements. -/
theorem statementOrder_perm_keys (region : Region) :
    region.statementOrder.Perm region.statements.keys := by
  have names : (region.statements.keys.map fun name =>
      (name, region.scheduleVector? name)).map Prod.fst = region.statements.keys := by
    simp [List.map_map, Function.comp_def]
  rw [statementOrder, scheduledStatements]
  exact ((List.mergeSort_perm _ _).map Prod.fst).trans (.of_eq names)

/-- The statements in order of execution are the statements. -/
theorem statementOrder_perm (region : Region) :
    (region.statementOrder.filterMap region.statements.get?).Perm region.statements.values := by
  rw [← Table.filterMap_keys]
  exact region.statementOrder_perm_keys.filterMap _

/-- Statements that are declared in order of execution are executed in the order of their declaration. -/
theorem statementOrder_of_pairwise {region : Region}
    (ordered : region.statements.keys.Pairwise fun first second =>
      (Component.orderKeys (region.scheduleVector? first) (region.scheduleVector? second)).isLE) :
    region.statementOrder = region.statements.keys := by
  have sorted : (region.statements.keys.map fun name => (name, region.scheduleVector? name)).Pairwise
      fun first second => (Component.orderKeys first.2 second.2).isLE := List.pairwise_map.2 ordered
  rw [statementOrder, scheduledStatements, List.mergeSort_of_pairwise sorted, List.map_map]
  exact List.map_id _

/-- No two statements of a sound region bear the same name. -/
theorem Sound.nodup_names {region : Region} (sound : region.Sound) :
    (region.statements.values.map Statement.name).Nodup := by
  have named : region.statements.values.map Statement.name = region.statements.keys := by
    rw [Table.values, Table.keys, List.map_map]
    refine List.map_congr_left fun entry member => ?_
    exact (sound.consistent.statement (Table.get?_eq_some_iff.2 member)).name
  exact named ▸ region.statements.nodup

/-- No two writes of a sound region share a value. -/
theorem Sound.nodup_writes {region : Region} (sound : region.Sound) :
    (region.statements.values.flatMap fun statement =>
      (statement.writes region.arena).map fun entry => entry.2.value).Nodup := by
  refine sound.consistent.distinct.sublist (List.Sublist.flatMap_right _ fun statement _ => ?_)
  rw [Table.values, List.map_map]
  exact List.filter_sublist.map _

end Region

namespace Graph

variable {region : Region} {statement : Region.Statement}

/-- The pieces of its domain that belong to a statement. -/
def ownPieces (statement : Region.Statement) : List Polyhedral.Piece :=
  statement.domain.pieces.filter fun piece => piece.input.name == some statement.name

/-- A single piece of the domain gives the dimensions. -/
theorem domainDims_of_only {piece : Polyhedral.Piece} (only : ownPieces statement = [piece]) :
    domainDims statement = piece.input.dims := by
  rw [ownPieces] at only
  rw [domainDims, Polyhedral.Relation.piece?, ← List.head?_filter, only]
  rfl

/-- A statement with an iteration space has one piece in its domain, which gives the dimensions. -/
theorem piece_of_spaceOf {space : Space} (spaced : spaceOf statement = .ok space) :
    ∃ piece, statement.domain.pieces.filter
        (fun piece => piece.input.name == some statement.name) = [piece] ∧
      piece.input.dims = space.dims := by
  unfold spaceOf at spaced
  split at spaced
  · cases spaced
  · rename_i piece only
    obtain ⟨ranges, _, made⟩ := bind_eq_ok.1 spaced
    cases made
    exact ⟨piece, only, rfl⟩
  · cases spaced

/-- The dimensions of an iteration space are those of the domain. -/
theorem domainDims_eq {space : Space} (spaced : spaceOf statement = .ok space) :
    domainDims statement = space.dims := by
  obtain ⟨piece, only, dims⟩ := piece_of_spaceOf spaced
  exact (domainDims_of_only only).trans dims

/-- A scope is that of a statement: it bears its name and has its iteration space, its writes stand for the
    writes of the statement, and its nodes look like what they stand for, which is what has a node. -/
structure ScopeOf (region : Region) (nodes : Array Node) (statement : Region.Statement)
    (scope : Scope) : Prop where
  name : scope.statement = statement.name
  space : spaceOf statement = .ok ⟨scope.ranges, scope.conditions, domainDims statement⟩
  placed : ∀ id ∈ scope.nodes, id.index < nodes.size
  writes : List.Forall₂ (WritesTo region statement (domainDims statement) nodes)
    (statement.writes region.arena) (scope.nodes.filter (isWriteIn nodes))
  depicts : ∀ id ∈ scope.nodes, ∀ {node}, nodes[id.index]? = some node →
    Depicts region statement (domainDims statement) node
  tally : Tally region nodes statement scope.nodes

theorem ScopeOf.grow {first second : Array Node} (grown : Grown first second) {scope : Scope}
    (scopeOf : ScopeOf region first statement scope) :
    ScopeOf region second statement scope where
  name := scopeOf.name
  space := scopeOf.space
  placed := fun id member => Nat.lt_of_lt_of_le (scopeOf.placed id member) grown.size_le
  writes := by
    have same : scope.nodes.filter (isWriteIn second) = scope.nodes.filter (isWriteIn first) :=
      List.filter_congr fun id member => isWriteIn_of_grown grown (scopeOf.placed id member)
    rw [same]
    exact scopeOf.writes.imp fun _ _ writes => writes.grow grown
  depicts := by
    intro id member node found
    have held := Array.getElem?_eq_getElem (scopeOf.placed id member)
    cases (grown held).symm.trans found
    exact scopeOf.depicts id member held
  tally := scopeOf.tally.grow grown scopeOf.placed

/-- Adding the scope of a statement adds one scope, which is that of the statement and has the new nodes. -/
theorem addScope_ok (sound : region.Sound) (declared : statement ∈ region.statements.values)
    {graph after : Graph} (formed : Formed graph.nodes)
    (ran : addScope region graph statement = .ok after) :
    Formed after.nodes ∧ Grown graph.nodes after.nodes ∧
      ∃ scope, after.scopes = graph.scopes ++ [scope] ∧
        scope.nodes = placesBetween graph.nodes.size after.nodes.size ∧
        ScopeOf region after.nodes statement scope := by
  obtain ⟨space, spaced, ran⟩ := bind_eq_ok.1 ran
  obtain ⟨⟨_, emission⟩, emitted, ran⟩ := bind_eq_ok.1 ran
  cases ran
  obtain ⟨formedAfter, grown, writes⟩ := run_emitStatement_ok sound declared formed emitted
  have draws := draws_emitStatement sound declared emitted
  refine ⟨formedAfter, grown, _, rfl, rfl, rfl, ?_, ?_, ?_, ?_,
    tally_emitStatement sound declared emitted⟩
  · rw [domainDims_eq spaced]
    exact spaced
  · exact fun id member => (mem_placesBetween.1 member).2
  · rw [domainDims_eq spaced]
    exact writes
  · intro id member node found
    rw [domainDims_eq spaced]
    exact draws (mem_placesBetween.1 member).1 found

/-- Adding the scopes of statements adds one for each, in order. -/
theorem addScopes_ok (sound : region.Sound) {statements : List Region.Statement}
    (declared : ∀ statement ∈ statements, statement ∈ region.statements.values)
    {graph after : Graph} (formed : Formed graph.nodes)
    (ran : statements.foldlM (addScope region) graph = .ok after) :
    Formed after.nodes ∧ Grown graph.nodes after.nodes ∧
      ∃ scopes, after.scopes = graph.scopes ++ scopes ∧
        List.Forall₂ (ScopeOf region after.nodes) statements scopes := by
  induction statements generalizing graph with
  | nil =>
    cases ran
    exact ⟨formed, .refl after.nodes, [], (List.append_nil _).symm, .nil⟩
  | cons statement statements ih =>
    rw [List.foldlM_cons] at ran
    obtain ⟨middle, stepped, rest⟩ := bind_eq_ok.1 ran
    obtain ⟨formedMiddle, grownFirst, scope, appended, _, scopeOf⟩ :=
      addScope_ok sound (declared statement List.mem_cons_self) formed stepped
    obtain ⟨formedAfter, grownRest, scopes, appendedRest, others⟩ :=
      ih (fun other later => declared other (List.mem_cons_of_mem statement later)) formedMiddle rest
    refine ⟨formedAfter, grownFirst.trans grownRest, scope :: scopes, ?_,
      .cons (scopeOf.grow grownRest) others⟩
    rw [appendedRest, appended, List.append_assoc]
    rfl

/-- Declaring arrays adds neither scopes nor nodes. -/
theorem foldl_declareArray (arrays : List ArrayDecl) (graph : Graph) :
    (arrays.foldl declareArray graph).scopes = graph.scopes ∧
      (arrays.foldl declareArray graph).nodes = graph.nodes := by
  induction arrays generalizing graph with
  | nil => exact ⟨rfl, rfl⟩
  | cons array arrays ih => exact ih (graph.declareArray array)

/-- The graph of a region has the scopes of its statements, in order of execution. -/
theorem ofRegion_ok (sound : region.Sound) {graph : Graph} (ran : ofRegion region = .ok graph) :
    Formed graph.nodes ∧
      List.Forall₂ (ScopeOf region graph.nodes)
        (region.statementOrder.filterMap region.statements.get?) graph.scopes := by
  obtain ⟨noScopes, noNodes⟩ :=
    foldl_declareArray (region.arrays.map declarationOf) (empty region.name)
  have declared : ∀ statement ∈ region.statementOrder.filterMap region.statements.get?,
      statement ∈ region.statements.values := fun _ member =>
    region.statementOrder_perm.mem_iff.1 member
  obtain ⟨formed, _, scopes, appended, scopesOf⟩ :=
    addScopes_ok sound declared (noNodes ▸ formed_empty) ran
  rw [noScopes] at appended
  exact ⟨formed, (appended.trans (List.nil_append scopes)) ▸ scopesOf⟩

theorem placesBetween_append {start middle stop : Nat} (first : start ≤ middle)
    (second : middle ≤ stop) :
    placesBetween start middle ++ placesBetween middle stop = placesBetween start stop := by
  obtain ⟨before, rfl⟩ := Nat.exists_eq_add_of_le first
  obtain ⟨later, rfl⟩ := Nat.exists_eq_add_of_le second
  have whole : start + before + later - start = before + later := by omega
  rw [placesBetween, placesBetween, placesBetween, whole, Nat.add_sub_cancel_left,
    Nat.add_sub_cancel_left, ← List.map_append, List.range'_append_1]

/-- The nodes of the scopes, one scope after the other, are those of the graph. -/
theorem places_ofRegion (sound : region.Sound) {graph : Graph} (ran : ofRegion region = .ok graph) :
    graph.scopes.flatMap Scope.nodes = placesBetween 0 graph.nodes.size := by
  obtain ⟨noScopes, noNodes⟩ :=
    foldl_declareArray (region.arrays.map declarationOf) (empty region.name)
  refine (foldlM_ok (fun graph : Graph => Formed graph.nodes ∧
      graph.scopes.flatMap Scope.nodes = placesBetween 0 graph.nodes.size)
    (fun _ _ => True) (fun _ _ => True) (fun _ => trivial) (fun _ _ => trivial)
    (fun _ _ => trivial) ?_ ?_ ran).1.2
  · rintro statement member before after ⟨formed, covered⟩ stepped
    obtain ⟨formedAfter, grown, scope, appended, places, _⟩ :=
      addScope_ok sound (region.statementOrder_perm.mem_iff.1 member) formed stepped
    refine ⟨⟨formedAfter, ?_⟩, trivial, trivial⟩
    rw [appended, List.flatMap_append, List.flatMap_singleton, covered, places,
      placesBetween_append (Nat.zero_le _) grown.size_le]
  · rw [noScopes, noNodes]
    exact ⟨formed_empty, rfl⟩

/-- Every node of the graph stands in the scope of a statement. -/
theorem exists_scope_of_node (sound : region.Sound) {graph : Graph}
    (ran : ofRegion region = .ok graph) {id : NodeId} {node : Node}
    (found : graph.node? id = some node) :
    ∃ statement ∈ region.statements.values, ∃ scope ∈ graph.scopes, id ∈ scope.nodes ∧
      ScopeOf region graph.nodes statement scope := by
  have inside : id ∈ graph.scopes.flatMap Scope.nodes := by
    rw [places_ofRegion sound ran, mem_placesBetween]
    exact ⟨Nat.zero_le _, (Array.getElem?_eq_some_iff.1 found).1⟩
  obtain ⟨scope, listed, member⟩ := List.mem_flatMap.1 inside
  obtain ⟨statement, ordered, scopeOf⟩ := exists_partner (ofRegion_ok sound ran).2.flip listed
  exact ⟨statement, region.statementOrder_perm.mem_iff.1 ordered, scope, listed, member, scopeOf⟩

/-- Every statement has one scope in the graph of the region. -/
theorem exists_scope (sound : region.Sound) {graph : Graph} (ran : ofRegion region = .ok graph)
    (declared : statement ∈ region.statements.values) :
    ∃ scope, ScopeOf region graph.nodes statement scope ∧
      graph.scopes.filter (fun other => other.statement == statement.name) = [scope] := by
  have distinct : ((region.statementOrder.filterMap region.statements.get?).map
      Region.Statement.name).Nodup :=
    (region.statementOrder_perm.map _).nodup_iff.2 sound.nodup_names
  simp only [beq_eq_decide]
  exact unique_partner Region.Statement.name Scope.statement (fun scopeOf => scopeOf.name)
    (ofRegion_ok sound ran).2 distinct (region.statementOrder_perm.mem_iff.2 declared)

/-- Whether a place holds a node that stands for a write. -/
def isWriteOf (graph : Graph) (origin : ValueId) (id : NodeId) : Bool :=
  match graph.node? id with
  | some node => node.origin == origin && node.kind.isWrite
  | none => false

theorem isWriteOf_eq (graph : Graph) (origin : ValueId) (id : NodeId) :
    graph.isWriteOf origin id =
      (decide (graph.nodes[id.index]?.map Node.origin = some origin) &&
        isWriteIn graph.nodes id) := by
  rw [isWriteOf, isWriteIn, node?]
  cases graph.nodes[id.index]? with
  | none => rfl
  | some node => simp [beq_eq_decide]

/-- Every write of a statement has one node in the scope of the statement. -/
theorem exists_writeNode (sound : region.Sound) (declared : statement ∈ region.statements.values)
    {graph : Graph} {scope : Scope} (scopeOf : ScopeOf region graph.nodes statement scope)
    {entry : String × Region.Access} (member : entry ∈ statement.writes region.arena) :
    ∃ id, WritesTo region statement (domainDims statement) graph.nodes entry id ∧
      scope.nodes.filter (graph.isWriteOf entry.2.value) = [id] := by
  have distinct : ((statement.writes region.arena).map fun entry =>
      some entry.2.value).Nodup := by
    have values := (List.nodup_flatMap.1 sound.nodup_writes).1 statement declared
    simpa only [List.map_map, Function.comp_def] using
      values.map fun _ _ same => Option.some.inj same
  obtain ⟨id, writes, only⟩ := unique_partner
    (fun entry : String × Region.Access => some entry.2.value)
    (fun id : NodeId => graph.nodes[id.index]?.map Node.origin)
    (fun ⟨_, _, _, _, _, _, placed, _⟩ => by rw [placed]; rfl) scopeOf.writes distinct member
  refine ⟨id, writes, ?_⟩
  rw [← only, List.filter_filter]
  exact List.filter_congr fun other _ => isWriteOf_eq graph entry.2.value other

end Graph

end RegionFlow
