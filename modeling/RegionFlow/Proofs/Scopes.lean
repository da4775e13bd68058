/-
Module: RegionFlow.Proofs.Scopes
Purpose: What the scopes of the graph of a record hold. The nodes of a scope are, one for each, the
  reads of its statement, the values that its writes lead to, and the writes; each is of the kind
  and type of its value and takes its inputs in the order of the arguments. The scopes follow the
  order of execution and share the nodes out among them in order; every node comes after its inputs,
  within its own scope, and has an expression.
Main exports: Graph.StandsFor, Graph.Populates, Graph.Arranged, Record.scopes_populated,
  Record.scopes_arranged
-/
import RegionFlow.Proofs.Dropping
import RegionFlow.Proofs.Lifting

namespace RegionFlow

open Search Sequencing

namespace Region

/-- The statements in order of execution bear the names in order of execution. -/
theorem Sound.names_statementOrder {region : Region} (sound : region.Sound) :
    (region.statementOrder.filterMap region.statements.get?).map Statement.name =
      region.statementOrder := by
  have known : ∀ name ∈ region.statementOrder, ∃ statement,
      region.statements.get? name = some statement ∧ statement.name = name := by
    intro name member
    obtain ⟨entry, listed, rfl⟩ := List.mem_map.1 (region.statementOrder_perm_keys.mem_iff.1 member)
    have found := Table.get?_eq_some_iff.2 listed
    exact ⟨entry.2, found, (sound.consistent.statement found).name⟩
  generalize region.statementOrder = names at known
  induction names with
  | nil => rfl
  | cons name names ih =>
    obtain ⟨⟨statement, found, named⟩, rest⟩ := List.forall_mem_cons.1 known
    rw [List.filterMap_cons_some found, List.map_cons, named, ih rest]

end Region

namespace Graph

variable {region : Region} {statement : Region.Statement} {dims : List String} {node : Node}
  {graph : Graph} {scope : Scope}

/-- The value that the node at a place stands for. -/
def origin? (graph : Graph) (id : NodeId) : Option ValueId :=
  (graph.node? id).map Node.origin

/-- The kinds of node that stand for a value in the scope of a statement with the given dimensions. -/
inductive StandsFor (region : Region) (statement : Region.Statement) (dims : List String)
    (id : ValueId) (value : Value) : NodeKind → Prop where
  | constant {literal : String} (kind : value.kind = .constant literal) :
      StandsFor region statement dims id value (.constant literal)
  | symbol {name : String} (kind : value.kind = .parameter name) :
      StandsFor region statement dims id value (.symbol name value.reference)
  /-- The dimension is the one at the place of the variable among the loops of the statement. -/
  | index {text dim : String} {position : Nat} (kind : value.kind = .inductionVariable text)
      (counted : statement.loops.indexOf? value.reference = some position)
      (bound : dims[position]? = some dim) :
      StandsFor region statement dims id value (.index dim value.reference)
  /-- The element is that of the access, of whichever statement, with this value. -/
  | read {array text : String} {incoming : Option String} {owner : Region.Statement}
      {access : Region.Access} (kind : value.kind = .access .read array text incoming)
      (declared : owner ∈ region.statements.values) (listed : access ∈ owner.accesses.values)
      (owned : access.value = id) :
      StandsFor region statement dims id value
        (.read array (subscriptOf access.relation) value.reference)
  | compute {opcode : Opcode} {text : String} (kind : value.kind = .computation opcode text) :
      StandsFor region statement dims id value (.compute opcode)
  | select {text : String} (kind : value.kind = .selection text) (three : value.args.length = 3) :
      StandsFor region statement dims id value .select
  /-- The element is that of the access with this value. -/
  | write {array text : String} {incoming : Option String} {owner : Region.Statement}
      {access : Region.Access} (kind : value.kind = .access .write array text incoming)
      (declared : owner ∈ region.statements.values) (listed : access ∈ owner.accesses.values)
      (owned : access.value = id) :
      StandsFor region statement dims id value (.write array (subscriptOf access.relation))

/-- The kind of node that is chosen for a value stands for it. -/
theorem standsFor_of_kindOf {id : ValueId} {value : Value} {kind : NodeKind}
    (found : region.arena.get? id = some value)
    (chosen : kindOf region statement dims id value = .ok kind) :
    StandsFor region statement dims id value kind := by
  cases valueKind : value.kind with
  | constant literal =>
    simp only [kindOf, valueKind] at chosen
    cases chosen
    exact .constant valueKind
  | parameter name =>
    simp only [kindOf, valueKind] at chosen
    cases chosen
    exact .symbol valueKind
  | inductionVariable text =>
    simp only [kindOf, valueKind, dimOf?] at chosen
    cases counted : statement.loops.indexOf? value.reference with
    | none =>
      simp only [counted] at chosen
      cases chosen
    | some position =>
      cases bound : dims[position]? with
      | none =>
        simp only [counted, bound] at chosen
        cases chosen
      | some dim =>
        simp only [counted, bound] at chosen
        cases chosen
        exact .index valueKind counted bound
  | access direction array text incoming =>
    cases direction with
    | write =>
      simp only [kindOf, valueKind] at chosen
      cases chosen
    | read =>
      simp only [kindOf, valueKind] at chosen
      cases owned : region.accessOf? id with
      | none =>
        simp only [owned] at chosen
        cases chosen
      | some access =>
        simp only [owned, readKind, Region.accessArray?_eq_some found valueKind] at chosen
        cases chosen
        obtain ⟨owner, declared, listed, value⟩ := Region.exists_of_accessOf? owned
        exact .read valueKind declared listed value
  | computation opcode text =>
    simp only [kindOf, valueKind] at chosen
    cases chosen
    exact .compute valueKind
  | selection text =>
    simp only [kindOf, valueKind] at chosen
    split at chosen
    · rename_i three
      cases chosen
      exact .select valueKind three
    · cases chosen
  | forward text =>
    simp only [kindOf, valueKind] at chosen
    cases chosen
  | placeholder =>
    simp only [kindOf, valueKind] at chosen
    cases chosen

/-- A node that looks like a value is of its type, and its kind stands for the value. -/
theorem Depicts.standsFor (depicts : Depicts region statement dims node) :
    ∃ value, region.arena.get? node.origin = some value ∧ node.type = value.type ∧
      StandsFor region statement dims node.origin value node.kind := by
  cases depicts with
  | operand found type kind => exact ⟨_, found, type, standsFor_of_kindOf found kind⟩
  | write found type writes owned kind =>
    obtain ⟨owner, declared, listed, value⟩ := Region.exists_of_accessOf? owned
    exact ⟨_, found, type, kind ▸ .write writes declared listed value⟩

/-- What the scope of a statement holds. -/
structure Populates (region : Region) (graph : Graph) (statement : Region.Statement) (scope : Scope) :
    Prop where
  /-- Its places hold nodes. -/
  placed : ∀ id ∈ scope.nodes, ∃ node, graph.node? id = some node
  /-- No two of the nodes stand for the same value. -/
  distinct : (scope.nodes.map graph.origin?).Nodup
  /-- They stand for the reads, for what is stored and leads there, and for the writes. -/
  origins : ∀ id, some id ∈ scope.nodes.map graph.origin? ↔ HasNode region statement id
  /-- A node is of the type and of the kind of its value. -/
  kinds : ∀ id ∈ scope.nodes, ∀ {node}, graph.node? id = some node →
    ∃ value, region.arena.get? node.origin = some value ∧ node.type = value.type ∧
      StandsFor region statement (domainDims statement) node.origin value node.kind
  /-- The inputs of a node are those for the arguments of its value, in order: the input for an
      argument is the node of the first value on the chain of the argument that is no pass-through
      merge. -/
  inputs : ∀ id ∈ scope.nodes, ∀ {node}, graph.node? id = some node →
    List.Forall₂ (fun arg input => input ∈ scope.nodes ∧
      ∃ last, graph.origin? input = some last ∧ ∀ other, region.arena.PassesTo arg other ↔ other = last)
      (region.arena.args node.origin) node.inputs

/-- The scope of a statement holds the nodes that it should. -/
theorem ScopeOf.populates (scopeOf : ScopeOf region graph.nodes statement scope)
    (distinct : scope.nodes.Nodup) : Populates region graph statement scope where
  placed := fun id member => ⟨_, Array.getElem?_eq_getElem (scopeOf.placed id member)⟩
  distinct := by
    refine distinct.map_on fun first one second two same => ?_
    have firstHeld := Array.getElem?_eq_getElem (scopeOf.placed first one)
    have secondHeld := Array.getElem?_eq_getElem (scopeOf.placed second two)
    apply scopeOf.tally.distinct first one second two firstHeld secondHeld
    simpa [origin?, node?, firstHeld, secondHeld] using same
  origins := by
    intro id
    rw [scopeOf.tally.origins id, List.mem_map]
    simp only [origin?, node?, Option.map_eq_some_iff]
  kinds := fun id member {_} found => (scopeOf.depicts id member found).standsFor
  inputs := by
    intro id member node found
    refine (scopeOf.tally.inputs id member found).imp fun arg input stands => ?_
    obtain ⟨inside, source, held, passes⟩ := stands
    refine ⟨inside, source.origin, by simp [origin?, node?, held], fun other => ⟨?_, ?_⟩⟩
    · exact fun chain => chain.unique passes
    · exact fun same => same ▸ passes

/-- How the nodes of a graph are shared out among the scopes of a region. -/
structure Arranged (region : Region) (graph : Graph) : Prop where
  /-- There is one scope for each statement, in order of execution. -/
  ordered : graph.scopes.map Scope.statement = region.statementOrder
  /-- One scope after the other lists the places of the graph, each once, in increasing order. -/
  shared : graph.scopes.flatMap Scope.nodes = (List.range graph.nodes.size).map NodeId.mk
  /-- The inputs of a node have smaller places and are listed before it in the same scope. -/
  earlier : ∀ scope ∈ graph.scopes, ∀ {before id later}, scope.nodes = before ++ id :: later →
    ∀ input ∈ graph.inputs id, input.index < id.index ∧ input ∈ before
  /-- Every node has an expression. -/
  expands : ∀ id, id.index < graph.nodes.size → ∃ expr, graph.expand? id = some expr

/-- The places of a scope are listed in increasing order. -/
theorem increasing_of_places (shared : graph.scopes.flatMap Scope.nodes =
      (List.range graph.nodes.size).map NodeId.mk) (member : scope ∈ graph.scopes) :
    scope.nodes.Pairwise fun first second => first.index < second.index := by
  have whole : (graph.scopes.flatMap Scope.nodes).Pairwise fun first second =>
      first.index < second.index := by
    rw [shared, List.pairwise_map]
    exact List.pairwise_lt_range
  exact (List.pairwise_flatMap.1 whole).1 scope member

/-- The graph of a sound region lists its nodes in order. -/
theorem places_eq_range (sound : region.Sound) (made : ofRegion region = .ok graph) :
    graph.scopes.flatMap Scope.nodes = (List.range graph.nodes.size).map NodeId.mk := by
  rw [places_ofRegion sound made, placesBetween, Nat.sub_zero, List.range_eq_range']

/-- The graph of a sound region is arranged. -/
theorem arranged_of_ofRegion (sound : region.Sound) (made : ofRegion region = .ok graph) :
    Arranged region graph := by
  obtain ⟨formed, scopesOf⟩ := ofRegion_ok sound made
  have shared := places_eq_range sound made
  constructor
  · rw [← sound.names_statementOrder]
    exact map_eq_map_of_partners (fun scopeOf => scopeOf.name) scopesOf
  · exact shared
  · intro scope member before id later split input isInput
    have increasing := increasing_of_places shared member
    obtain ⟨statement, _, scopeOf⟩ := exists_partner scopesOf.flip member
    have listed : id ∈ scope.nodes := by simp [split]
    have held := Array.getElem?_eq_getElem (scopeOf.placed id listed)
    rw [inputs, node?, held] at isInput
    have smaller := formed.earlier held input isInput
    obtain ⟨_, _, inside, _⟩ := exists_partner (scopeOf.tally.inputs id listed held).flip isInput
    refine ⟨smaller, ?_⟩
    rw [split, List.pairwise_append, List.pairwise_cons] at increasing
    rw [split, List.mem_append, List.mem_cons] at inside
    rcases inside with earlier | rfl | after
    · exact earlier
    · exact absurd smaller (Nat.lt_irrefl _)
    · exact absurd (increasing.2.1.1 input after) (Nat.lt_asymm smaller)
  · intro id inside
    obtain ⟨expr, unfolds⟩ := formed.exists_unfolds inside
    exact ⟨expr, expand?_eq_some_iff.2 unfolds⟩

end Graph

namespace Record

variable {record : Record} {built : Region} {graph : Graph}

/-- Where the region of a record has a graph after propagation, each statement has one scope, which
    holds a node for each read, for each value that a write leads to, pass-through merges apart, and
    for each write, and nothing else. -/
theorem scopes_populated (constructed : Region.ofRecord record = .ok built)
    (made : Graph.ofRegion built.propagate.1 = .ok graph) {statement : Region.Statement}
    (declared : statement ∈ built.propagate.1.statements.values) :
    ∃ scope, graph.scopes.filter (fun other => other.statement == statement.name) = [scope] ∧
      Graph.Populates built.propagate.1 graph statement scope := by
  have sound := (Region.sound_of_ofRecord constructed).propagate
  obtain ⟨scope, scopeOf, only⟩ := Graph.exists_scope sound made declared
  have listed : scope ∈ graph.scopes := List.mem_of_mem_filter (only ▸ List.mem_singleton_self scope)
  have increasing := Graph.increasing_of_places (Graph.places_eq_range sound made) listed
  refine ⟨scope, only, scopeOf.populates (increasing.imp ?_)⟩
  intro first second smaller same
  exact Nat.lt_irrefl _ (same ▸ smaller)

/-- The loop that scales and clamps has a populated scope. -/
theorem clamping_scopes_populated :
    ∃ built graph statement, Region.ofRecord clamping = .ok built ∧
      Graph.ofRegion built.propagate.1 = .ok graph ∧
      statement ∈ built.propagate.1.statements.values ∧
      ∃ scope, graph.scopes.filter (fun other => other.statement == statement.name) = [scope] ∧
        Graph.Populates built.propagate.1 graph statement scope := by
  obtain ⟨built, graph, statement, constructed, made, declared⟩ := clamping_generates
  exact ⟨built, graph, statement, constructed, made, declared,
    scopes_populated constructed made declared⟩

/-- Where the region of a record has a graph after propagation, its scopes are those of the
    statements that are not left out, and they share out the nodes, each of which comes after its
    inputs and has an expression. -/
theorem scopes_arranged (constructed : Region.ofRecord record = .ok built)
    (made : Graph.ofRegion built.propagate.1 = .ok graph) :
    Graph.Arranged built.propagate.1 graph ∧
      (graph.scopes.map Scope.statement).Perm
        ((record.statements.map Record.Statement.name).filter fun name =>
          name ∉ built.dropped.map Region.DroppedStatement.name) := by
  have sound := (Region.sound_of_ofRecord constructed).propagate
  have arranged := Graph.arranged_of_ofRegion sound made
  obtain ⟨draft, drafted, builtFrom⟩ := Region.ofRecord_cases constructed
  refine ⟨arranged, ?_⟩
  rw [arranged.ordered, builtFrom.dropped]
  exact built.propagate.1.statementOrder_perm_keys.trans (.of_eq (builtFrom.keys drafted))

/-- The graph of the loop that scales and clamps is arranged. -/
theorem clamping_scopes_arranged :
    ∃ built graph, Region.ofRecord clamping = .ok built ∧
      Graph.ofRegion built.propagate.1 = .ok graph ∧
      Graph.Arranged built.propagate.1 graph ∧
      (graph.scopes.map Scope.statement).Perm
        ((clamping.statements.map Record.Statement.name).filter fun name =>
          name ∉ built.dropped.map Region.DroppedStatement.name) := by
  obtain ⟨built, graph, _, constructed, made, _⟩ := clamping_generates
  exact ⟨built, graph, constructed, made, scopes_arranged constructed made⟩

end Record

end RegionFlow
