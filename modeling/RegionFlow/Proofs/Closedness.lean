/-
Module: RegionFlow.Proofs.Closedness
Purpose: Which names the scopes of a graph mention. In a confined record, texts mention only
  parameters and the dimensions of their statement. A bound of a scope is given by a link of the
  domain, so it mentions these too; but the link may compare the dimension with an expression in
  later ones. A subscript mentions dimensions of the statement whose access it is; a read may be
  that of another statement. Where neither happens, scopes are closed.
Main exports: Record.Confined, Graph.Closed, Graph.Encloses, Record.lift_encloses
-/
import RegionFlow.Proofs.Accesses
import RegionFlow.Proofs.Arrays
import RegionFlow.Proofs.Bounding
import RegionFlow.Proofs.Dropping
import RegionFlow.Proofs.Generability
import RegionFlow.Proofs.Indices

namespace RegionFlow

open Sequencing Text

/-! ### Confined records -/

namespace Polyhedral.Piece

/-- The constraints of a piece mention only its dimensions and parameters. -/
def Constrains (params : List String) (piece : Piece) : Prop :=
  ∀ constraints ∈ piece.constraints, MentionsOnly (piece.input.dims ++ params) constraints

/-- The elements that a piece leads to mention only its dimensions and parameters. -/
def Leads (params : List String) (piece : Piece) : Prop :=
  ∀ target ∈ piece.output, ∀ subscript ∈ target.dims,
    MentionsOnly (piece.input.dims ++ params) subscript

instance (params : List String) (piece : Piece) : Decidable (piece.Constrains params) :=
  inferInstanceAs (Decidable (∀ constraints ∈ piece.constraints, _))

instance (params : List String) (piece : Piece) : Decidable (piece.Leads params) :=
  inferInstanceAs (Decidable (∀ target ∈ piece.output, ∀ subscript ∈ target.dims, _))

variable {params : List String} {piece : Piece}

/-- A bound of a piece mentions what its constraints may mention. -/
theorem Constrains.bound (constrains : piece.Constrains params) {place : Nat} {text : String}
    (given : GivenBy piece.input.dims piece.links place text) :
    MentionsOnly (piece.input.dims ++ params) text := by
  intro name mentioned
  obtain ⟨link, member, comparison, term, target, limit⟩ := given
  obtain ⟨constraints, held, inside⟩ :=
    mentions_of_target? member target (mentions_of_limits limit mentioned)
  exact constrains constraints held name inside

/-- A link between two different names is outward: of two dimensions the later is bounded. -/
theorem Constrains.outward (constrains : piece.Constrains params) {link : Link}
    (member : link ∈ piece.links) (differ : link.left ≠ link.right) (bareLeft : IsBare link.left)
    (bareRight : IsBare link.right) : link.Outward piece.input.dims params := by
  rintro ⟨place, comparison, term⟩ target name mentioned
  obtain ⟨constraints, held, inside⟩ := mentions_of_target? member target mentioned
  have bare : IsBare term := by
    rcases term_of_target? target with rfl | rfl
    · exact bareLeft
    · exact bareRight
  obtain rfl : name = term := List.mem_singleton.1 (bare name mentioned)
  rcases List.mem_append.1 (constrains constraints held name inside) with dim | parameter
  · exact List.mem_append_left _ (mem_take_of_target? differ target dim)
  · exact List.mem_append_right _ parameter

end Polyhedral.Piece

namespace Record

open Region (readPart)

/-- An access starts at the dimensions of the domain, and has subscripts in them and in parameters. -/
def Access.Confined (params : List String) (statement : String) (domain : Polyhedral.Relation)
    (access : Access) : Prop :=
  ∀ relation ∈ (readPart (.accessRelation statement) access.relation).toOption,
    ∀ piece ∈ relation.pieces, piece.Leads params ∧
      ∀ space ∈ domain.pieces, space.input.name = some statement →
        piece.input.dims = space.input.dims

instance (params : List String) (statement : String) (domain : Polyhedral.Relation)
    (access : Access) : Decidable (access.Confined params statement domain) :=
  inferInstanceAs (Decidable (∀ relation ∈ (readPart (.accessRelation statement)
    access.relation).toOption, ∀ piece ∈ relation.pieces, _ ∧ _))

/-- The texts of a statement mention only the dimensions of its domain and parameters. -/
def Statement.Confined (params : List String) (statement : Statement) : Prop :=
  ∀ domain ∈ (readPart (.domain statement.name) statement.domain).toOption,
    (∀ piece ∈ domain.pieces, piece.Constrains params) ∧
      ∀ access ∈ statement.accesses, access.Confined params statement.name domain

instance (params : List String) (statement : Statement) :
    Decidable (statement.Confined params) :=
  inferInstanceAs (Decidable (∀ domain ∈ (readPart (.domain statement.name)
    statement.domain).toOption, _ ∧ _))

/-- The names of the parameters of a record. -/
def parameterNames (record : Record) : List String :=
  record.parameters.map Parameter.name

/-- Every statement of a record is confined to its domain and the parameters of the record. -/
def Confined (record : Record) : Prop :=
  ∀ statement ∈ record.statements, statement.Confined record.parameterNames

instance (record : Record) : Decidable record.Confined :=
  inferInstanceAs (Decidable (∀ statement ∈ record.statements, _))

variable {record : Record} {options : Options}

/-- A statement of the region that a record resolves to has a statement of the record that it is
    entered from. -/
theorem exists_recorded_of_resolve {region : Region} {report : Region.Report}
    (resolved : record.resolve options = .ok (region, report)) {statement : Region.Statement}
    (declared : statement ∈ region.statements.values) :
    ∃ recorded ∈ record.statements, recorded.name = statement.name ∧
      Region.Draft.EnteredFrom recorded statement ∧
      ∀ access ∈ statement.accesses.values, ∃ source ∈ recorded.accesses,
        readPart (.accessRelation recorded.name) source.relation = .ok access.relation := by
  obtain ⟨built, constructed, rfl, _, _⟩ := resolve_cases resolved
  obtain ⟨draft, drafted, builtFrom⟩ := Region.ofRecord_cases constructed
  obtain ⟨key, found⟩ := Table.exists_get?_of_mem_values declared
  have named : statement.name = key := ((Region.ofRecord_ok constructed).1.statement found).name
  have known : key ∈ built.statements.keys :=
    List.mem_map_of_mem (f := Prod.fst) (Table.get?_eq_some_iff.1 found)
  rw [builtFrom.keys drafted] at known
  obtain ⟨recorded, member, same⟩ := List.mem_map.1 (List.mem_filter.1 known).1
  have sameName : recorded.name = statement.name := same.trans named.symm
  refine ⟨recorded, member, sameName,
    enteredFrom_of_resolve resolved member declared sameName.symm, ?_⟩
  have entered := Region.accessesFrom_of_ofRecord constructed member (same ▸ found)
  intro access listed
  obtain ⟨source, inside, recordedAs⟩ := entered.exists_recorded listed
  exact ⟨source, inside, recordedAs.relation⟩

end Record

/-- A statement of a region mentions only the dimensions of its domain and parameters. -/
structure Region.Statement.Confined (params : List String) (statement : Region.Statement) : Prop where
  constraints : ∀ piece ∈ statement.domain.pieces, piece.Constrains params
  accesses : ∀ access ∈ statement.accesses.values, ∀ piece ∈ access.relation.pieces,
    piece.Leads params ∧ ∀ space ∈ Graph.ownPieces statement, piece.input.dims = space.input.dims

/-- What a confined record resolves to is confined. -/
theorem Record.Confined.resolve {record : Record} (confined : record.Confined) {options : Options}
    {region : Region} {report : Region.Report}
    (resolved : record.resolve options = .ok (region, report)) {statement : Region.Statement}
    (declared : statement ∈ region.statements.values) :
    statement.Confined record.parameterNames := by
  obtain ⟨recorded, member, named, entered, accesses⟩ :=
    exists_recorded_of_resolve resolved declared
  have read : ∀ {part : Part} {text : String} {relation : Polyhedral.Relation},
      Region.readPart part text = .ok relation →
        relation ∈ (Region.readPart part text).toOption := by
    intro part text relation parsed
    rw [parsed]
    rfl
  obtain ⟨constraints, within⟩ := confined recorded member statement.domain (read entered.domain)
  refine ⟨constraints, fun access listed piece inside => ?_⟩
  obtain ⟨source, given, parsed⟩ := accesses access listed
  obtain ⟨leads, starts⟩ := within source given access.relation (read parsed) piece inside
  refine ⟨leads, fun space own => ?_⟩
  obtain ⟨held, name⟩ := List.mem_filter.1 own
  exact starts space held ((beq_iff_eq.1 name).trans (congrArg some named.symm))

/-! ### Scopes -/

namespace Graph

open Polyhedral

variable {region : Region} {graph : Graph} {statement : Region.Statement} {scope : Scope}
  {piece : Piece} {params : List String}

/-- The bounds that a range has. -/
def boundsOf (range : IndexRange) : DimBounds :=
  ⟨range.dim, some range.lower, some range.upper⟩

/-- The ranges of a scope are the bounds of the piece that the domain of its statement has. -/
theorem bounds_of_spaceOf {space : Space} (spaced : spaceOf statement = .ok space)
    (only : ownPieces statement = [piece]) :
    piece.bounds.dims = space.ranges.map boundsOf := by
  rw [ownPieces] at only
  rw [spaceOf, only] at spaced
  obtain ⟨ranges, ran, made⟩ := bind_eq_ok.1 spaced
  cases made
  have each : ∀ {bounds : DimBounds} {range : IndexRange},
      rangeOf statement.name bounds = .ok range → boundsOf range = id bounds := by
    intro bounds range ranged
    obtain ⟨name, lower, upper⟩ := bounds
    unfold rangeOf at ranged
    split at ranged
    · rename_i low high lowerBound upperBound
      cases ranged
      cases lowerBound
      cases upperBound
      rfl
    · cases ranged
  have same : ranges.map boundsOf = piece.bounds.dims.map id :=
    map_eq_map_of_partners (fun ranged => each ranged) (mapM_ok ran)
  exact (same.trans (List.map_id _)).symm

/-- The bounds of each range mention only parameters and the dimensions of the ranges before it. -/
def BoundsWithin (params : List String) (scope : Scope) : Prop :=
  ∀ place range, scope.ranges[place]? = some range → ∀ text ∈ [range.lower, range.upper],
    MentionsOnly ((scope.ranges.take place).map IndexRange.dim ++ params) text

/-- The subscripts of the nodes of a scope mention only parameters and the dimensions of the scope. -/
def SubscriptsWithin (graph : Graph) (params : List String) (scope : Scope) : Prop :=
  ∀ id ∈ scope.nodes, ∀ node, graph.node? id = some node → ∀ array subscript,
    node.kind.touched? = some (array, subscript) → ∀ text ∈ subscript,
      MentionsOnly (scope.ranges.map IndexRange.dim ++ params) text

/-- A scope is closed: it mentions only parameters and its own dimensions, where these are there. -/
structure Closed (graph : Graph) (params : List String) (scope : Scope) : Prop where
  bounds : BoundsWithin params scope
  subscripts : SubscriptsWithin graph params scope

/-- A node of a scope touches an element on behalf of an access of a statement. -/
def TouchesFor (graph : Graph) (scope : Scope) (owner : Region.Statement) : Prop :=
  ∃ id ∈ scope.nodes, ∃ node, graph.node? id = some node ∧ node.kind.touched?.isSome = true ∧
    ∃ access ∈ owner.accesses.values, access.value = node.origin

/-- What the scope of a statement mentions, whose domain is one piece. -/
structure Encloses (region : Region) (graph : Graph) (params : List String)
    (statement : Region.Statement) (piece : Piece) (scope : Scope) : Prop where
  /-- Its ranges are those of the dimensions of the piece. -/
  dims : scope.ranges.map IndexRange.dim = piece.input.dims
  /-- Each bound is given by a link of the constraints, and mentions only dimensions of the scope
      and parameters. -/
  bounds : ∀ place range, scope.ranges[place]? = some range → ∀ text ∈ [range.lower, range.upper],
    GivenBy piece.input.dims piece.links place text ∧
      MentionsOnly (piece.input.dims ++ params) text
  /-- A link between two different names is outward. -/
  bare : ∀ link ∈ piece.links, link.left ≠ link.right → IsBare link.left → IsBare link.right →
    link.Outward piece.input.dims params
  /-- Subscripts mention only parameters and the dimensions of the domain of the statement whose
      access it is; this is the statement of the scope if the access writes. -/
  subscripts : ∀ id ∈ scope.nodes, ∀ node, graph.node? id = some node →
    ∀ array subscript, node.kind.touched? = some (array, subscript) →
      ∃ owner ∈ region.statements.values, ∃ space, ownPieces owner = [space] ∧
        (∃ access ∈ owner.accesses.values, access.value = node.origin) ∧
        (node.kind.isWrite = true → owner = statement) ∧
        ∀ text ∈ subscript, MentionsOnly (space.input.dims ++ params) text

/-- The scope of a statement is closed if the links of its domain are outward and all accesses of
    its nodes belong to statements without other dimensions. -/
theorem Encloses.closed (encloses : Encloses region graph params statement piece scope)
    (outward : ∀ link ∈ piece.links, link.Outward piece.input.dims params)
    (shared : ∀ owner ∈ region.statements.values, TouchesFor graph scope owner →
      ∀ space, ownPieces owner = [space] → space.input.dims ⊆ piece.input.dims) :
    Closed graph params scope := by
  constructor
  · intro place range found text bound name mentioned
    obtain ⟨link, member, comparison, term, target, limit⟩ :=
      (encloses.bounds place range found text bound).1
    rw [List.map_take, encloses.dims]
    exact outward link member _ target name (mentions_of_limits limit mentioned)
  · intro id inside node found array subscript touched text part name mentioned
    obtain ⟨owner, declared, space, only, owned, _, within⟩ :=
      encloses.subscripts id inside node found array subscript touched
    rw [encloses.dims]
    rcases List.mem_append.1 (within text part name mentioned) with dim | parameter
    · have touches : TouchesFor graph scope owner :=
        ⟨id, inside, node, found, by rw [touched]; rfl, owned⟩
      exact List.mem_append_left _ (shared owner declared touches space only dim)
    · exact List.mem_append_right _ parameter

/-- The element of an access of a confined statement mentions only parameters and the dimensions of
    its domain. -/
theorem mentions_of_subscriptOf (confined : statement.Confined params)
    (only : ownPieces statement = [piece]) {access : Region.Access}
    (listed : access ∈ statement.accesses.values) {array : String}
    (target : Region.Draft.targetArray? access.relation = some array) :
    ∀ text ∈ subscriptOf access.relation, MentionsOnly (piece.input.dims ++ params) text := by
  obtain ⟨first, rest, split, element⟩ := leadsTo_subscriptOf target
  obtain ⟨leads, starts⟩ := confined.accesses access listed first (by simp [split])
  rw [← starts piece (by simp [only])]
  exact leads _ element

/-- A node of a scope that touches an element has it from an access of some statement, and from one
    of the statement of the scope if it writes. -/
theorem ScopeOf.exists_owner (declared : statement ∈ region.statements.values)
    (scopeOf : ScopeOf region graph.nodes statement scope) {id : NodeId} (inside : id ∈ scope.nodes)
    {node : Node} (found : graph.node? id = some node) {array : String} {subscript : List String}
    (touched : node.kind.touched? = some (array, subscript)) :
    ∃ owner ∈ region.statements.values, ∃ access ∈ owner.accesses.values,
      access.value = node.origin ∧ subscript = subscriptOf access.relation ∧
      (node.kind.isWrite = true → owner = statement) := by
  by_cases writes : node.kind.isWrite = true
  · -- the nodes of a scope that write are those of the writes of its statement
    have among : id ∈ scope.nodes.filter (isWriteIn graph.nodes) := by
      apply List.mem_filter.2
      refine ⟨inside, ?_⟩
      change graph.nodes[id.index]? = some node at found
      rw [isWriteIn, found]
      exact writes
    obtain ⟨entry, member, _, _, _, _, _, _, placed, _⟩ :=
      exists_partner scopeOf.writes.flip among
    cases found.symm.trans placed
    cases touched
    have listed := Region.Statement.access_of_writes member
    exact ⟨statement, declared, entry.2, listed, rfl, rfl, fun _ => rfl⟩
  · obtain ⟨access, _, owned, _, same⟩ := (scopeOf.depicts id inside found).touches touched
    obtain ⟨owner, held, listed, value⟩ := Region.exists_of_accessOf? owned
    exact ⟨owner, held, access, listed, value, same, fun write => absurd write writes⟩

/-- In the graph of a confined region, each scope is that of a statement, with what it mentions. -/
theorem encloses_of_ofRegion (sound : region.Sound) (made : ofRegion region = .ok graph)
    (confined : ∀ statement ∈ region.statements.values, statement.Confined params)
    (listed : scope ∈ graph.scopes) :
    ∃ statement ∈ region.statements.values, statement.name = scope.statement ∧
      ∃ piece, ownPieces statement = [piece] ∧
        Encloses region graph params statement piece scope := by
  obtain ⟨statement, ordered, scopeOf⟩ := exists_partner (ofRegion_ok sound made).2.flip listed
  have declared := region.statementOrder_perm.mem_iff.1 ordered
  obtain ⟨piece, only, _⟩ := piece_of_spaceOf scopeOf.space
  have ranges := bounds_of_spaceOf scopeOf.space only
  have within : piece ∈ statement.domain.pieces := by
    have own : piece ∈ ownPieces statement := by simp [ownPieces, only]
    exact (List.mem_filter.1 own).1
  have constrains := (confined statement declared).constraints piece within
  refine ⟨statement, declared, scopeOf.name.symm, piece, only, ?_, ?_, ?_, ?_⟩
  · rw [← piece.names_bounds, ranges, List.map_map]
    rfl
  · intro place range found text bound
    have given : GivenBy piece.input.dims piece.links place text := by
      apply piece.from_bounds place (boundsOf range)
      · rw [ranges, List.getElem?_map, found]
        rfl
      · simpa [boundsOf, eq_comm] using bound
    exact ⟨given, constrains.bound given⟩
  · exact fun link member => constrains.outward member
  · intro id inside node found array subscript touched
    obtain ⟨owner, held, access, accessed, value, rfl, own⟩ :=
      scopeOf.exists_owner declared inside found touched
    obtain ⟨_, ownerScope, _⟩ := exists_scope sound made held
    obtain ⟨space, alone, _⟩ := piece_of_spaceOf ownerScope.space
    obtain ⟨_, _, _, _, _, _, _, target⟩ := sound.access_kind held accessed
    exact ⟨owner, held, space, alone, ⟨access, accessed, value⟩, own,
      mentions_of_subscriptOf (confined owner held) alone accessed target⟩

end Graph

namespace Record

variable {record : Record} {options : Options} {lifted : Lifted}

/-- However a confined record is lifted, each scope is that of a statement whose domain is one
    piece. Its bounds mention only parameters and dimensions of the scope, and its subscripts only
    parameters and dimensions of the statement whose access it is. The scope is closed if, besides,
    the links of the piece are outward, as all links between two different names are, and the
    statements whose accesses it has have no other dimensions. -/
theorem lift_encloses (confined : record.Confined) (succeeded : record.lift options = .ok lifted)
    {scope : Scope} (listed : scope ∈ lifted.graph.scopes) :
    ∃ statement ∈ lifted.region.statements.values, statement.name = scope.statement ∧
      ∃ piece, Graph.ownPieces statement = [piece] ∧
        Graph.Encloses lifted.region lifted.graph record.parameterNames statement piece scope ∧
        ((∀ link ∈ piece.links, link.Outward piece.input.dims record.parameterNames) →
          (∀ owner ∈ lifted.region.statements.values, Graph.TouchesFor lifted.graph scope owner →
            ∀ space, Graph.ownPieces owner = [space] → space.input.dims ⊆ piece.input.dims) →
          Graph.Closed lifted.graph record.parameterNames scope) := by
  obtain ⟨resolved, made⟩ := lift_cases succeeded
  obtain ⟨statement, declared, named, piece, only, encloses⟩ :=
    Graph.encloses_of_ofRegion (sound_of_resolve resolved) made
      (fun _ declared => confined.resolve resolved declared) listed
  exact ⟨statement, declared, named, piece, only, encloses, encloses.closed⟩

/-- A loop over a triangle whose size is a parameter. -/
def triangle : Record where
  name := "triangle"
  context := ""
  schedule := ""
  parameters := [⟨"n", "i64 %n", "i64"⟩]
  arrays := [⟨"A", .array, ["*", "64"], "double", ""⟩]
  dependences := ⟨"", "", "", "", ""⟩
  instructions := ""
  statements := [
    { name := "S"
      domain := "[n] -> \x7b S[i0, i1] : 0 <= i0 < n and 0 <= i1 <= i0 \x7d"
      affine := some true
      loops := ["%i = phi i64 [ 0, %e ]", "%j = phi i64 [ 0, %e ]"]
      accesses := [
        ⟨.write, "\x7b S[i0, i1] -> A[i0 - i1, 2i1] \x7d", "store double 1.0, ptr %p", ""⟩]
      instructions := none }]
  aliasGroups := []

theorem triangle_lifts :
    ∃ lifted scope, triangle.lift Options.standard = .ok lifted ∧ lifted.graph.scopes = [scope] ∧
      scope.ranges = [⟨"i0", "0", "n - 1"⟩, ⟨"i1", "0", "i0"⟩] ∧
      ∀ statement ∈ lifted.region.statements.values, ∀ piece ∈ Graph.ownPieces statement,
        piece.input.dims = ["i0", "i1"] ∧ ∀ link ∈ piece.links, link.Outward piece.input.dims ["n"] := by
  have evaluated : succeeds (triangle.lift Options.standard) (fun lifted =>
      lifted.graph.scopes.head?.any fun scope =>
        (lifted.graph.scopes == [scope] &&
          scope.ranges == [⟨"i0", "0", "n - 1"⟩, ⟨"i1", "0", "i0"⟩]) &&
        decide (∀ statement ∈ lifted.region.statements.values,
          ∀ piece ∈ Graph.ownPieces statement, piece.input.dims = ["i0", "i1"] ∧
            ∀ link ∈ piece.links, link.Outward piece.input.dims ["n"])) = true := by
    decide +kernel
  obtain ⟨lifted, succeeded, evaluated⟩ := exists_of_succeeds evaluated
  simp only [Option.any_eq_true, Bool.and_eq_true, beq_iff_eq, decide_eq_true_eq] at evaluated
  obtain ⟨scope, _, ⟨scopes, ranges⟩, pieces⟩ := evaluated
  exact ⟨lifted, scope, succeeded, scopes, ranges, pieces⟩

/-- The scope of the triangle is closed. -/
theorem triangle_lift_encloses :
    ∃ lifted scope, triangle.lift Options.standard = .ok lifted ∧ lifted.graph.scopes = [scope] ∧
      scope.ranges = [⟨"i0", "0", "n - 1"⟩, ⟨"i1", "0", "i0"⟩] ∧
      Graph.Closed lifted.graph ["n"] scope := by
  obtain ⟨lifted, scope, succeeded, scopes, ranges, pieces⟩ := triangle_lifts
  have confined : triangle.Confined := by decide +kernel
  have listed : scope ∈ lifted.graph.scopes := by simp [scopes]
  obtain ⟨statement, declared, _, piece, only, _, closed⟩ := lift_encloses confined succeeded listed
  obtain ⟨dims, outward⟩ := pieces statement declared piece (by simp [only])
  refine ⟨lifted, scope, succeeded, scopes, ranges, closed outward ?_⟩
  intro owner held _ space alone
  rw [dims, (pieces owner held space (by simp [alone])).1]
  exact List.Subset.refl _

/-- Scopes of confined records need not be closed: neither do the bounds of a range mention only the
    dimensions before it, nor the subscripts only the dimensions of the scope. -/
theorem crossing_opens :
    (¬ ∀ (record : Record) (options : Options) (lifted : Lifted), record.Confined →
      record.lift options = .ok lifted → ∀ scope ∈ lifted.graph.scopes,
        Graph.BoundsWithin record.parameterNames scope) ∧
    ¬ ∀ (record : Record) (options : Options) (lifted : Lifted), record.Confined →
      record.lift options = .ok lifted → ∀ scope ∈ lifted.graph.scopes,
        Graph.SubscriptsWithin lifted.graph record.parameterNames scope := by
  have confined : crossing.Confined := by decide +kernel
  obtain ⟨lifted, first, second, id, node, succeeded, scopes, outer, inner, inside, found, touched⟩ :=
    crossing_lifts
  constructor
  · intro every
    have within := every crossing _ lifted confined succeeded first (by simp [scopes])
    have bound := within 0 ⟨"i0", "0", "i1 + 1"⟩ (by simp [outer]) "i1 + 1" (by simp) "i1" (by decide)
    simp [parameterNames, crossing] at bound
  · intro every
    have within := every crossing _ lifted confined succeeded second (by simp [scopes])
    have subscript := within id inside node found _ _ touched "i1" (by simp) "i1" (by decide)
    simp [parameterNames, crossing, inner] at subscript

end Record

end RegionFlow
