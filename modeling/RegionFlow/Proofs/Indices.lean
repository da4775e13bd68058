/-
Module: RegionFlow.Proofs.Indices
Purpose: Which dimension an index node counts. The loops of a statement are known by the references of their
  induction variables, and a loop without one is not known at all; the dimension of an induction variable is
  found by its place among those that are known. So it is the dimension of its own loop if every loop further
  out has an induction variable of its own, and one further out otherwise.
Main exports: Record.Statement.variablesBefore, Record.Statement.CountsBefore, Record.lift_indexes
-/
import RegionFlow.Proofs.Lifting

namespace RegionFlow

open Sequencing

/-- The references of the induction variables of the loops before a position. -/
def Record.Statement.variablesBefore (statement : Record.Statement) (position : Nat) :
    List String :=
  (statement.loops.take position).filterMap Instruction.definedReference?

/-- Every loop before a position has an induction variable of its own. -/
def Record.Statement.CountsBefore (statement : Record.Statement) (position : Nat) : Prop :=
  (∀ printed ∈ statement.loops.take position,
    (Instruction.definedReference? printed).isSome = true) ∧
  (statement.variablesBefore position).Nodup

/-- Names that are all different are kept when repetitions are taken out. -/
theorem eraseDups_of_nodup {names : List String} (distinct : names.Nodup) :
    names.eraseDups = names := by
  induction names with
  | nil => rfl
  | cons name names ih =>
    obtain ⟨absent, rest⟩ := List.nodup_cons.1 distinct
    have others : names.filter (fun other => !other == name) = names := by
      refine List.filter_eq_self.2 fun other member => ?_
      have differs : other ≠ name := fun same => absent (same ▸ member)
      simp [differs]
    rw [List.eraseDups_cons, others, ih rest]

namespace Region

/-- A loop stands in the table of its statement after as many loops as there are induction variables before
    it. -/
theorem Draft.EnteredFrom.indexOf? {recorded : Record.Statement} {statement : Statement}
    (entered : Draft.EnteredFrom recorded statement) {position : Nat} {printed reference : String}
    (loop : recorded.loops[position]? = some printed)
    (defined : Instruction.definedReference? printed = some reference)
    (first : reference ∉ recorded.variablesBefore position) :
    statement.loops.indexOf? reference =
      some (recorded.variablesBefore position).eraseDups.length := by
  obtain ⟨inside, rfl⟩ := List.getElem?_eq_some_iff.1 loop
  have split : recorded.loops.filterMap Instruction.definedReference? =
      recorded.variablesBefore position ++
        reference :: (recorded.loops.drop (position + 1)).filterMap Instruction.definedReference? := by
    conv_lhs => rw [← List.take_append_drop position recorded.loops, List.drop_eq_getElem_cons inside]
    rw [List.filterMap_append, List.filterMap_cons, defined]
    rfl
  have keys := entered.loops
  rw [split, List.eraseDups_append] at keys
  have apart : (reference :: (recorded.loops.drop (position + 1)).filterMap
      Instruction.definedReference?).removeAll (recorded.variablesBefore position) =
      reference :: ((recorded.loops.drop (position + 1)).filterMap
        Instruction.definedReference?).removeAll (recorded.variablesBefore position) := by
    simp [List.removeAll, first]
  rw [apart, List.eraseDups_cons] at keys
  have absent : (recorded.variablesBefore position).eraseDups.findIdx? (· = reference) = none := by
    rw [List.findIdx?_eq_none_iff]
    intro other member
    have differs : other ≠ reference := fun same => first (same ▸ List.mem_eraseDups.1 member)
    simpa using differs
  have byKeys : statement.loops.indexOf? reference =
      statement.loops.keys.findIdx? (· = reference) := by
    rw [Table.keys, List.findIdx?_map]
    rfl
  rw [byKeys, keys, List.findIdx?_append, absent, List.findIdx?_cons]
  simp

end Region

namespace Graph

variable {region : Region} {statement : Region.Statement} {dims : List String} {node : Node}

/-- An index node has the dimension of its induction variable. -/
theorem Depicts.dimOf? (depicts : Depicts region statement dims node) {dim reference : String}
    (indexes : node.kind = .index dim reference) :
    Graph.dimOf? statement dims reference = some dim := by
  cases depicts with
  | write _ _ _ _ kind =>
    rw [kind] at indexes
    cases indexes
  | @operand value found type kind =>
    have agrees := kindAgrees_of_kindOf found kind
    unfold kindAgrees at agrees
    split at agrees
    case h_3 =>
      rename_i text emitted known valueKind nodeKind
      rw [indexes] at nodeKind
      cases nodeKind
      simp only [Bool.and_eq_true, beq_iff_eq] at agrees
      exact agrees.2
    case h_7 => cases agrees
    all_goals
      rename_i nodeKind
      rw [indexes] at nodeKind
      cases nodeKind

end Graph

namespace Record

variable {record : Record} {options : Options} {lifted : Lifted}

/-- A statement of the region that a record resolves to is entered from the statement of the record with its
    name. -/
theorem enteredFrom_of_resolve {region : Region} {report : Region.Report}
    (resolved : record.resolve options = .ok (region, report)) {recorded : Statement}
    (member : recorded ∈ record.statements) {statement : Region.Statement}
    (declared : statement ∈ region.statements.values) (named : statement.name = recorded.name) :
    Region.Draft.EnteredFrom recorded statement := by
  obtain ⟨built, constructed, rfl, _, _⟩ := resolve_cases resolved
  obtain ⟨draft, drafted, builtFrom⟩ := Region.ofRecord_cases constructed
  obtain ⟨key, found⟩ := Table.exists_get?_of_mem_values declared
  have fits := (Region.ofRecord_ok constructed).1.statement found
  rw [← fits.name, named] at found
  change built.statements.get? recorded.name = some statement at found
  rw [builtFrom.statements, Table.get?_filter_eq_some_iff] at found
  exact Region.Draft.enteredFrom_of_get? drafted member found.1

/-- However a record is lifted, an index node in the scope of a statement counts the dimension whose
    number is that of the induction variables of the loops before its own; this is the dimension of
    its own loop if all these loops have an induction variable of their own. -/
theorem lift_indexes (succeeded : record.lift options = .ok lifted) {recorded : Statement}
    (member : recorded ∈ record.statements) {position : Nat} {printed reference : String}
    (loop : recorded.loops[position]? = some printed)
    (defined : Instruction.definedReference? printed = some reference)
    (first : reference ∉ recorded.variablesBefore position) {scope : Scope}
    (listed : scope ∈ lifted.graph.scopes) (named : scope.statement = recorded.name) {id : NodeId}
    (inside : id ∈ scope.nodes) {node : Node} (found : lifted.graph.node? id = some node)
    {dim : String} (indexes : node.kind = .index dim reference) :
    ∃ domain piece, Region.readPart (.domain recorded.name) recorded.domain = .ok domain ∧
      domain.pieces.filter (fun piece => piece.input.name == some recorded.name) = [piece] ∧
      piece.input.dims[(recorded.variablesBefore position).eraseDups.length]? = some dim ∧
      (recorded.CountsBefore position → piece.input.dims[position]? = some dim) := by
  obtain ⟨resolved, made⟩ := lift_cases succeeded
  have sound := sound_of_resolve resolved
  obtain ⟨statement, ordered, scopeOf⟩ :=
    exists_partner (Graph.ofRegion_ok sound made).2.flip listed
  have entered := enteredFrom_of_resolve resolved member
    (lifted.region.statementOrder_perm.mem_iff.1 ordered) (scopeOf.name.symm.trans named)
  obtain ⟨piece, only, dims⟩ := Graph.piece_of_spaceOf scopeOf.space
  have counted := (scopeOf.depicts id inside found).dimOf? indexes
  rw [Graph.dimOf?, entered.indexOf? loop defined first] at counted
  dsimp only at dims counted
  rw [← dims] at counted
  refine ⟨statement.domain, piece, entered.domain, entered.name ▸ only, counted, ?_⟩
  rintro ⟨all, distinct⟩
  have every : (recorded.variablesBefore position).length = position := by
    rw [Statement.variablesBefore, List.filterMap_length_eq_length.2 all, List.length_take]
    exact Nat.min_eq_left (Nat.le_of_lt (List.getElem?_eq_some_iff.1 loop).1)
  rwa [eraseDups_of_nodup distinct, every] at counted

/-- A statement in two loops that stores the count of the inner one. -/
def nested (outer : String) : Statement where
  name := "S"
  domain := "\x7b S[i0, i1] : 0 <= i0 <= 3 and 0 <= i1 <= 7 \x7d"
  affine := some true
  loops := [outer, "%j = phi i64 [ 0, %e ]"]
  accesses := [⟨.write, "\x7b S[i0, i1] -> A[i0, i1] \x7d", "store double %x, ptr %p", ""⟩]
  instructions := none

/-- The record of this statement. -/
def rows (outer : String) : Record where
  name := "rows"
  context := ""
  schedule := ""
  parameters := []
  arrays := [⟨"A", .array, ["*", "8"], "double", ""⟩]
  dependences := ⟨"", "", "", "", ""⟩
  instructions := "%x = sitofp i64 %j to double"
  statements := [nested outer]
  aliasGroups := []

/-- Whether the record is lifted to a graph in which the inner loop counts a dimension. -/
def innerCounts (outer dim : String) : Bool :=
  match (rows outer).lift Options.standard with
  | .ok lifted =>
    lifted.graph.scopes.any fun scope => scope.statement == "S" &&
      scope.nodes.any fun id =>
        (lifted.graph.node? id).any fun node => node.kind == .index dim "%j"
  | .error _ => false

theorem exists_of_innerCounts {outer dim : String} (counts : innerCounts outer dim = true) :
    ∃ lifted scope id node, (rows outer).lift Options.standard = .ok lifted ∧
      scope ∈ lifted.graph.scopes ∧ scope.statement = "S" ∧ id ∈ scope.nodes ∧
      lifted.graph.node? id = some node ∧ node.kind = .index dim "%j" := by
  unfold innerCounts at counts
  split at counts
  · rename_i lifted succeeded
    simp only [List.any_eq_true, Bool.and_eq_true, beq_iff_eq, Option.any_eq_true] at counts
    obtain ⟨scope, listed, named, id, inside, node, found, kind⟩ := counts
    exact ⟨lifted, scope, id, node, succeeded, listed, named, inside, found, kind⟩
  · cases counts

/-- If the outer loop has an induction variable too, the inner one counts the dimension of its loop. -/
theorem rows_lift_indexes :
    ∃ lifted scope id node, (rows "%i = phi i64 [ 0, %b ]").lift Options.standard = .ok lifted ∧
      scope ∈ lifted.graph.scopes ∧ id ∈ scope.nodes ∧ lifted.graph.node? id = some node ∧
      node.kind = .index "i1" "%j" ∧
      ∃ domain piece, Region.readPart (.domain "S") (nested "%i = phi i64 [ 0, %b ]").domain
          = .ok domain ∧
        domain.pieces.filter (fun piece => piece.input.name == some "S") = [piece] ∧
        piece.input.dims[1]? = some "i1" := by
  have counts : innerCounts "%i = phi i64 [ 0, %b ]" "i1" = true := by decide +kernel
  obtain ⟨lifted, scope, id, node, succeeded, listed, named, inside, found, kind⟩ :=
    exists_of_innerCounts counts
  have defined : Instruction.definedReference? "%j = phi i64 [ 0, %e ]" = some "%j" := by
    decide +kernel
  have first : "%j" ∉ (nested "%i = phi i64 [ 0, %b ]").variablesBefore 1 := by decide +kernel
  have before : (nested "%i = phi i64 [ 0, %b ]").CountsBefore 1 := by
    constructor
    · decide +kernel
    · decide +kernel
  obtain ⟨domain, piece, parsed, only, _, own⟩ := lift_indexes succeeded
    (List.mem_singleton.2 rfl) rfl defined first listed named inside found kind
  exact ⟨lifted, scope, id, node, succeeded, listed, inside, found, kind, domain, piece, parsed, only,
    own before⟩

/-- An index node need not count the dimension of the loop of its induction variable. -/
theorem rows_misindexes :
    ¬ ∀ (record : Record) (options : Options) (lifted : Lifted) (recorded : Statement)
      (position : Nat) (printed reference dim : String) (scope : Scope) (id : NodeId) (node : Node)
      (domain : Polyhedral.Relation) (piece : Polyhedral.Piece),
      record.lift options = .ok lifted → recorded ∈ record.statements →
      recorded.loops[position]? = some printed →
      Instruction.definedReference? printed = some reference →
      (∀ other text, recorded.loops[other]? = some text →
        Instruction.definedReference? text = some reference → other = position) →
      scope ∈ lifted.graph.scopes → scope.statement = recorded.name → id ∈ scope.nodes →
      lifted.graph.node? id = some node → node.kind = .index dim reference →
      Region.readPart (.domain recorded.name) recorded.domain = .ok domain →
      piece ∈ domain.pieces → piece.input.name = some recorded.name →
      piece.input.dims[position]? = some dim := by
  intro every
  have counts : innerCounts "" "i0" = true := by decide +kernel
  obtain ⟨lifted, scope, id, node, succeeded, listed, named, inside, found, kind⟩ :=
    exists_of_innerCounts counts
  have defined : Instruction.definedReference? "%j = phi i64 [ 0, %e ]" = some "%j" := by
    decide +kernel
  have blank : Instruction.definedReference? "" = none := by decide +kernel
  have once : ∀ other text, (nested "").loops[other]? = some text →
      Instruction.definedReference? text = some "%j" → other = 1 := by
    intro other text loop defines
    match other with
    | 0 =>
      cases loop
      rw [blank] at defines
      cases defines
    | 1 => rfl
    | other + 2 => cases loop
  have dims : succeeds (Region.readPart (.domain "S") (nested "").domain) (fun domain =>
      domain.pieces.any fun piece =>
        piece.input.name == some "S" && piece.input.dims[1]? == some "i1") = true := by
    decide +kernel
  obtain ⟨domain, parsed, dims⟩ := exists_of_succeeds dims
  simp only [List.any_eq_true, Bool.and_eq_true, beq_iff_eq] at dims
  obtain ⟨piece, member, name, second⟩ := dims
  have outer := every _ _ lifted (nested "") 1 _ _ _ scope id node domain piece succeeded
    (List.mem_singleton.2 rfl) rfl defined once listed named inside found kind parsed member name
  rw [second] at outer
  simp at outer

end Record

end RegionFlow
