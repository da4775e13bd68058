/-
Module: RegionFlow.Proofs.Arrays
Purpose: The arrays of a graph and the nodes that touch them. The storage of a region is that of its
  record, in order; the graph declares the arrays in it, in order and with their shapes. Wherever a
  node that reads or writes stands, its array is known to the region, and it has one subscript for
  each dimension of the array.
Main exports: Record.Array.storage, Region.storage_of_ofRecord, Graph.arrays_ofRegion, Graph.Typed,
  Record.lift_types
-/
import RegionFlow.Proofs.Elements

namespace RegionFlow

open Sequencing

/-- The storage that an array of a record stands for. -/
def Record.Array.storage (array : Record.Array) : Storage where
  name := array.name
  kind := array.kind
  shape := array.sizes.map Extent.ofText
  element := Text.trimmed array.type
  pointer := Text.trimmed array.pointer

namespace Region

namespace Draft

variable {draft after : Draft}

/-- An array is entered under its name, behind the others. -/
theorem storage_addStorage {array : Record.Array} (ran : draft.addStorage array = .ok after) :
    after.storage.entries = draft.storage.entries ++ [(array.name, array.storage)] := by
  unfold addStorage at ran
  split at ran
  · cases ran
  · rename_i fresh
    cases ran
    apply Table.entries_insert_of_get?_eq_none
    exact Table.contains_eq_false_iff.1 (Bool.eq_false_iff.2 fresh)

theorem storage_addParameter {parameter : Record.Parameter}
    (ran : draft.addParameter parameter = .ok after) : after.storage = draft.storage := by
  obtain ⟨type, _, entered⟩ := bind_eq_ok.1 ran
  cases entered
  rfl

/-- The storage of a draft has the arrays of the record, in order. -/
theorem storage_draftOfRecord {record : Record} (ran : draftOfRecord record = .ok draft) :
    draft.storage.entries = record.arrays.map fun array => (array.name, array.storage) := by
  obtain ⟨stored, storing, ran⟩ := bind_eq_ok.1 ran
  obtain ⟨parameterised, entering, ran⟩ := bind_eq_ok.1 ran
  obtain ⟨⟨listed, branches⟩, scanned, ran⟩ := bind_eq_ok.1 ran
  obtain ⟨lines, _, folded⟩ := scan_ok scanned
  obtain ⟨entries, appended, entered⟩ := foldlM_appends
    (fun (array : Record.Array) entry => entry = (array.name, array.storage))
    (fun draft : Draft => draft.storage.entries)
    (fun _ _ {_ _} stepped => ⟨_, storage_addStorage stepped, rfl⟩) storing
  -- nothing that comes after the arrays touches the storage
  have afterParameters : parameterised.storage = stored.storage :=
    @keeps_foldlM _ _ (fun draft => draft.storage = stored.storage) _
      (fun before stepped => (storage_addParameter stepped).trans before) _ _ rfl entering
  have afterListing : listed.storage = stored.storage := by
    have extended := extends_scanLines ({ parameterised with
      induction := inductionReferences record }, []) lines
    rw [← folded] at extended
    exact extended.storage.trans afterParameters
  have afterStatements : draft.storage = stored.storage :=
    @keeps_foldlM _ _ (fun draft => draft.storage = stored.storage) _
      (fun before stepped => (addStatement_ok stepped).1.storage.trans before) _ _ afterListing ran
  have same : entries.map id = record.arrays.map fun array => (array.name, array.storage) :=
    map_eq_map_of_partners (fun related => related) entered
  rw [afterStatements, appended, ← same, List.map_id]
  rfl

end Draft

/-- The storage of the region of a record has its arrays, in order. -/
theorem storage_of_ofRecord {record : Record} {region : Region}
    (built : ofRecord record = .ok region) :
    region.storage.entries = record.arrays.map fun array => (array.name, array.storage) := by
  obtain ⟨draft, drafted, builtFrom⟩ := ofRecord_cases built
  rw [builtFrom.storage]
  exact Draft.storage_draftOfRecord drafted

end Region

namespace Graph

/-- Declaring arrays inserts them into the table of a graph. -/
theorem arrays_foldl_declareArray (arrays : List ArrayDecl) (graph : Graph) :
    (arrays.foldl declareArray graph).arrays =
      (arrays.map fun array => (array.name, array)).foldl
        (fun table entry => table.insert entry.1 entry.2) graph.arrays := by
  induction arrays generalizing graph with
  | nil => rfl
  | cons array arrays ih => exact ih (graph.declareArray array)

theorem arrays_addScope {region : Region} {graph after : Graph} {statement : Region.Statement}
    (ran : addScope region graph statement = .ok after) : after.arrays = graph.arrays := by
  obtain ⟨_, _, ran⟩ := bind_eq_ok.1 ran
  obtain ⟨_, _, ran⟩ := bind_eq_ok.1 ran
  cases ran
  rfl

/-- The arrays of a graph are those in the storage of its region, in order, if storage is known by
    its name. -/
theorem arrays_ofRegion {region : Region} {graph : Graph}
    (named : ∀ entry ∈ region.storage.entries, entry.1 = entry.2.name)
    (made : ofRegion region = .ok graph) :
    graph.arrays.entries =
      region.arrays.map fun storage => (storage.name, declarationOf storage) := by
  have kept : graph.arrays =
      ((region.arrays.map declarationOf).foldl declareArray (empty region.name)).arrays :=
    (foldlM_ok (fun graph : Graph => graph.arrays =
        ((region.arrays.map declarationOf).foldl declareArray (empty region.name)).arrays)
      (fun _ _ => True) (fun _ _ => True) (fun _ => trivial) (fun _ _ => trivial)
      (fun _ _ => trivial)
      (fun _ _ {_ _} before stepped => ⟨(arrays_addScope stepped).trans before, trivial, trivial⟩)
      rfl made).1
  have names : region.storage.values.map Storage.name = region.storage.keys := by
    rw [Table.values, Table.keys, List.map_map]
    exact List.map_congr_left fun entry member => (named entry member).symm
  have distinct : (region.arrays.map Storage.name).Nodup := by
    have all : (region.storage.values.map Storage.name).Nodup := by
      rw [names]
      exact region.storage.nodup
    exact all.sublist (List.filter_sublist.map Storage.name)
  rw [kept, arrays_foldl_declareArray, List.map_map]
  apply Table.entries_ofList
  rw [List.map_map]
  exact distinct

/-- The storage that a node touches is known to the region and has one dimension for each subscript.
    If it is an array, the graph declares it with as many extents. -/
def Typed (region : Region) (graph : Graph) (array : String) (subscript : List String) : Prop :=
  ∃ storage, region.storage.get? array = some storage ∧ subscript.length = storage.rank ∧
    (storage.kind = .array →
      graph.arrays.get? array = some ⟨array, storage.element, storage.shape⟩)

variable {region : Region} {statement : Region.Statement} {dims : List String} {node : Node}
  {array : String} {subscript : List String}

/-- In a verified region, a node that looks like what it stands for has as many subscripts as its array has
    dimensions. -/
theorem Depicts.ranked (sound : region.Sound) (verified : region.verify = .ok ())
    (depicts : Depicts region statement dims node)
    (touched : node.kind.touched? = some (array, subscript)) :
    ∃ storage, region.storage.get? array = some storage ∧ subscript.length = storage.rank := by
  obtain ⟨access, direction, owned, touches, rfl⟩ := depicts.touches touched
  obtain ⟨owner, declared, listed, value⟩ := Region.exists_of_accessOf? owned
  rw [← value] at touches
  obtain ⟨storage, known, pieces⟩ := Region.pieces_of_verify verified declared listed touches
  -- the subscripts are those of the first piece, and verification counts those of every piece
  obtain ⟨_, _, target, _, _, there, kind, leads⟩ := sound.access_kind declared listed
  obtain ⟨first, rest, split, element⟩ := leadsTo_subscriptOf leads
  have count := (pieces first (by rw [split]; exact List.mem_cons_self)).2
  rw [element] at count
  exact ⟨storage, known, count⟩

end Graph

namespace Record

variable {record : Record} {options : Options} {lifted : Lifted}

/-- However a record is lifted, the graph declares the arrays of the record, in order and with their
    shapes, and every node that reads or writes, in whatever scope it stands, has an array that the
    region knows and one subscript for each dimension of it. -/
theorem lift_types (succeeded : record.lift options = .ok lifted) :
    lifted.region.storage.entries = (record.arrays.map fun array => (array.name, array.storage)) ∧
    lifted.graph.arrays.entries =
      (lifted.region.storage.values.filter fun storage => storage.kind = .array).map
        (fun storage => (storage.name, ⟨storage.name, storage.element, storage.shape⟩)) ∧
    ∀ scope ∈ lifted.graph.scopes, ∀ id ∈ scope.nodes, ∀ node,
      lifted.graph.node? id = some node → ∀ array subscript,
        node.kind.touched? = some (array, subscript) →
        Graph.Typed lifted.region lifted.graph array subscript := by
  obtain ⟨resolved, made⟩ := lift_cases succeeded
  have sound := sound_of_resolve resolved
  obtain ⟨built, constructed, same, _, verified⟩ := resolve_cases resolved
  have stored : lifted.region.storage.entries =
      record.arrays.map fun array => (array.name, array.storage) := by
    rw [same]
    exact (Region.storage_of_ofRecord constructed :)
  have named : ∀ entry ∈ lifted.region.storage.entries, entry.1 = entry.2.name := by
    intro entry member
    rw [stored] at member
    obtain ⟨array, _, rfl⟩ := List.mem_map.1 member
    rfl
  have declared := Graph.arrays_ofRegion named made
  refine ⟨stored, declared, ?_⟩
  intro scope listed id inside node found array subscript touched
  obtain ⟨statement, _, scopeOf⟩ := exists_partner (Graph.ofRegion_ok sound made).2.flip listed
  obtain ⟨storage, known, count⟩ :=
    (scopeOf.depicts id inside found).ranked sound verified touched
  refine ⟨storage, known, count, fun isArray => ?_⟩
  have entry := Table.get?_eq_some_iff.1 known
  have name : array = storage.name := named _ entry
  apply Table.get?_eq_some_iff.2
  rw [declared, name]
  apply List.mem_map_of_mem (f := fun storage : Storage => (storage.name, Graph.declarationOf storage))
  apply List.mem_filter.2
  exact ⟨Table.mem_values_of_get? known, by simpa using isArray⟩

/-- A double loop that reads an array, whose outer loop runs up to the inner index, and a loop
    behind it that stores what was read to a scalar. -/
def crossing : Record where
  name := "cross"
  context := ""
  schedule := ""
  parameters := []
  arrays := [⟨"A", .array, ["*", "8"], "double", ""⟩, ⟨"x", .value, [], "double", ""⟩]
  dependences := ⟨"", "", "", "", ""⟩
  instructions := ""
  statements := [
    { name := "S"
      domain := "\x7b S[i0, i1] : 0 <= i0 <= i1 + 1 and 0 <= i1 <= 7 \x7d"
      affine := some true
      loops := ["%i = phi i64 [ 0, %e ]", "%j = phi i64 [ 0, %e ]"]
      accesses := [⟨.read, "\x7b S[i0, i1] -> A[i0, i1] \x7d", "%a = load double, ptr %p", ""⟩]
      instructions := none },
    { name := "T"
      domain := "\x7b T[i0] : 0 <= i0 <= 3 \x7d"
      affine := some true
      loops := ["%i = phi i64 [ 0, %e ]"]
      accesses := [⟨.write, "\x7b T[i0] -> x[] \x7d", "store double %a, ptr %q", ""⟩]
      instructions := none }]
  aliasGroups := []

/-- A resolved region with a loop, whose statements are declared in order of execution, is lifted
    one statement after the other. -/
theorem lift_of_ordered {region : Region} {report : Region.Report} {graph : Graph}
    (resolved : record.resolve Options.standard = .ok (region, report))
    (loops : region.hasLoops = true)
    (ordered : region.statements.keys.Pairwise fun first second =>
      (Component.orderKeys (region.scheduleVector? first) (region.scheduleVector? second)).isLE)
    (ran : region.statements.values.foldlM (Graph.addScope region)
      ((region.arrays.map Graph.declarationOf).foldl Graph.declareArray (Graph.empty region.name))
        = .ok graph) :
    record.lift Options.standard = .ok ⟨region, report, graph, region.metadata⟩ := by
  have made : Graph.ofRegion region = .ok graph := by
    rw [Graph.ofRegion, Region.statementOrder_of_pairwise ordered, Table.filterMap_keys]
    exact ran
  have agrees := Graph.agree_of_ofRegion (sound_of_resolve resolved) made
  rw [lift_of_resolve resolved, loops, made]
  simp only [Options.standard, agrees, Bool.not_true, Bool.and_false, Bool.false_eq_true, if_false]

/-- The record is lifted to two scopes; that of the second statement has the read of the first. -/
theorem crossing_lifts :
    ∃ lifted first second id node, crossing.lift Options.standard = .ok lifted ∧
      lifted.graph.scopes = [first, second] ∧
      first.ranges = [⟨"i0", "0", "i1 + 1"⟩, ⟨"i1", "0", "7"⟩] ∧
      second.ranges = [⟨"i0", "0", "3"⟩] ∧ id ∈ second.nodes ∧
      lifted.graph.node? id = some node ∧
      node.kind.touched? = some ("A", ["i0", "i1"]) := by
  have evaluated : succeeds (crossing.resolve Options.standard) (fun resolved =>
      (resolved.1.hasLoops && decide (resolved.1.statements.keys.Pairwise fun first second =>
        (Component.orderKeys (resolved.1.scheduleVector? first)
          (resolved.1.scheduleVector? second)).isLE)) &&
      succeeds (resolved.1.statements.values.foldlM (Graph.addScope resolved.1)
          ((resolved.1.arrays.map Graph.declarationOf).foldl Graph.declareArray
            (Graph.empty resolved.1.name)))
        fun graph => graph.scopes.head?.any fun first => graph.scopes.getLast?.any fun second =>
          (graph.scopes == [first, second] &&
            (first.ranges == [⟨"i0", "0", "i1 + 1"⟩, ⟨"i1", "0", "7"⟩] &&
              second.ranges == [⟨"i0", "0", "3"⟩])) &&
          second.nodes.any fun id => (graph.node? id).any fun node =>
            node.kind.touched? == some ("A", ["i0", "i1"])) = true := by
    decide +kernel
  obtain ⟨⟨region, report⟩, resolved, evaluated⟩ := exists_of_succeeds evaluated
  obtain ⟨fit, evaluated⟩ := Bool.and_eq_true_iff.1 evaluated
  obtain ⟨loops, ordered⟩ := Bool.and_eq_true_iff.1 fit
  obtain ⟨graph, ran, evaluated⟩ := exists_of_succeeds evaluated
  have succeeded := lift_of_ordered resolved loops (of_decide_eq_true ordered) ran
  simp only [Bool.and_eq_true, beq_iff_eq, List.any_eq_true, Option.any_eq_true] at evaluated
  obtain ⟨first, _, second, _, ⟨scopes, outer, inner⟩, id, inside, node, found, touched⟩ := evaluated
  exact ⟨_, first, second, id, node, succeeded, scopes, outer, inner, inside, found, touched⟩

/-- The graph of the record declares the array and not the scalar, and the read in the scope of the
    second statement has two subscripts, as the array has dimensions. -/
theorem crossing_lift_types :
    ∃ lifted scope id node, crossing.lift Options.standard = .ok lifted ∧
      scope ∈ lifted.graph.scopes ∧ id ∈ scope.nodes ∧ lifted.graph.node? id = some node ∧
      node.kind.touched? = some ("A", ["i0", "i1"]) ∧
      lifted.graph.arrays.entries = [("A", ⟨"A", "double", [.unranked, .fixed 8]⟩)] ∧
      Graph.Typed lifted.region lifted.graph "A" ["i0", "i1"] := by
  obtain ⟨lifted, first, second, id, node, succeeded, scopes, _, _, inside, found, touched⟩ :=
    crossing_lifts
  obtain ⟨stored, declared, typed⟩ := lift_types succeeded
  have listed : second ∈ lifted.graph.scopes := by
    rw [scopes]
    exact List.mem_cons_of_mem first (List.mem_singleton.2 rfl)
  refine ⟨lifted, second, id, node, succeeded, listed, inside, found, touched, ?_,
    typed second listed id inside node found _ _ touched⟩
  have values : lifted.region.storage.values = crossing.arrays.map Array.storage := by
    rw [Table.values, stored, List.map_map]
    rfl
  rw [declared, values]
  decide +kernel

end Record

end RegionFlow
