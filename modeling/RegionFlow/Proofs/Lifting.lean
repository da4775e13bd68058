/-
Module: RegionFlow.Proofs.Lifting
Purpose: What lifting a record guarantees. The graph that comes out realizes every write of the region by one
  node. The check of a graph against a region comes to an end for every graph and accepts none that does
  not mirror the region; the graph that lifting makes always passes it, so lifting with the check gives
  what lifting without it gives.
Main exports: Record.lift_realizes, Record.agree_decides, Record.agree_passes
-/
import RegionFlow.Lift
import RegionFlow.Proofs.Agreement
import RegionFlow.Proofs.Validation

namespace RegionFlow.Record

open Search Sequencing

variable {record : Record} {options : Options} {region : Region} {report : Region.Report}

/-- Resolving a record builds its region, propagates values in it and verifies it. -/
theorem resolve_cases (resolved : record.resolve options = .ok (region, report)) :
    ∃ built, Region.ofRecord record = .ok built ∧ region = built.propagate.1 ∧
      report = built.propagate.2 ∧ region.verify = .ok () := by
  obtain ⟨built, constructed, rest⟩ := bind_eq_ok.1 resolved
  obtain ⟨_, _, rest⟩ := bind_eq_ok.1 rest
  obtain ⟨_, verified, rest⟩ := bind_eq_ok.1 rest
  cases rest
  exact ⟨built, constructed, rfl, rfl, verified⟩

/-- The region that a record resolves to is sound. -/
theorem sound_of_resolve (resolved : record.resolve options = .ok (region, report)) :
    region.Sound := by
  obtain ⟨built, constructed, rfl, _, _⟩ := resolve_cases resolved
  exact (Region.sound_of_ofRecord constructed).propagate

/-- What lifting does with a region that was resolved: it refuses a region without loops, if it is told to,
    makes the graph, and checks it, if it is told to. -/
theorem lift_of_resolve (resolved : record.resolve options = .ok (region, report)) :
    record.lift options =
      if options.pruneUnprofitable && !region.hasLoops then .error (.unprofitable region.name)
      else
        match Graph.ofRegion region, options.roundtrip with
        | .error defect, _ => .error (.defect defect)
        | .ok graph, false => .ok ⟨region, report, graph, region.metadata⟩
        | .ok graph, true =>
          match Graph.agree region graph with
          | .error defect => .error (.defect defect)
          | .ok _ => .ok ⟨region, report, graph, region.metadata⟩ := by
  rw [lift, resolved]
  change (if options.pruneUnprofitable && !region.hasLoops then _ else _) = _
  split
  · rfl
  · cases Graph.ofRegion region with
    | error defect => rfl
    | ok graph =>
      cases checked : options.roundtrip with
      | false => rfl
      | true =>
        cases agreed : Graph.agree region graph with
        | error defect => simp [bind, Except.bind, Except.mapError, agreed]
        | ok _ => simp [bind, Except.bind, Except.mapError, pure, Except.pure, agreed]

/-- Lifting a record resolves it and makes the graph of the region. -/
theorem lift_cases {lifted : Lifted} (succeeded : record.lift options = .ok lifted) :
    record.resolve options = .ok (lifted.region, lifted.report) ∧
      Graph.ofRegion lifted.region = .ok lifted.graph := by
  obtain ⟨⟨region, report⟩, resolved, _⟩ := bind_eq_ok.1 succeeded
  rw [lift_of_resolve resolved] at succeeded
  split at succeeded
  · cases succeeded
  · split at succeeded
    · cases succeeded
    · rename_i made _
      cases succeeded
      exact ⟨resolved, made⟩
    · rename_i made _
      split at succeeded
      · cases succeeded
      · cases succeeded
        exact ⟨resolved, made⟩

/-! ### A record to try things on -/

/-- A loop that scales the positive elements of an array and puts one in place of the others. -/
def clamping : Record where
  name := "clamp"
  context := "[n] -> \x7b  : n > 0 \x7d"
  schedule := "[n] -> \x7b S[i0] -> [i0] \x7d"
  parameters := [⟨"n", "i64 %n", "i64"⟩, ⟨"s", "double %s", "double"⟩]
  arrays := [⟨"A", .array, ["*"], "double", ""⟩, ⟨"B", .array, ["*"], "double", ""⟩]
  dependences := ⟨"", "", "", "", ""⟩
  instructions :=
    "%c = fcmp ogt double %a, 0.0\n" ++
    "br i1 %c, label %t, label %f\n" ++
    "%y = fmul double %a, %s\n" ++
    "%m = phi double [ %y, %t ], [ 1.0, %f ]\n" ++
    "%z = phi double [ %m, %t ], [ %m, %f ]\n"
  statements := [
    { name := "S"
      domain := "[n] -> \x7b S[i0] : 0 <= i0 < n \x7d"
      affine := some true
      loops := ["%i = phi i64 [ 0, %e ], [ %k, %b ]"]
      accesses := [
        ⟨.read, "\x7b S[i0] -> A[i0] \x7d", "%a = load double, ptr %p", ""⟩,
        ⟨.write, "\x7b S[i0] -> B[i0] \x7d", "store double %z, ptr %q", ""⟩]
      instructions := none }]
  aliasGroups := []

/-- Whether a value, if it is a selection, has a condition and two values to choose from. -/
def hasThreeIfSelection (value : Value) : Bool :=
  match value.kind with
  | .selection _ => value.args.length == 3
  | _ => true

/-- The record can be lifted; its region has a write, and its selections choose by a condition. -/
theorem clamping_lifts :
    ∃ lifted, clamping.lift Options.standard = .ok lifted ∧
      (∃ statement ∈ lifted.region.statements.values,
        ∃ entry, entry ∈ statement.writes lifted.region.arena) ∧
      Graph.SelectsByCondition lifted.region := by
  have evaluated : succeeds (clamping.lift Options.standard) (fun lifted =>
      (lifted.region.statements.values.any fun statement =>
        !(statement.writes lifted.region.arena).isEmpty) &&
      lifted.region.arena.values.toList.all hasThreeIfSelection) = true := by
    decide +kernel
  obtain ⟨lifted, succeeded, evaluated⟩ := exists_of_succeeds evaluated
  obtain ⟨some, all⟩ := Bool.and_eq_true_iff.1 evaluated
  obtain ⟨statement, declared, writes⟩ := List.any_eq_true.1 some
  have nonempty : statement.writes lifted.region.arena ≠ [] := by
    intro empty
    simp [empty] at writes
  obtain ⟨entry, member⟩ := List.exists_mem_of_ne_nil _ nonempty
  refine ⟨lifted, succeeded, ⟨statement, declared, entry, member⟩, ?_⟩
  intro id value text found kind
  have inside : value ∈ lifted.region.arena.values.toList :=
    Array.mem_toList_iff.2 (Array.mem_of_getElem? found)
  simpa [hasThreeIfSelection, kind] using List.all_eq_true.1 all value inside

/-- The region of the record has a statement and, after propagation, a graph. -/
theorem clamping_generates :
    ∃ built graph statement, Region.ofRecord clamping = .ok built ∧
      Graph.ofRegion built.propagate.1 = .ok graph ∧
      statement ∈ built.propagate.1.statements.values := by
  obtain ⟨lifted, succeeded, ⟨statement, declared, _⟩, _⟩ := clamping_lifts
  obtain ⟨resolved, made⟩ := lift_cases succeeded
  obtain ⟨built, constructed, same, _⟩ := resolve_cases resolved
  rw [same] at made declared
  exact ⟨built, lifted.graph, statement, constructed, made, declared⟩

/-- However a record is lifted, each statement has one scope in the graph, in which each of its writes has
    one node, and this node realizes the write. -/
theorem lift_realizes {lifted : Lifted} (succeeded : record.lift options = .ok lifted)
    {statement : Region.Statement} (declared : statement ∈ lifted.region.statements.values)
    {entry : String × Region.Access} (member : entry ∈ statement.writes lifted.region.arena) :
    ∃ scope id,
      lifted.graph.scopes.filter (fun other => other.statement == statement.name) = [scope] ∧
      scope.nodes.filter (lifted.graph.isWriteOf entry.2.value) = [id] ∧
      Graph.Realizes lifted.region lifted.graph entry.2 id := by
  obtain ⟨resolved, made⟩ := lift_cases succeeded
  have sound := sound_of_resolve resolved
  obtain ⟨scope, scopeOf, only⟩ := Graph.exists_scope sound made declared
  obtain ⟨id, writes, onlyNode⟩ := Graph.exists_writeNode sound declared scopeOf member
  have formed := (Graph.ofRegion_ok sound made).1
  exact ⟨scope, id, only, onlyNode, writes.realizes sound declared member
    fun computes => formed.exists_unfolds computes.lt_size⟩

/-- The write of the record that was tried is realized by one node in one scope. -/
theorem clamping_lift_realizes :
    ∃ lifted, clamping.lift Options.standard = .ok lifted ∧
      ∃ statement ∈ lifted.region.statements.values,
        ∃ entry ∈ statement.writes lifted.region.arena, ∃ scope id,
          lifted.graph.scopes.filter (fun other => other.statement == statement.name) = [scope] ∧
          scope.nodes.filter (lifted.graph.isWriteOf entry.2.value) = [id] ∧
          Graph.Realizes lifted.region lifted.graph entry.2 id := by
  obtain ⟨lifted, succeeded, ⟨statement, declared, entry, member⟩, _⟩ := clamping_lifts
  exact ⟨lifted, succeeded, statement, declared, entry, member,
    lift_realizes succeeded declared member⟩

/-- Comparison of the stored values of a region with nodes of a graph comes to an end: no sequence of
    comparisons, each of which leads to the next, goes on for ever, and the bound on their number never
    decides the outcome. -/
def ComparisonEnds (region : Region) (graph : Graph) : Prop :=
  ∀ statement ∈ region.statements.values, ∀ entry ∈ statement.writes region.arena,
    ∀ stored ∈ region.arena.args entry.2.value, ∀ nodeId,
      Acc (Graph.Calls region graph) (stored, nodeId) ∧
        ∀ depth, Graph.pairBound region graph ≤ depth →
          Graph.compareBelow region graph statement (Graph.domainDims statement) depth stored nodeId =
            Graph.compareBelow region graph statement (Graph.domainDims statement)
              (Graph.pairBound region graph) stored nodeId

/-- Comparison comes to an end in every region that a record resolves to, for every graph. -/
theorem comparisonEnds_of_resolve (resolved : record.resolve options = .ok (region, report))
    (graph : Graph) : ComparisonEnds region graph := by
  intro statement declared entry member stored isStored nodeId
  have sound := sound_of_resolve resolved
  obtain ⟨built, _, _, _, verified⟩ := resolve_cases resolved
  obtain ⟨value, array, text, incoming, found, kind, _⟩ := sound.write_kind declared member
  have listed := Region.Statement.access_of_writes member
  have below : Below region.arena.layout.parts stored entry.2.value := by
    rw [Arena.args_of_get? found] at isStored
    rw [Below, Graph.parts_of_get? found]
    rwa [Value.operands_of_composite (by rw [kind]; rfl)]
  have ends : Acc (Below region.arena.layout.parts) stored :=
    (Region.acc_of_verify verified declared listed).inv below
  have within : Within region.arena.layout.parts (Graph.pairBound region graph) stored :=
    Graph.within_pairBound graph ends
  exact ⟨Graph.calls_acc graph ends nodeId, fun depth enough =>
    Graph.compareBelow_eq_of_within within enough nodeId⟩

/-- Whatever graph it is given, the check of a resolved region comes to an end, and a graph that passes it
    mirrors the region, if all selections choose between two values by a condition. -/
theorem agree_decides (resolved : record.resolve options = .ok (region, report))
    (choices : Graph.SelectsByCondition region) (graph : Graph) :
    ComparisonEnds region graph ∧
      (Graph.agree region graph = .ok () → Graph.Mirrors region graph) :=
  ⟨comparisonEnds_of_resolve resolved graph,
    fun agrees => Graph.mirrors_of_agree (sound_of_resolve resolved) choices agrees⟩

/-- The graph of the record that was tried passes the check, so it mirrors the region. -/
theorem clamping_agree_decides :
    ∃ region report graph, clamping.resolve Options.standard = .ok (region, report) ∧
      Graph.SelectsByCondition region ∧ Graph.agree region graph = .ok () ∧
      ComparisonEnds region graph ∧ Graph.Mirrors region graph := by
  obtain ⟨lifted, succeeded, _, choices⟩ := clamping_lifts
  obtain ⟨resolved, made⟩ := lift_cases succeeded
  have agrees := Graph.agree_of_ofRegion (sound_of_resolve resolved) made
  have decides := agree_decides resolved choices lifted.graph
  exact ⟨lifted.region, lifted.report, lifted.graph, resolved, choices, agrees, decides.1,
    decides.2 agrees⟩

/-- The graph of a propagated region passes the check; so it makes no difference to lifting whether the graph
    is checked. -/
theorem agree_passes (record : Record) :
    (∀ {built graph}, Region.ofRecord record = .ok built →
      Graph.ofRegion built.propagate.1 = .ok graph →
      Graph.agree built.propagate.1 graph = .ok ()) ∧
    ∀ options : Options,
      record.lift { options with roundtrip := true } =
        record.lift { options with roundtrip := false } := by
  refine ⟨fun constructed made =>
    Graph.agree_of_ofRegion (Region.sound_of_ofRecord constructed).propagate made, ?_⟩
  intro options
  have same : record.resolve { options with roundtrip := true } =
      record.resolve { options with roundtrip := false } := rfl
  cases resolved : record.resolve { options with roundtrip := false } with
  | error failure =>
    rw [lift, lift, same, resolved]
    rfl
  | ok result =>
    obtain ⟨region, report⟩ := result
    rw [lift_of_resolve resolved, lift_of_resolve (same.trans resolved)]
    split
    · rfl
    · cases made : Graph.ofRegion region with
      | error defect => rfl
      | ok graph =>
        have agrees := Graph.agree_of_ofRegion (sound_of_resolve resolved) made
        simp only [agrees]

/-- The graph of the record that was tried passes the check. -/
theorem clamping_agree_passes :
    ∃ built graph, Region.ofRecord clamping = .ok built ∧
      Graph.ofRegion built.propagate.1 = .ok graph ∧
      Graph.agree built.propagate.1 graph = .ok () := by
  obtain ⟨lifted, succeeded, _⟩ := clamping_lifts
  obtain ⟨resolved, made⟩ := lift_cases succeeded
  obtain ⟨built, constructed, same, _⟩ := resolve_cases resolved
  rw [same] at made
  exact ⟨built, lifted.graph, constructed, made, (agree_passes clamping).1 constructed made⟩

end RegionFlow.Record
