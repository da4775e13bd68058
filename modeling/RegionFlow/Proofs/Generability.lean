/-
Module: RegionFlow.Proofs.Generability
Purpose: When a verified region has a graph. Every statement must have one piece of its domain,
  bounded in every dimension; every write must store one value; and of the values that it leads to,
  choices must have a condition and two values, pass-through merges one value, and induction
  variables a place among the dimensions. This suffices, because verification and propagation leave
  neither cycles nor placeholders; the defects that report these, or a value that is no access, do
  not arise.
Main exports: Polyhedral.Piece.IsBounded, Graph.Generable, Record.generates_iff
-/
import RegionFlow.Proofs.Bounding
import RegionFlow.Proofs.Obstacles
import RegionFlow.Proofs.Resolving
import RegionFlow.Proofs.Scopes

namespace RegionFlow

open Search Sequencing

/-! ### Bounds of pieces -/

namespace Polyhedral

/-- Each dimension of a piece has a lower and an upper bound. -/
def Piece.IsBounded (piece : Piece) : Prop :=
  List.Forall₂ (fun dim bounds => ∃ lower upper, bounds = ⟨dim, some lower, some upper⟩)
    piece.input.dims piece.bounds.dims

theorem Piece.isBounded_iff {piece : Piece} :
    piece.IsBounded ↔ ∀ bounds ∈ piece.bounds.dims, ∃ lower upper,
      bounds.lower = some lower ∧ bounds.upper = some upper := by
  rw [IsBounded, ← piece.names_bounds, List.forall₂_map_left_iff, List.forall₂_same]
  refine forall₂_congr fun bounds _ => ?_
  obtain ⟨name, lower, upper⟩ := bounds
  simp

end Polyhedral

namespace Graph

variable {region : Region} {statement : Region.Statement} {graph : Graph} {scope : Scope}

/-- What a value has to be like, to which a statement with so many dimensions leads. -/
structure Fits (statement : Region.Statement) (rank : Nat) (value : Value) : Prop where
  /-- A choice has a condition and two values. -/
  selection : ∀ text, value.kind = .selection text → value.args.length = 3
  /-- A pass-through merge has one value. -/
  forward : ∀ text, value.kind = .forward text → value.args.length = 1
  /-- An induction variable has a place among the dimensions. -/
  index : ∀ text, value.kind = .inductionVariable text →
    ∃ position, statement.loops.indexOf? value.reference = some position ∧ position < rank

/-- What a statement has to be like for a scope. -/
def Generable (region : Region) (statement : Region.Statement) : Prop :=
  ∃ piece, ownPieces statement = [piece] ∧ piece.IsBounded ∧
    ∀ entry ∈ statement.writes region.arena, ∃ stored,
      region.arena.args entry.2.value = [stored] ∧
      ∀ id value, Reaches region.arena.args stored id → region.arena.get? id = some value →
        Fits statement piece.input.dims.length value

/-! ### What a graph shows -/

/-- A statement with an iteration space has one piece, and it is bounded. -/
theorem bounded_of_spaceOf {space : Space} (spaced : spaceOf statement = .ok space) :
    ∃ piece, ownPieces statement = [piece] ∧ piece.IsBounded := by
  unfold spaceOf at spaced
  split at spaced
  · cases spaced
  · rename_i piece only
    refine ⟨piece, only, Polyhedral.Piece.isBounded_iff.2 fun bounds listed => ?_⟩
    obtain ⟨ranges, ran, _⟩ := bind_eq_ok.1 spaced
    obtain ⟨range, _, ranged⟩ := exists_partner (mapM_ok ran) listed
    unfold rangeOf at ranged
    split at ranged
    · rename_i lower upper lowerBound upperBound
      exact ⟨lower, upper, lowerBound, upperBound⟩
    · cases ranged
  · cases spaced

/-- In a scope, the chain of everything that a write stores and leads to comes to an end. -/
theorem ScopeOf.exists_passesTo (scopeOf : ScopeOf region graph.nodes statement scope)
    {entry : String × Region.Access} (member : entry ∈ statement.writes region.arena)
    {stored id : ValueId} (isStored : stored ∈ region.arena.args entry.2.value)
    (reaches : Reaches region.arena.args stored id) : ∃ last, region.arena.PassesTo id last := by
  -- the argument of a value with a node has an input to pass to
  have argument : ∀ {parent arg}, HasNode region statement parent →
      arg ∈ region.arena.args parent → ∃ last, region.arena.PassesTo arg last := by
    intro parent arg has isArg
    obtain ⟨place, listed, node, held, rfl⟩ := (scopeOf.tally.origins parent).1 has
    obtain ⟨_, _, _, source, _, passes⟩ :=
      exists_partner (scopeOf.tally.inputs place listed held) isArg
    exact ⟨source.origin, passes⟩
  induction reaches with
  | refl => exact argument (.write member) isStored
  | @tail parent child before successor ih =>
    obtain ⟨last, passes⟩ := ih
    cases passes with
    | stop found solid => exact argument (.stored member isStored before found solid) successor
    | pass found _ args rest =>
      rw [Arena.args_of_get? found, args, List.mem_singleton] at successor
      exact ⟨last, successor ▸ rest⟩

/-- In a scope, everything that a write stores and leads to is as it has to be. -/
theorem ScopeOf.fits (scopeOf : ScopeOf region graph.nodes statement scope)
    {entry : String × Region.Access} (member : entry ∈ statement.writes region.arena)
    {stored id : ValueId} (isStored : stored ∈ region.arena.args entry.2.value)
    (reaches : Reaches region.arena.args stored id) {value : Value}
    (found : region.arena.get? id = some value) :
    Fits statement (domainDims statement).length value := by
  obtain ⟨last, passes⟩ := scopeOf.exists_passesTo member isStored reaches
  cases passes with
  | pass held forward args _ =>
    cases found.symm.trans held
    refine ⟨?_, fun _ _ => by rw [args]; rfl, ?_⟩
    · intro text kind
      rw [kind] at forward
      cases forward
    · intro text kind
      rw [kind] at forward
      cases forward
  | stop held solid =>
    cases found.symm.trans held
    have has := HasNode.stored member isStored reaches found solid
    obtain ⟨place, listed, node, placed, rfl⟩ := (scopeOf.tally.origins id).1 has
    obtain ⟨_, same, _, stands⟩ := (scopeOf.depicts place listed placed).standsFor
    cases found.symm.trans same
    generalize node.kind = nodeKind at stands
    constructor
    · intro text kind
      cases stands with
      | select _ three => exact three
      | _ other =>
        rw [kind] at other
        cases other
    · intro text kind
      rw [kind] at solid
      cases solid
    · intro text kind
      cases stands with
      | index _ counted bound =>
        exact ⟨_, counted, (List.getElem?_eq_some_iff.1 bound).1⟩
      | _ other =>
        rw [kind] at other
        cases other

/-- The statements of a region with a graph are as they have to be. -/
theorem generable_of_ofRegion (sound : region.Sound) (made : ofRegion region = .ok graph)
    (declared : statement ∈ region.statements.values) : Generable region statement := by
  obtain ⟨scope, scopeOf, _⟩ := exists_scope sound made declared
  obtain ⟨piece, only, bounded⟩ := bounded_of_spaceOf scopeOf.space
  refine ⟨piece, only, bounded, fun entry member => ?_⟩
  obtain ⟨_, _, _, stored, _, _, _, args, _, _⟩ := exists_partner scopeOf.writes member
  refine ⟨stored, args, fun id value reaches found => ?_⟩
  rw [← domainDims_of_only only]
  exact scopeOf.fits member (by simp [args]) reaches found

end Graph

/-! ### What stands in the way -/

/-- A defect that is one of the region and not of the record: a value leads to itself, is
    unresolved, is taken for an access, or is missing. -/
def Defect.IsInternal : Defect → Prop
  | dependsOnItself _ | notAnOperand _ _ | readWithoutAccess _ | notAnAccess _ | writeNotAnAccess _
  | missingValue _ => True
  | _ => False

namespace Graph

variable {region : Region} {statement : Region.Statement} {defect : Defect}

/-- Where a statement is as it has to be, it stands in the way only for a defect of the region. -/
theorem Generable.isInternal (generable : Generable region statement)
    (hinders : Hinders region statement defect) : defect.IsInternal := by
  obtain ⟨piece, only, bounded, writes⟩ := generable
  cases hinders with
  | empty none =>
    rw [only] at none
    cases none
  | union several =>
    rw [only] at several
    exact absurd several (Nat.lt_irrefl 1)
  | unbounded other listed lacks =>
    cases only.symm.trans other
    obtain ⟨lower, upper, low, high⟩ := Polyhedral.Piece.isBounded_iff.1 bounded _ listed
    simp [low, high] at lacks
  | unstored member count =>
    obtain ⟨stored, args, _⟩ := writes _ member
    exact absurd (congrArg List.length args) count
  | blocked member args blocked =>
    obtain ⟨stored, same, each⟩ := writes _ member
    cases args.symm.trans same
    obtain ⟨id, value, reaches, found, obstructs⟩ := blocked
    have fits := each id value reaches found
    cases obstructs with
    | circular _ => trivial
    | unresolved _ => trivial
    | uncounted kind none =>
      obtain ⟨position, counted, inside⟩ := fits.index _ kind
      rw [← domainDims_of_only only] at inside
      simp [dimOf?, counted, List.getElem?_eq_getElem inside] at none
    | undecided kind count => exact absurd (fits.selection _ kind) count
    | unpassed kind count => exact absurd (fits.forward _ kind) count

end Graph

namespace Record

variable {record : Record} {options : Options} {region : Region} {report : Region.Report}

/-- In the region that a record resolves to, no statement stands in the way for a defect of the region. -/
theorem not_isInternal_of_resolve (resolved : record.resolve options = .ok (region, report))
    {statement : Region.Statement} (declared : statement ∈ region.statements.values) {defect : Defect}
    (hinders : Graph.Hinders region statement defect) : ¬ defect.IsInternal := by
  cases hinders with
  | empty | union | unbounded | unstored => exact not_false
  | @blocked entry stored _ member args blocked =>
    obtain ⟨id, value, reaches, found, obstructs⟩ := blocked
    obtain ⟨built, constructed, rfl, _, verified⟩ := resolve_cases resolved
    have listed := Region.Statement.access_of_writes member
    have led : Reaches built.propagate.1.arena.args entry.2.value id :=
      .head (by simp [args]) reaches
    cases obstructs with
    | circular loop =>
      have ends := acc_of_reaches led (Region.acc_args_of_verify verified declared listed)
      exact absurd loop (not_transGen_self ends)
    | unresolved kind =>
      have settled := Region.settled_of_access constructed declared listed
      obtain ⟨other, held, solid⟩ := (Region.settled_of_reaches constructed settled led).solid
      cases found.symm.trans held
      rw [Value.isPlaceholder_iff.2 kind] at solid
      cases solid
    | uncounted | undecided | unpassed => exact not_false

/-- The region that a record resolves to has a graph exactly if every statement is as it has to be
    for a scope. What generation fails with is never a defect of the region: no value leads to
    itself or cannot be an operand, and none is taken for an access that is none or has none. -/
theorem generates_iff (resolved : record.resolve options = .ok (region, report)) :
    ((∃ graph, Graph.ofRegion region = .ok graph) ↔
      ∀ statement ∈ region.statements.values, Graph.Generable region statement) ∧
    ∀ defect, Graph.ofRegion region = .error defect → ¬ defect.IsInternal := by
  have sound := sound_of_resolve resolved
  refine ⟨⟨?_, ?_⟩, ?_⟩
  · intro generated statement declared
    obtain ⟨graph, made⟩ := generated
    exact Graph.generable_of_ofRegion sound made declared
  · intro generable
    cases made : Graph.ofRegion region with
    | ok graph => exact ⟨graph, rfl⟩
    | error defect =>
      obtain ⟨statement, declared, hinders⟩ := Graph.failsOnly_ofRegion sound defect made
      exact absurd ((generable statement declared).isInternal hinders)
        (not_isInternal_of_resolve resolved declared hinders)
  · intro defect made
    obtain ⟨statement, declared, hinders⟩ := Graph.failsOnly_ofRegion sound defect made
    exact not_isInternal_of_resolve resolved declared hinders

/-- A loop that fills an array from an index on, without end. -/
def unending : Record where
  name := "unend"
  context := ""
  schedule := ""
  parameters := []
  arrays := [⟨"A", .array, ["*"], "double", ""⟩]
  dependences := ⟨"", "", "", "", ""⟩
  instructions := ""
  statements := [
    { name := "S"
      domain := "\x7b S[i0] : 0 <= i0 \x7d"
      affine := some true
      loops := ["%i = phi i64 [ 0, %e ]"]
      accesses := [⟨.write, "\x7b S[i0] -> A[i0] \x7d", "store double 1.0, ptr %p", ""⟩]
      instructions := none }]
  aliasGroups := []

/-- The loop that scales and clamps has a graph, so its statement is as it has to be; the loop
    without end resolves, but for want of an upper bound it has none, so its statement is not. -/
theorem unending_generates_iff :
    (∃ region report graph, clamping.resolve Options.standard = .ok (region, report) ∧
      Graph.ofRegion region = .ok graph ∧
      ∀ statement ∈ region.statements.values, Graph.Generable region statement) ∧
    ∃ region report, unending.resolve Options.standard = .ok (region, report) ∧
      Graph.ofRegion region = .error (.unbounded "i0" "S") ∧
      (¬ ∀ statement ∈ region.statements.values, Graph.Generable region statement) ∧
      ¬ (Defect.unbounded "i0" "S").IsInternal := by
  constructor
  · obtain ⟨lifted, succeeded, _⟩ := clamping_lifts
    obtain ⟨resolved, made⟩ := lift_cases succeeded
    exact ⟨lifted.region, lifted.report, lifted.graph, resolved, made,
      (generates_iff resolved).1.1 ⟨lifted.graph, made⟩⟩
  · have evaluated : succeeds (unending.resolve Options.standard) (fun resolved =>
        fails (Graph.ofRegion resolved.1) (· == .unbounded "i0" "S")) = true := by
      decide +kernel
    obtain ⟨⟨region, report⟩, resolved, evaluated⟩ := exists_of_succeeds evaluated
    obtain ⟨defect, failed, same⟩ := exists_of_fails evaluated
    rw [beq_iff_eq.1 same] at failed
    obtain ⟨decides, causes⟩ := generates_iff resolved
    refine ⟨region, report, resolved, failed, fun generable => ?_, causes _ failed⟩
    obtain ⟨graph, made⟩ := decides.2 generable
    rw [failed] at made
    cases made

end Record

end RegionFlow
