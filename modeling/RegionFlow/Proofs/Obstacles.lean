/-
Module: RegionFlow.Proofs.Obstacles
Purpose: What keeps a sound region from having a graph. A value stands in the way if it leads to
  itself, is still a placeholder, counts a loop without a dimension, or is a merge with the wrong
  number of arguments; a statement, if its domain is empty, a union or unbounded, if a write stores
  no single value, or if what a write stores leads to such a value. Nothing else makes generation
  fail: no place without a value is met, and no value is taken for an access that is none.
Main exports: Graph.Obstructs, Graph.failsOnly_emitBelow, Graph.Hinders, Graph.failsOnly_ofRegion
-/
import RegionFlow.Proofs.Failing
import RegionFlow.Proofs.Generation

namespace RegionFlow

open Search Sequencing

namespace Region

variable {region : Region} {id : ValueId} {value : Value}

/-- A place holds what may be an argument: no write, and a read only if it is that of an access. -/
def Admissible (region : Region) (id : ValueId) : Prop :=
  ∃ value, region.arena.get? id = some value ∧ value.kind.isWrite = false ∧
    (value.isRead = true → id ∈ accessIds region.statements)

/-- Every argument may be one. -/
theorem Sound.admissible (sound : region.Sound) (found : region.arena.get? id = some value)
    {arg : ValueId} (member : arg ∈ value.args) : region.Admissible arg := by
  obtain ⟨argument, held, noWrite⟩ := sound.args found member
  exact ⟨argument, held, noWrite, sound.reads found member held⟩

/-- A value of an access belongs to an access. -/
theorem Sound.exists_accessOf? (sound : region.Sound) (listed : id ∈ accessIds region.statements) :
    ∃ access, region.accessOf? id = some access := by
  obtain ⟨statement, declared, inside⟩ := List.mem_flatMap.1 listed
  obtain ⟨access, member, rfl⟩ := List.mem_map.1 inside
  exact ⟨access, sound.accessOf?_eq_some declared member⟩

end Region

namespace Graph

variable {region : Region} {statement : Region.Statement} {dims : List String}

/-! ### Values in the way -/

/-- A value stands in the way of a graph, which is reported as a defect. -/
inductive Obstructs (region : Region) (statement : Region.Statement) (dims : List String)
    (id : ValueId) (value : Value) : Defect → Prop where
  /-- It leads to itself. -/
  | circular (loop : Relation.TransGen (Below region.arena.args) id id) :
      Obstructs region statement dims id value (.dependsOnItself value.reference)
  /-- It is still to be resolved. -/
  | unresolved (kind : value.kind = .placeholder) :
      Obstructs region statement dims id value (.notAnOperand value.reference value.kind.name)
  /-- It counts a loop that has no dimension. -/
  | uncounted {text : String} (kind : value.kind = .inductionVariable text)
      (none : dimOf? statement dims value.reference = none) :
      Obstructs region statement dims id value (.bindsNoDimension value.reference statement.name)
  /-- It chooses, but not between two values by a condition. -/
  | undecided {text : String} (kind : value.kind = .selection text) (count : value.args.length ≠ 3) :
      Obstructs region statement dims id value (.selectionOperands value.reference value.args.length)
  /-- It passes on no value, or several. -/
  | unpassed {text : String} (kind : value.kind = .forward text) (count : value.args.length ≠ 1) :
      Obstructs region statement dims id value (.forwardedValues value.reference value.args.length)

/-- A value leads to one that stands in the way. -/
def Blocked (region : Region) (statement : Region.Statement) (dims : List String) (root : ValueId)
    (defect : Defect) : Prop :=
  ∃ id value, Reaches region.arena.args root id ∧ region.arena.get? id = some value ∧
    Obstructs region statement dims id value defect

/-- What an argument is blocked by blocks the value. -/
theorem Blocked.head {id arg : ValueId} {defect : Defect} (member : arg ∈ region.arena.args id)
    (blocked : Blocked region statement dims arg defect) :
    Blocked region statement dims id defect := by
  obtain ⟨other, value, reaches, found, obstructs⟩ := blocked
  exact ⟨other, value, .head member reaches, found, obstructs⟩

/-- No kind of node is chosen only for a value that stands in the way. -/
theorem failsOnly_kindOf (sound : region.Sound) {id : ValueId} {value : Value}
    (found : region.arena.get? id = some value) (noWrite : value.kind.isWrite = false)
    (reads : value.isRead = true → id ∈ Region.accessIds region.statements)
    (solid : value.kind.isForward = false) :
    FailsOnly (Obstructs region statement dims id value) (kindOf region statement dims id value) := by
  cases kind : value.kind with
  | constant | parameter | computation =>
    simp only [kindOf, kind]
    exact failsOnly_ok _
  | placeholder =>
    simp only [kindOf, kind]
    exact failsOnly_error (kind ▸ .unresolved kind)
  | inductionVariable text =>
    simp only [kindOf, kind]
    cases counted : dimOf? statement dims value.reference with
    | none => exact failsOnly_error (.uncounted kind counted)
    | some dim => exact failsOnly_ok _
  | access direction array text incoming =>
    cases direction with
    | write =>
      rw [kind] at noWrite
      cases noWrite
    | read =>
      obtain ⟨access, owned⟩ := sound.exists_accessOf? (reads (by simp [Value.isRead, kind]))
      simp only [kindOf, kind, owned, readKind, Region.accessArray?_eq_some found kind]
      exact failsOnly_ok _
  | selection text =>
    simp only [kindOf, kind]
    split
    · exact failsOnly_ok _
    · rename_i count
      exact failsOnly_error (.undecided kind count)
  | forward text =>
    rw [kind] at solid
    cases solid

/-- A pass-through merge passes its argument on unless it stands in the way. -/
theorem failsOnly_passedOn {id : ValueId} {value : Value} {text : String}
    (kind : value.kind = .forward text) :
    FailsOnly (Obstructs region statement dims id value) (passedOn value) := by
  unfold passedOn
  split
  · exact failsOnly_ok _
  · rename_i several
    apply failsOnly_error
    apply Obstructs.unpassed kind
    intro one
    obtain ⟨passed, args⟩ := List.length_eq_one_iff.1 one
    exact several passed args

/-- Emission of a value fails only where the value leads to one that stands in the way; the bound on
    the depth never decides, because no place comes twice on a path. -/
theorem failsOnly_emitBelow (sound : region.Sound) {depth : Nat} {path : List ValueId} {id : ValueId}
    (admissible : region.Admissible id) (distinct : path.Nodup) (inside : path ⊆ region.arena.ids)
    (leads : ∀ earlier ∈ path, Relation.TransGen (Below region.arena.args) id earlier)
    (long : region.arena.size < path.length + depth) (emission : Emission) :
    FailsOnly (Blocked region statement dims id)
      ((emitBelow region statement dims depth path id).run emission) := by
  induction depth generalizing path id emission with
  | zero =>
    have short : path.length ≤ region.arena.ids.length :=
      (List.subperm_of_subset distinct inside).length_le
    simp [Arena.ids] at short
    omega
  | succ depth ih =>
    obtain ⟨value, found, noWrite, reads⟩ := admissible
    -- what an argument fails with is a reason for the value to fail, as the path grows by the value
    have below : id ∉ path → ∀ arg ∈ value.args, ∀ before,
        FailsOnly (Blocked region statement dims id)
          ((emitBelow region statement dims depth (id :: path) arg).run before) := by
      intro offPath arg member before
      have successor : arg ∈ region.arena.args id := by rwa [Arena.args_of_get? found]
      apply FailsOnly.mono fun _ blocked => Blocked.head successor blocked
      apply ih (sound.admissible found member) (List.nodup_cons.2 ⟨offPath, distinct⟩)
      · exact List.cons_subset.2 ⟨Arena.mem_ids.2 (Arena.lt_size found), inside⟩
      · intro earlier visited
        rcases List.mem_cons.1 visited with rfl | visited
        · exact .single successor
        · exact .head successor (leads earlier visited)
      · rw [List.length_cons]
        omega
    rw [emitBelow]
    refine FailsOnly.run_bind (failsOnly_ok (emission, emission)) fun _ _ got => ?_
    cases got
    cases known : emission.memo.lookup id with
    | some node => exact failsOnly_ok _
    | none =>
      simp only [found]
      split
      · rename_i onPath
        exact failsOnly_error ⟨id, value, .refl, found, .circular (leads id onPath)⟩
      · rename_i offPath
        have here : ∀ defect, Obstructs region statement dims id value defect →
            Blocked region statement dims id defect := fun _ obstructs =>
          ⟨id, value, .refl, found, obstructs⟩
        split
        · rename_i text kind
          refine FailsOnly.run_bind (failsOnly_run_liftM ((failsOnly_passedOn kind).mono here)) ?_
          intro passed _ passes
          obtain ⟨_, chosen, same⟩ := run_liftM_eq_ok.1 passes
          cases same
          have member : passed ∈ value.args := by simp [args_of_passedOn chosen]
          refine FailsOnly.run_bind (below offPath passed member emission) fun node middle _ => ?_
          exact failsOnly_ok _
        · rename_i other
          have solid : value.kind.isForward = false := by
            cases kind : value.kind with
            | forward text => exact absurd kind (other text)
            | _ => rfl
          refine FailsOnly.run_bind
            (failsOnly_run_liftM ((failsOnly_kindOf sound found noWrite reads solid).mono here)) ?_
          intro kind _ chooses
          obtain ⟨_, _, same⟩ := run_liftM_eq_ok.1 chooses
          cases same
          refine FailsOnly.run_bind (failsOnly_run_mapM (fun arg member before =>
            below offPath arg (Value.mem_args_of_mem_operands member) before) emission) ?_
          intro inputs middle _
          exact failsOnly_ok _

/-! ### Statements in the way -/

/-- A statement stands in the way of a graph, which is reported as a defect. -/
inductive Hinders (region : Region) (statement : Region.Statement) : Defect → Prop where
  /-- Its domain is empty. -/
  | empty (none : ownPieces statement = []) :
      Hinders region statement (.emptyDomain statement.name)
  /-- Its domain is a union. -/
  | union (several : 1 < (ownPieces statement).length) :
      Hinders region statement (.unionDomain statement.name (ownPieces statement).length)
  /-- A dimension of its domain lacks a bound. -/
  | unbounded {piece : Polyhedral.Piece} {bounds : Polyhedral.DimBounds}
      (only : ownPieces statement = [piece]) (listed : bounds ∈ piece.bounds.dims)
      (lacks : bounds.lower = none ∨ bounds.upper = none) :
      Hinders region statement (.unbounded bounds.name statement.name)
  /-- A write stores no value, or several. -/
  | unstored {entry : String × Region.Access} (member : entry ∈ statement.writes region.arena)
      (count : (region.arena.args entry.2.value).length ≠ 1) :
      Hinders region statement (.nothingStored entry.1 statement.name)
  /-- What a write stores leads to a value in the way. -/
  | blocked {entry : String × Region.Access} {stored : ValueId} {defect : Defect}
      (member : entry ∈ statement.writes region.arena)
      (args : region.arena.args entry.2.value = [stored])
      (blocked : Blocked region statement (domainDims statement) stored defect) :
      Hinders region statement defect

/-- A dimension has a range unless it lacks a bound. -/
theorem failsOnly_rangeOf (name : String) (bounds : Polyhedral.DimBounds) :
    FailsOnly (fun defect => (bounds.lower = none ∨ bounds.upper = none) ∧
      defect = .unbounded bounds.name name) (rangeOf name bounds) := by
  unfold rangeOf
  split
  · exact failsOnly_ok _
  · rename_i lacks
    apply failsOnly_error
    refine ⟨?_, rfl⟩
    cases lower : bounds.lower with
    | none => exact .inl rfl
    | some low =>
      cases upper : bounds.upper with
      | none => exact .inr rfl
      | some high => exact absurd upper (lacks low high lower)

/-- A statement has an iteration space unless its domain stands in the way. -/
theorem failsOnly_spaceOf : FailsOnly (Hinders region statement) (spaceOf statement) := by
  unfold spaceOf
  split
  · rename_i none
    exact failsOnly_error (.empty none)
  · rename_i piece only
    refine FailsOnly.bind (failsOnly_mapM fun bounds listed => ?_) fun _ _ => failsOnly_ok _
    refine (failsOnly_rangeOf statement.name bounds).mono fun defect lacks => ?_
    rw [lacks.2]
    exact .unbounded only listed lacks.1
  · rename_i notNone notOne
    apply failsOnly_error
    apply Hinders.union
    unfold ownPieces
    generalize statement.domain.pieces.filter
      (fun piece => piece.input.name == some statement.name) = pieces at notNone notOne
    match pieces with
    | [] => exact absurd rfl notNone
    | [piece] => exact absurd rfl (notOne piece)
    | _ :: _ :: rest => simp

/-- Emission of a read of the statement does not fail. -/
theorem failsOnly_emitRead {Cause : Defect → Prop} {entry : String × Region.Access}
    (member : entry ∈ statement.reads region.arena) (emission : Emission) :
    FailsOnly Cause ((emitRead region entry.2).run emission) := by
  obtain ⟨value, array, text, incoming, found, kind⟩ := Region.Statement.read_kind member
  simp only [emitRead, found, readKind, Region.accessArray?_eq_some found kind]
  exact failsOnly_ok _

/-- Emission of a write fails only if the write stands in the way. -/
theorem failsOnly_emitWrite (sound : region.Sound) (declared : statement ∈ region.statements.values)
    {entry : String × Region.Access} (member : entry ∈ statement.writes region.arena)
    (emission : Emission) :
    FailsOnly (Hinders region statement)
      ((emitWrite region statement (domainDims statement) entry.1 entry.2).run emission) := by
  obtain ⟨value, array, text, incoming, found, kind, _⟩ := sound.write_kind declared member
  simp only [emitWrite, found, Region.accessArray?_eq_some found kind]
  split
  · rename_i stored args
    have whole : region.arena.args entry.2.value = [stored] := by
      rw [Arena.args_of_get? found, args]
    refine FailsOnly.run_bind ?_ fun _ _ _ => failsOnly_ok _
    apply FailsOnly.mono fun _ blocked => Hinders.blocked member whole blocked
    exact failsOnly_emitBelow sound (sound.admissible found (by simp [args])) List.nodup_nil
      (List.nil_subset _) (by simp) (by simp) emission
  · rename_i several
    apply failsOnly_error
    apply Hinders.unstored member
    rw [Arena.args_of_get? found]
    intro one
    obtain ⟨stored, args⟩ := List.length_eq_one_iff.1 one
    exact several stored args

/-- Adding the scope of a statement fails only if the statement stands in the way. -/
theorem failsOnly_addScope (sound : region.Sound) (declared : statement ∈ region.statements.values)
    (graph : Graph) : FailsOnly (Hinders region statement) (addScope region graph statement) := by
  refine failsOnly_spaceOf.bind fun space spaced => ?_
  rw [← domainDims_eq spaced]
  refine FailsOnly.bind (FailsOnly.run_bind ?_ fun _ middle _ => ?_) fun _ _ => failsOnly_ok _
  · exact failsOnly_run_forM (fun _ member before => failsOnly_emitRead member before) _
  · exact failsOnly_run_forM
      (fun _ member before => failsOnly_emitWrite sound declared member before) middle

/-- A sound region has a graph unless a statement stands in the way. -/
theorem failsOnly_ofRegion (sound : region.Sound) :
    FailsOnly (fun defect => ∃ statement ∈ region.statements.values, Hinders region statement defect)
      (ofRegion region) := by
  intro defect failed
  obtain ⟨graph, statement, ordered, stepped⟩ := foldlM_eq_error failed
  have declared := region.statementOrder_perm.mem_iff.1 ordered
  exact ⟨statement, declared, failsOnly_addScope sound declared graph defect stepped⟩

end Graph

end RegionFlow
