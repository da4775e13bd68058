/-
Module: RegionFlow.Proofs.Inspection
Purpose: Validation as a loop. The loop marks a place when it is entered and again when it is left, and
  keeps a stack of frames: a place, and how many of its arguments were looked at. A frame stands for one
  call of the recursive search, the places that are marked as entered are its path, and what lies deeper
  in the stack waits until the call returns. So the loop ends, and with the verdict of validation.
Main exports: Arena.Inspection, Arena.Inspection.advance, Arena.Inspection.Ends, Arena.follows_soundBelow,
  Arena.ends_iff_validate
-/
import RegionFlow.Proofs.ArenaGrowth
import RegionFlow.Proofs.Depth
import RegionFlow.Value.Validity

namespace RegionFlow.Arena

open Search

/-! ### The loop -/

/-- How far a place is looked at. -/
inductive Mark where
  /-- It was entered; some of its arguments may be left. -/
  | visiting
  /-- Nothing is wrong with it and what lies below it. -/
  | done
deriving DecidableEq, Repr, Inhabited

/-- What the loop knows: the marks, and the frames that are left, the next one first. -/
structure Inspection where
  marks : ValueId → Option Mark
  stack : List (ValueId × Nat)

/-- What a round comes to. -/
inductive Round where
  | goes (next : Inspection)
  | ends (verdict : Except Flaw Unit)

namespace Inspection

/-- Set the mark of a place. -/
def mark (marks : ValueId → Option Mark) (place : ValueId) (state : Mark) : ValueId → Option Mark :=
  fun id => if id = place then some state else marks id

/-- The loop starts with a frame for the root, and nothing else is entered. -/
def start (root : ValueId) : Inspection where
  marks := mark (fun _ => none) root .visiting
  stack := [(root, 0)]

/-- One round: take the frame on top. Its place must be resolved. If an argument is left, it must not be
    one that was entered and not left; if it was never entered, it gets a frame on top. If none is
    left, the place is done. -/
def advance (arena : Arena) (now : Inspection) : Round :=
  match now.stack with
  | [] => .ends (.ok ())
  | (id, next) :: stack =>
    match arena.get? id with
    | none => .ends (.error (.unresolved id))
    | some value =>
      if value.isPlaceholder then .ends (.error (.unresolved id))
      else match value.args[next]? with
        | none => .goes ⟨mark now.marks id .done, stack⟩
        | some child =>
          match now.marks child with
          | some .visiting => .ends (.error (.cycle child))
          | some .done => .goes ⟨now.marks, (id, next + 1) :: stack⟩
          | none => .goes ⟨mark now.marks child .visiting, (child, 0) :: (id, next + 1) :: stack⟩

/-- The loop gets from one state to another in some number of rounds. -/
def Leads (arena : Arena) : Inspection → Inspection → Prop :=
  Relation.ReflTransGen fun before after => before.advance arena = .goes after

/-- The loop comes to an end with a verdict. -/
inductive Ends (arena : Arena) : Inspection → Except Flaw Unit → Prop where
  | now {state : Inspection} {verdict : Except Flaw Unit}
      (round : state.advance arena = .ends verdict) : Ends arena state verdict
  | later {state next : Inspection} {verdict : Except Flaw Unit}
      (round : state.advance arena = .goes next) (rest : Ends arena next verdict) :
      Ends arena state verdict

variable {arena : Arena} {state : Inspection} {verdict : Except Flaw Unit}

/-- The loop can end with one verdict only. -/
theorem Ends.unique (one : Ends arena state verdict) {other : Except Flaw Unit}
    (two : Ends arena state other) : verdict = other := by
  induction one with
  | now round => cases two with
    | now same =>
      cases round.symm.trans same
      rfl
    | later goes _ => cases round.symm.trans goes
  | later round _ ih => cases two with
    | now ends => cases round.symm.trans ends
    | later same rest =>
      cases round.symm.trans same
      exact ih rest

theorem Leads.ends {next : Inspection} (leads : Leads arena state next)
    (ends : Ends arena next verdict) : Ends arena state verdict := by
  induction leads using Relation.ReflTransGen.head_induction_on with
  | refl => exact ends
  | head round _ ih => exact .later round ih

/-! ### Marks of a search -/

/-- The marks while the recursive search is on a path, `done` being found sound. -/
def marksOf (path done : List ValueId) : ValueId → Option Mark :=
  fun id => if id ∈ path then some .visiting else if id ∈ done then some .done else none

theorem mark_visiting (path done : List ValueId) (id : ValueId) :
    mark (marksOf path done) id .visiting = marksOf (id :: path) done := by
  funext place
  by_cases same : place = id
  · simp [mark, marksOf, same]
  · simp [mark, marksOf, same]

theorem mark_done {path done : List ValueId} {id : ValueId} (fresh : id ∉ path) :
    mark (marksOf (id :: path) done) id .done = marksOf path (id :: done) := by
  funext place
  by_cases same : place = id
  · simp [mark, marksOf, same, fresh]
  · simp [mark, marksOf, same]

theorem start_eq (root : ValueId) : start root = ⟨marksOf [root] [], [(root, 0)]⟩ := by
  have none : marksOf [] [] = fun _ => Option.none := by
    funext id
    simp [marksOf]
  rw [start, ← none, mark_visiting]

end Inspection

/-! ### The loop follows the search -/

section Following

open Inspection

variable {arena : Arena}

/-- The loop follows a search from a state: it gets to the state that belongs to what is found sound, or
    ends with the flaw that is found. -/
def Follows (arena : Arena) (state : Inspection) (after : List ValueId → Inspection) :
    Except Flaw (List ValueId) → Prop
  | .ok done => Leads arena state (after done)
  | .error flaw => Ends arena state (.error flaw)

variable {state : Inspection} {after between : List ValueId → Inspection}
  {searched : Except Flaw (List ValueId)}

theorem follows_of_ends {flaw : Flaw} (round : state.advance arena = .ends (.error flaw)) :
    Follows arena state after (.error flaw) :=
  .now round

theorem follows_of_goes {done : List ValueId} (round : state.advance arena = .goes (after done)) :
    Follows arena state after (.ok done) :=
  .single round

theorem Follows.head {next : Inspection} (round : state.advance arena = .goes next)
    (rest : Follows arena next after searched) : Follows arena state after searched := by
  cases searched with
  | ok done => exact .head round rest
  | error flaw => exact .later round rest

/-- The loop follows two searches, one after the other. -/
theorem Follows.bind {next : List ValueId → Except Flaw (List ValueId)}
    (first : Follows arena state between searched)
    (second : ∀ done, Follows arena (between done) after (next done)) :
    Follows arena state after (searched >>= next) := by
  cases searched with
  | error flaw => exact first
  | ok done =>
    have rest := second done
    change Follows arena state after (next done)
    cases found : next done with
    | ok further =>
      rw [found] at rest
      exact first.trans rest
    | error flaw =>
      rw [found] at rest
      exact first.ends rest

variable {id : ValueId} {value : Value} {path done : List ValueId}
  {below : ValueId → List ValueId → Except Flaw (List ValueId)}

/-- The loop follows the search below a place from the frame of this place, and is left with the frames
    under it. -/
def FollowsBelow (arena : Arena) (stack : List (ValueId × Nat)) (path : List ValueId) (id : ValueId)
    (done : List ValueId) (searched : Except Flaw (List ValueId)) : Prop :=
  Follows arena ⟨marksOf (id :: path) done, (id, 0) :: stack⟩ (fun done => ⟨marksOf path done, stack⟩)
    searched

/-- What the search does with one argument of a place, `below` being the search below it. -/
def searchArgument (path : List ValueId) (below : ValueId → List ValueId → Except Flaw (List ValueId))
    (done : List ValueId) (child : ValueId) : Except Flaw (List ValueId) :=
  if child ∈ path then .error (.cycle child)
  else if child ∈ done then .ok done
  else below child done

/-- Where a frame has a resolved place and an argument is left, the round depends on its mark. -/
theorem follows_searchArgument (found : arena.get? id = some value)
    (solid : value.isPlaceholder = false) {position : Nat} {child : ValueId}
    (argument : value.args[position]? = some child) (stack : List (ValueId × Nat))
    (inner : child ∉ path →
      FollowsBelow arena ((id, position + 1) :: stack) path child done (below child done)) :
    Follows arena ⟨marksOf path done, (id, position) :: stack⟩
      (fun done => ⟨marksOf path done, (id, position + 1) :: stack⟩)
      (searchArgument path below done child) := by
  unfold searchArgument
  by_cases visited : child ∈ path
  · rw [if_pos visited]
    apply follows_of_ends
    simp [advance, found, solid, argument, marksOf, visited]
  · rw [if_neg visited]
    by_cases known : child ∈ done
    · rw [if_pos known]
      apply follows_of_goes
      simp [advance, found, solid, argument, marksOf, visited, known]
    · rw [if_neg known]
      refine Follows.head ?_ (inner visited)
      rw [← mark_visiting]
      simp [advance, found, solid, argument, marksOf, visited, known]

/-- A frame goes through the arguments that are left, one after the other. -/
theorem follows_searchArguments (found : arena.get? id = some value)
    (solid : value.isPlaceholder = false) (stack : List (ValueId × Nat)) {before rest : List ValueId}
    (split : value.args = before ++ rest) (done : List ValueId)
    (inner : ∀ child ∈ rest, child ∉ path → ∀ done position,
      FollowsBelow arena ((id, position + 1) :: stack) path child done (below child done)) :
    Follows arena ⟨marksOf path done, (id, before.length) :: stack⟩
      (fun done => ⟨marksOf path done, (id, value.args.length) :: stack⟩)
      (rest.foldlM (searchArgument path below) done) := by
  induction rest generalizing before done with
  | nil =>
    rw [List.append_nil] at split
    rw [split]
    exact .refl
  | cons child rest ih =>
    rw [List.foldlM_cons]
    have argument : value.args[before.length]? = some child := by simp [split]
    have first := follows_searchArgument found solid argument stack fun fresh =>
      inner child List.mem_cons_self fresh done before.length
    apply first.bind
    intro further
    have shifted : value.args = (before ++ [child]) ++ rest := by simp [split]
    have others := ih shifted further fun other member =>
      inner other (List.mem_cons_of_mem child member)
    rwa [List.length_append] at others

/-- The loop follows the search below the place of its frame on top, and does not touch the frames that
    lie deeper. -/
theorem follows_soundBelow {depth : Nat} (trail : Trail arena.args arena.ids path id)
    (fresh : id ∉ path) (deep : arena.size < path.length + depth) (stack : List (ValueId × Nat)) :
    FollowsBelow arena stack path id done (soundBelow arena depth path id done) := by
  -- the stack is general: while an argument is searched, the frame of its place lies below its own
  induction depth generalizing path id done stack with
  | zero =>
    have short := trail.length_le
    rw [length_ids] at short
    omega
  | succ depth ih =>
    rw [soundBelow]
    cases found : arena.get? id with
    | none =>
      apply follows_of_ends
      simp [advance, found]
    | some value =>
      cases solid : value.isPlaceholder with
      | true =>
        simp only [solid]
        apply follows_of_ends
        simp [advance, found, solid]
      | false =>
        have inner : ∀ child ∈ value.args, child ∉ id :: path → ∀ done position,
            FollowsBelow arena ((id, position + 1) :: stack) (id :: path) child done
              (soundBelow arena depth (id :: path) child done) := by
          intro child member unseen done position
          have listed : child ∈ arena.args id := by rwa [args_of_get? found]
          apply ih (trail.extend fresh (mem_ids.2 (lt_size found)) listed) unseen
          rw [List.length_cons]
          omega
        have arguments := follows_searchArguments found solid stack (List.nil_append _).symm done inner
        simp only [solid]
        apply arguments.bind
        intro further
        apply follows_of_goes
        rw [← mark_done fresh]
        simp [advance, found, solid]

end Following

/-- The loop ends, and its verdict is that of validation. -/
theorem ends_iff_validate (arena : Arena) (root : ValueId) (verdict : Except Flaw Unit) :
    Inspection.Ends arena (.start root) verdict ↔ verdict = arena.validate root := by
  have ends : Inspection.Ends arena (.start root) (arena.validate root) := by
    have followed : Follows arena (.start root) (fun done => ⟨Inspection.marksOf [] done, []⟩)
        (soundBelow arena (arena.size + 1) [] root []) := by
      rw [Inspection.start_eq]
      exact follows_soundBelow (trail_nil arena.args arena.ids root) List.not_mem_nil (by simp) []
    rw [validate]
    cases searched : soundBelow arena (arena.size + 1) [] root [] with
    | ok done =>
      rw [searched] at followed
      exact Inspection.Leads.ends followed (.now rfl)
    | error flaw =>
      rw [searched] at followed
      exact followed
  constructor
  · intro other
    exact other.unique ends
  · intro same
    rwa [same]

end RegionFlow.Arena
