/-
Module: RegionFlow.Proofs.ArenaGrowth
Purpose: What the operations on an arena do to its places. Adding a value leaves every earlier place as
  it was; replacing arguments changes one value and nothing but its arguments. An arena that grew
  from another holds the same value wherever the other holds one.
Main exports: Arena.Adds, Arena.Grows, Arena.Keeps, Arena.get?_setArgs
-/
import Mathlib.Data.List.Basic
import RegionFlow.Value.Basic

namespace RegionFlow.Arena

variable {arena : Arena} {id : ValueId} {value : Value}

theorem get?_eq_none_iff : arena.get? id = none ↔ arena.size ≤ id.index := by
  simp [get?, size]

/-- A place that holds a value lies within the arena. -/
theorem lt_size (found : arena.get? id = some value) : id.index < arena.size := by
  by_contra outside
  rw [get?_eq_none_iff.2 (Nat.le_of_not_lt outside)] at found
  cases found

theorem mem_ids : id ∈ arena.ids ↔ id.index < arena.size := by
  simp only [ids, List.mem_map, List.mem_range]
  constructor
  · rintro ⟨place, inside, rfl⟩
    exact inside
  · intro inside
    exact ⟨id.index, inside, rfl⟩

@[simp] theorem length_ids : arena.ids.length = arena.size := by
  simp [ids]

theorem args_of_get? (found : arena.get? id = some value) : arena.args id = value.args := by
  simp [args, found]

/-- The second arena is the first with a value at the next place. -/
def Adds (first : Arena) (value : Value) (second : Arena) : Prop :=
  ∀ id, second.get? id = if id = first.nextId then some value else first.get? id

theorem adds_push (arena : Arena) (value : Value) : arena.Adds value (arena.push value) := by
  rintro ⟨place⟩
  simp only [get?, push, nextId, Array.getElem?_push, ValueId.mk.injEq]

theorem adds_pushConstant (arena : Arena) (literal : String) (type : ScalarType) :
    arena.Adds ⟨"$c" ++ toString arena.constants, type, .constant literal, []⟩
      (arena.pushConstant literal type) :=
  adds_push arena _

/-- The second arena holds the values of the first at their places. -/
def Grows (first second : Arena) : Prop :=
  ∀ ⦃id value⦄, first.get? id = some value → second.get? id = some value

theorem Grows.refl (arena : Arena) : Grows arena arena := fun _ _ found => found

theorem Grows.trans {first second third : Arena} (one : Grows first second)
    (two : Grows second third) : Grows first third := fun _ _ found => two (one found)

/-- An arena that grew is no smaller. -/
theorem Grows.size_le {first second : Arena} (grows : Grows first second) :
    first.size ≤ second.size := by
  by_contra shrinks
  have inside : second.size < first.size := Nat.lt_of_not_le shrinks
  cases found : first.get? ⟨second.size⟩ with
  | none => exact absurd (get?_eq_none_iff.1 found) (Nat.not_le_of_lt inside)
  | some value => exact Nat.lt_irrefl _ (lt_size (grows found))

/-- Adding a value grows an arena. -/
theorem Adds.grows {second : Arena} (adds : arena.Adds value second) : Grows arena second := by
  intro id other found
  have inside : id.index < arena.size := lt_size found
  have distinct : id ≠ arena.nextId := by
    rintro rfl
    exact Nat.lt_irrefl _ inside
  rw [adds, if_neg distinct, found]

/-- The new value stands at the place after the last one. -/
theorem Adds.get?_nextId {second : Arena} (adds : arena.Adds value second) :
    second.get? arena.nextId = some value := by
  rw [adds, if_pos rfl]

/-- Any other value was there before. -/
theorem Adds.cases {second : Arena} (adds : arena.Adds value second) {other : Value}
    (found : second.get? id = some other) :
    (id = arena.nextId ∧ other = value) ∨ arena.get? id = some other := by
  rw [adds] at found
  split at found
  · rename_i same
    exact .inl ⟨same, (Option.some.inj found).symm⟩
  · exact .inr found

/-- The second arena holds the values of the first at their places, with other arguments perhaps. -/
def Keeps (first second : Arena) : Prop :=
  ∀ ⦃id value⦄, first.get? id = some value → ∃ args, second.get? id = some { value with args }

theorem Grows.keeps {first second : Arena} (grows : Grows first second) : Keeps first second :=
  fun _ value found => ⟨value.args, grows found⟩

/-- Replacing arguments changes the arguments of one value. -/
theorem get?_setArgs (arena : Arena) (owner : ValueId) (args : List ValueId) (id : ValueId) :
    (arena.setArgs owner args).get? id =
      (arena.get? id).map fun value => if id = owner then { value with args } else value := by
  obtain ⟨place⟩ := id
  obtain ⟨ownerPlace⟩ := owner
  simp only [get?, setArgs, Array.getElem?_modify, ValueId.mk.injEq]
  by_cases same : ownerPlace = place
  · subst same
    simp
  · have other : ¬ place = ownerPlace := fun h => same h.symm
    simp [same, other]

end RegionFlow.Arena
