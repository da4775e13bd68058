/-
Module: RegionFlow.Proofs.Depth
Purpose: How deep a finite graph without cycles is below an item. A chain of successors visits no item
  twice, so it is no longer than there are items with successors, one last item apart. Every
  recursion along successors is measured by this depth.
Main exports: Search.Below, Search.Within, Search.Trail, Search.within_of_acc, Search.exists_within_iff_acc
-/
import Mathlib.Data.List.Perm.Subperm
import Mathlib.Logic.Relation
import RegionFlow.Search

namespace RegionFlow.Search

variable {α : Type} {next : α → List α}

/-- The first item is a successor of the second. -/
def Below (next : α → List α) (child parent : α) : Prop :=
  child ∈ next parent

/-- Every chain of successors that starts at an item has at most the given number of members. -/
def Within (next : α → List α) : Nat → α → Prop
  | 0, _ => False
  | depth + 1, item => ∀ child ∈ next item, Within next depth child

/-- A bound on the depth may be raised. -/
theorem Within.mono {depth bound : Nat} (le : depth ≤ bound) {item : α}
    (within : Within next depth item) : Within next bound item := by
  induction depth generalizing bound item with
  | zero => exact False.elim within
  | succ depth ih =>
    cases bound with
    | zero => exact absurd le (Nat.not_succ_le_zero depth)
    | succ bound =>
      intro child member
      exact ih (Nat.le_of_succ_le_succ le) (within child member)

/-- An item below which every chain ends does not lead back to itself. -/
theorem not_transGen_self {relation : α → α → Prop} {item : α} (ends : Acc relation item) :
    ¬ Relation.TransGen relation item item := by
  have endsLong : Acc (Relation.TransGen relation) item := acc_transGen_iff.2 ends
  clear ends
  induction endsLong with
  | intro item _ ih => exact fun loop => ih item loop loop

/-- The items on the way to an item: all of them are listed, none comes twice, and each leads to the item. -/
structure Trail (next : α → List α) (items path : List α) (item : α) : Prop where
  distinct : path.Nodup
  listed : path ⊆ items
  leads : ∀ earlier ∈ path, Relation.TransGen (Below next) item earlier

theorem trail_nil (next : α → List α) (items : List α) (item : α) : Trail next items [] item :=
  ⟨List.nodup_nil, List.nil_subset items, by simp⟩

theorem Trail.length_le {items path : List α} {item : α} (trail : Trail next items path item) :
    path.length ≤ items.length :=
  (List.subperm_of_subset trail.distinct trail.listed).length_le

/-- The way goes on from an item that does not lie on it. -/
theorem Trail.extend {items path : List α} {item child : α} (trail : Trail next items path item)
    (fresh : item ∉ path) (held : item ∈ items) (member : child ∈ next item) :
    Trail next items (item :: path) child where
  distinct := List.nodup_cons.2 ⟨fresh, trail.distinct⟩
  listed := List.cons_subset.2 ⟨held, trail.listed⟩
  leads := by
    intro earlier visited
    rcases List.mem_cons.1 visited with rfl | before
    · exact .single member
    · exact .head member (trail.leads earlier before)

/-- The depth below an item that was reached along a path: what is left of the number of items bounds
    it, because no item of the path comes again. -/
theorem Trail.within {items path : List α} {depth : Nat} {item : α} (trail : Trail next items path item)
    (listed : ∀ item, next item ≠ [] → item ∈ items) (ends : Acc (Below next) item)
    (long : items.length < path.length + depth) : Within next depth item := by
  induction depth generalizing path item with
  | zero =>
    have short := trail.length_le
    omega
  | succ depth ih =>
    intro child member
    have fresh : item ∉ path := fun visited => not_transGen_self ends (trail.leads item visited)
    have held : item ∈ items := listed item (List.ne_nil_of_mem member)
    apply ih (trail.extend fresh held member) (ends.inv member)
    rw [List.length_cons]
    omega

/-- Below an item where every chain ends, no chain is longer than there are items, plus one. -/
theorem within_of_acc {items : List α} (listed : ∀ item, next item ≠ [] → item ∈ items) {item : α}
    (ends : Acc (Below next) item) : Within next (items.length + 1) item :=
  (trail_nil next items item).within listed ends (by simp)

/-- A bound on the length of chains lets every chain end. -/
theorem Within.acc {depth : Nat} {item : α} (within : Within next depth item) :
    Acc (Below next) item := by
  induction depth generalizing item with
  | zero => exact False.elim within
  | succ depth ih => exact ⟨item, fun child member => ih (within child member)⟩

/-- Where successors are finite in number, every chain below an item ends exactly if their lengths
    are bounded. -/
theorem exists_within_iff_acc {items : List α} (listed : ∀ item, next item ≠ [] → item ∈ items) {item : α} :
    (∃ depth, Within next depth item) ↔ Acc (Below next) item := by
  constructor
  · rintro ⟨depth, within⟩
    exact within.acc
  · intro ends
    exact ⟨items.length + 1, within_of_acc listed ends⟩

end RegionFlow.Search
