/-
Module: RegionFlow.Proofs.Searching
Purpose: What depth-first search enters. An item is entered exactly when successors lead to it from
  one of the roots. Each step takes one item off the stack, and an item that is entered puts its
  successors on it, so the number of steps left always covers the stack and the successors of all
  items that can still be entered.
Main exports: Search.Reaches, Search.acc_of_reaches, Search.mem_preorder_iff
-/
import Mathlib.Data.List.Flatten
import RegionFlow.Proofs.Depth

namespace RegionFlow.Search

variable {α : Type} {next : α → List α}

/-- Successors lead from the first item to the second, in any number of steps. -/
def Reaches (next : α → List α) : α → α → Prop :=
  Relation.ReflTransGen fun parent child => child ∈ next parent

/-- Where every chain below an item ends, so does every chain below what it leads to. -/
theorem acc_of_reaches {root item : α} (reaches : Reaches next root item)
    (ends : Acc (Below next) root) : Acc (Below next) item := by
  induction reaches with
  | refl => exact ends
  | tail _ successor ih => exact ih.inv successor

section Search

variable [DecidableEq α]

/-- What is entered can be reached from the stack. -/
theorem reaches_of_mem_preorderFrom {steps : Nat} {seen stack : List α} {item : α}
    (entered : item ∈ preorderFrom next steps seen stack) :
    ∃ root ∈ stack, Reaches next root item := by
  fun_induction preorderFrom next steps seen stack with
  | case1 => cases entered
  | case2 => cases entered
  | case3 steps seen first stack known ih =>
    obtain ⟨root, waiting, reaches⟩ := ih entered
    exact ⟨root, List.mem_cons_of_mem first waiting, reaches⟩
  | case4 steps seen first stack fresh ih =>
    rcases List.mem_cons.1 entered with rfl | later
    · exact ⟨item, List.mem_cons_self, .refl⟩
    · obtain ⟨root, waiting, reaches⟩ := ih later
      rcases List.mem_append.1 waiting with child | waiting
      · exact ⟨first, List.mem_cons_self, .head child reaches⟩
      · exact ⟨root, List.mem_cons_of_mem first waiting, reaches⟩

/-- The number of successors that items not entered yet may put on the stack. -/
def pending (next : α → List α) (items seen : List α) : Nat :=
  ((items.filter (· ∉ seen)).flatMap next).length

/-- Entering an item takes its successors off what is pending. -/
theorem pending_cons {items seen : List α} {item : α} (listed : next item ≠ [] → item ∈ items)
    (fresh : item ∉ seen) :
    (next item).length + pending next items (item :: seen) ≤ pending next items seen := by
  induction items with
  | nil =>
    have childless : next item = [] := by
      by_contra children
      cases listed children
    simp [childless, pending]
  | cons first items ih =>
    by_cases same : first = item
    · subst same
      -- further occurrences of the item can only make the right side larger
      have fewer : pending next items (first :: seen) ≤ pending next items seen := by
        refine (List.Sublist.flatMap ?_ next).length_le
        refine List.monotone_filter_right items fun other apart => ?_
        simp only [List.mem_cons, not_or, decide_eq_true_eq] at apart ⊢
        exact apart.2
      simpa [pending, fresh] using fewer
    · have rest := ih fun children => (List.mem_cons.1 (listed children)).resolve_left (Ne.symm same)
      by_cases known : first ∈ seen
      · simpa [pending, same, known] using rest
      · simp only [pending, List.filter_cons, List.mem_cons, same, known, or_self, not_false_eq_true,
          decide_true, if_true, List.flatMap_cons, List.length_append] at rest ⊢
        omega

/-- With enough steps left, the stack is emptied: all that waits is entered, and so are the successors of all
    that is entered. -/
theorem preorderFrom_closed {items : List α} (listed : ∀ item, next item ≠ [] → item ∈ items)
    {steps : Nat} {seen stack : List α}
    (enough : stack.length + pending next items seen ≤ steps)
    (frontier : ∀ item ∈ seen, ∀ child ∈ next item, child ∈ seen ∨ child ∈ stack) :
    (∀ item ∈ stack, item ∈ seen ∨ item ∈ preorderFrom next steps seen stack) ∧
      ∀ item, item ∈ seen ∨ item ∈ preorderFrom next steps seen stack → ∀ child ∈ next item,
        child ∈ seen ∨ child ∈ preorderFrom next steps seen stack := by
  fun_induction preorderFrom next steps seen stack with
  | case1 seen stack =>
    have empty : stack = [] := List.length_eq_zero_iff.1 (by omega)
    subst empty
    simpa using frontier
  | case2 steps seen => simpa using frontier
  | case3 steps seen first stack known ih =>
    obtain ⟨waiting, closed⟩ := ih (by rw [List.length_cons] at enough; omega) (by
      intro item member child successor
      rcases frontier item member child successor with old | later
      · exact .inl old
      · rcases List.mem_cons.1 later with rfl | later
        · exact .inl known
        · exact .inr later)
    refine ⟨?_, closed⟩
    intro item member
    rcases List.mem_cons.1 member with rfl | later
    · exact .inl known
    · exact waiting item later
  | case4 steps seen first stack fresh ih =>
    have spent := pending_cons (listed first) fresh
    obtain ⟨waiting, closed⟩ := ih (by
      rw [List.length_append]
      rw [List.length_cons] at enough
      omega) (by
      intro item member child successor
      rcases List.mem_cons.1 member with rfl | old
      · exact .inr (List.mem_append_left stack successor)
      · rcases frontier item old child successor with known | later
        · exact .inl (List.mem_cons_of_mem first known)
        · rcases List.mem_cons.1 later with rfl | later
          · exact .inl List.mem_cons_self
          · exact .inr (List.mem_append_right _ later))
    have shift : ∀ item, item ∈ first :: seen ∨
        item ∈ preorderFrom next steps (first :: seen) (next first ++ stack) ↔
        item ∈ seen ∨
          item ∈ first :: preorderFrom next steps (first :: seen) (next first ++ stack) := by
      intro item
      simp only [List.mem_cons]
      tauto
    simp only [shift] at waiting closed
    refine ⟨?_, closed⟩
    intro item member
    rcases List.mem_cons.1 member with rfl | later
    · exact .inr List.mem_cons_self
    · exact waiting item (List.mem_append_right _ later)

/-- Search enters what can be reached from the roots, and nothing else. -/
theorem mem_preorder_iff {items : List α} (listed : ∀ item, next item ≠ [] → item ∈ items)
    {roots : List α} {item : α} :
    item ∈ preorder items next roots ↔ ∃ root ∈ roots, Reaches next root item := by
  refine ⟨reaches_of_mem_preorderFrom, ?_⟩
  rintro ⟨root, member, reaches⟩
  have enough : roots.length + pending next items [] ≤
      roots.length + (items.flatMap next).length := by simp [pending]
  obtain ⟨waiting, closed⟩ := preorderFrom_closed listed enough (by simp)
  simp only [List.not_mem_nil, false_or] at waiting closed
  rw [preorder]
  clear enough
  induction reaches with
  | refl => exact waiting root member
  | tail _ successor ih => exact closed _ ih _ successor

end Search

end RegionFlow.Search
