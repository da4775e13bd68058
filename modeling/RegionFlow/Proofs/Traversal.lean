/-
Module: RegionFlow.Proofs.Traversal
Purpose: Search with a stack is recursive depth-first traversal. Recursion enters an item, then what
  lies below it, and only then the next sibling; a loop keeps the siblings that wait on one stack,
  those of the item entered last on top. The loop carries out the recursion on the top of the stack
  and does not touch what lies deeper, so both enter the same items in the same order, each once.
  The steps that are allowed to a search suffice to empty the stack.
Main exports: Search.Traverses, Search.Loop, Search.Loop.advance?, Search.loop_of_traverses,
  Search.traverses_preorder, Arena.closure_traverses
-/
import RegionFlow.Proofs.ArenaGrowth
import RegionFlow.Proofs.Searching
import RegionFlow.Value.Validity

namespace RegionFlow.Search

variable {α : Type} {next : α → List α}

/-! ### Recursive traversal -/

/-- Recursive traversal of items in order, `before` being entered already: an item that was entered
    is passed over; any other is entered, then its successors are traversed, then the items behind
    it. The last list holds what is entered, in order. -/
inductive Traverses (next : α → List α) : (before items order : List α) → Prop where
  | nil {before : List α} : Traverses next before [] []
  | passed {before items order : List α} {item : α} (known : item ∈ before)
      (others : Traverses next before items order) : Traverses next before (item :: items) order
  | entered {before items inside later : List α} {item : α} (fresh : item ∉ before)
      (below : Traverses next (before ++ [item]) (next item) inside)
      (others : Traverses next (before ++ item :: inside) items later) :
      Traverses next before (item :: items) (item :: (inside ++ later))

section Recursion

variable {before items order : List α}

/-- A traversal can go only one way. -/
theorem Traverses.unique (one : Traverses next before items order) {other : List α}
    (two : Traverses next before items other) : order = other := by
  induction one generalizing other with
  | nil => cases two with
    | nil => rfl
  | passed known _ ih => cases two with
    | passed _ others => exact ih others
    | entered fresh _ _ => exact absurd known fresh
  | entered fresh _ _ ihBelow ihOthers => cases two with
    | passed known _ => exact absurd known fresh
    | entered _ below others =>
      cases ihBelow below
      cases ihOthers others
      rfl

/-- A traversal enters no item twice, and none that was entered before. -/
theorem Traverses.nodup (traverses : Traverses next before items order) (distinct : before.Nodup) :
    (before ++ order).Nodup := by
  induction traverses with
  | nil => simpa using distinct
  | passed _ _ ih => exact ih distinct
  | @entered before items inside later item fresh _ _ ihBelow ihOthers =>
    have here : (before ++ [item]).Nodup :=
      (List.perm_append_singleton item before).nodup_iff.2 (List.nodup_cons.2 ⟨fresh, distinct⟩)
    have inner := ihBelow here
    rw [List.append_assoc] at inner
    have outer := ihOthers inner
    rwa [List.append_assoc] at outer

/-- A traversal of two lists of items ends with the first before it turns to the second. -/
theorem Traverses.of_append {left right : List α} (traverses : Traverses next before (left ++ right) order) :
    ∃ first second, order = first ++ second ∧ Traverses next before left first ∧
      Traverses next (before ++ first) right second := by
  induction left generalizing before order with
  | nil => exact ⟨[], order, rfl, .nil, by simpa using traverses⟩
  | cons item left ih => cases traverses with
    | passed known others =>
      obtain ⟨first, second, same, one, two⟩ := ih others
      exact ⟨first, second, same, .passed known one, two⟩
    | @entered _ _ inside _ _ fresh below others =>
      obtain ⟨first, second, rfl, one, two⟩ := ih others
      refine ⟨item :: (inside ++ first), second, by simp, .entered fresh below one, ?_⟩
      simpa using two

end Recursion

/-! ### The loop -/

/-- What a loop over a stack knows: the items entered so far, in order, and those that wait, the
    next one first. -/
structure Loop (α : Type) where
  order : List α
  stack : List α

section Loop

variable [DecidableEq α]

/-- One round: take an item off the stack; if it was not entered before, enter it and put its
    successors on top. There is no further round once the stack is empty. -/
def Loop.advance? (next : α → List α) (loop : Loop α) : Option (Loop α) :=
  match loop.stack with
  | [] => none
  | item :: stack =>
    if item ∈ loop.order then some ⟨loop.order, stack⟩
    else some ⟨loop.order ++ [item], next item ++ stack⟩

/-- The loop gets from one state to another in some number of rounds. -/
def Loop.Leads (next : α → List α) : Loop α → Loop α → Prop :=
  Relation.ReflTransGen fun before after => before.advance? next = some after

/-- The loop carries out a traversal of what lies on top of the stack, and leaves the rest of the
    stack alone. -/
theorem loop_of_traverses {before items order : List α} (traverses : Traverses next before items order)
    (stack : List α) : Loop.Leads next ⟨before, items ++ stack⟩ ⟨before ++ order, stack⟩ := by
  -- the stack is general: the siblings of an item lie below its successors while these are traversed
  induction traverses generalizing stack with
  | nil =>
    rw [List.append_nil]
    exact .refl
  | @passed before items order item known _ ih =>
    have round : Loop.advance? next ⟨before, item :: (items ++ stack)⟩ =
        some ⟨before, items ++ stack⟩ := if_pos known
    exact .head round (ih stack)
  | @entered before items inside later item fresh _ _ ihBelow ihOthers =>
    have round : Loop.advance? next ⟨before, item :: (items ++ stack)⟩ =
        some ⟨before ++ [item], next item ++ (items ++ stack)⟩ := if_neg fresh
    have inner := ihBelow (items ++ stack)
    have outer := ihOthers stack
    rw [List.append_assoc] at inner outer
    exact .head round (inner.trans outer)

/-! ### Search -/

/-- Where its steps suffice, a search enters what a recursive traversal of its stack enters. -/
theorem traverses_preorderFrom {items : List α} (listed : ∀ item, next item ≠ [] → item ∈ items)
    {steps : Nat} {seen stack : List α} (enough : stack.length + pending next items seen ≤ steps) :
    Traverses next seen.reverse stack (preorderFrom next steps seen stack) := by
  fun_induction preorderFrom next steps seen stack with
  | case1 seen stack =>
    have empty : stack = [] := List.length_eq_zero_iff.1 (by omega)
    rw [empty]
    exact .nil
  | case2 => exact .nil
  | case3 steps seen item stack known ih =>
    rw [List.length_cons] at enough
    exact .passed (List.mem_reverse.2 known) (ih (by omega))
  | case4 steps seen item stack fresh ih =>
    have spent := pending_cons (listed item) fresh
    rw [List.length_cons] at enough
    have further := ih (by rw [List.length_append]; omega)
    rw [List.reverse_cons] at further
    obtain ⟨inside, later, same, below, others⟩ := further.of_append
    rw [same]
    rw [List.append_assoc] at others
    exact .entered (fun entered => fresh (List.mem_reverse.1 entered)) below others

/-- A search from some roots is a recursive traversal of them. -/
theorem traverses_preorder {items : List α} (listed : ∀ item, next item ≠ [] → item ∈ items)
    (roots : List α) : Traverses next [] roots (preorder items next roots) := by
  have enough : roots.length + pending next items [] ≤ roots.length + (items.flatMap next).length := by
    simp [pending]
  exact traverses_preorderFrom listed enough

end Loop

end RegionFlow.Search

namespace RegionFlow.Arena

open Search

/-- A place with arguments holds a value. -/
theorem mem_ids_of_args {arena : Arena} (id : ValueId) (filled : arena.args id ≠ []) : id ∈ arena.ids := by
  rw [mem_ids]
  cases found : arena.get? id with
  | none => simp [args, found] at filled
  | some value => exact lt_size found

/-- The closure of some roots is the order in which depth-first search enters places: the loop over
    a stack, without any bound on its rounds, ends with an empty stack and has entered the closure;
    so does recursive traversal of the roots, and it can enter nothing else. No place is entered
    twice, and exactly the roots and what arguments lead to from them are entered. -/
theorem closure_traverses (arena : Arena) (roots : List ValueId) :
    Loop.Leads arena.args ⟨[], roots⟩ ⟨arena.closure roots, []⟩ ∧
      (∀ order, Traverses arena.args [] roots order ↔ order = arena.closure roots) ∧
      (arena.closure roots).Nodup ∧
      ∀ id, id ∈ arena.closure roots ↔ ∃ root ∈ roots, Reaches arena.args root id := by
  have traverses : Traverses arena.args [] roots (arena.closure roots) :=
    traverses_preorder mem_ids_of_args roots
  refine ⟨?_, ?_, ?_, ?_⟩
  · have run := loop_of_traverses traverses []
    rwa [List.append_nil, List.nil_append] at run
  · intro order
    constructor
    · intro other
      exact other.unique traverses
    · intro same
      rwa [same]
  · exact traverses.nodup List.nodup_nil
  · intro id
    exact mem_preorder_iff mem_ids_of_args

end RegionFlow.Arena
