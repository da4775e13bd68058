/-
Module: RegionFlow.Search
Purpose: Depth-first search along a successor function. A stack holds what is still to be looked at;
  an item that was entered before is passed over, any other is entered and its successors are put on
  top of the stack. The result lists items in the order they are entered.
Main exports: preorderFrom, preorder
-/

namespace RegionFlow.Search

variable {α : Type} [DecidableEq α]

/-- Items entered from a stack, given those entered before. Each step takes one item off the stack;
    `steps` bounds their number. -/
def preorderFrom (next : α → List α) : (steps : Nat) → (seen stack : List α) → List α
  | 0, _, _ => []
  | _ + 1, _, [] => []
  | steps + 1, seen, item :: stack =>
    if item ∈ seen then preorderFrom next steps seen stack
    else item :: preorderFrom next steps (item :: seen) (next item ++ stack)

/-- Items entered from `roots`. `items` holds every item with successors, each once: an item is
    entered at most once, so the stack receives no more than the roots and all their successors. -/
def preorder (items : List α) (next : α → List α) (roots : List α) : List α :=
  preorderFrom next (roots.length + (items.flatMap next).length) [] roots

end RegionFlow.Search
