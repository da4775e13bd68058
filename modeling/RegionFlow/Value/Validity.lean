/-
Module: RegionFlow.Value.Validity
Purpose: What arguments lead to. The closure lists everything reachable from some roots; validation
  looks below one root for a placeholder, a place without a value, or a value that reaches itself.
Main exports: Arena.closure, Arena.Flaw, Arena.validate
-/
import RegionFlow.Search
import RegionFlow.Value.Basic

namespace RegionFlow.Arena

/-- The places reachable from `roots` through arguments, roots included, in the order in which
    depth-first search enters them. -/
def closure (arena : Arena) (roots : List ValueId) : List ValueId :=
  Search.preorder arena.ids arena.args roots

/-- Why a value cannot be evaluated. -/
inductive Flaw where
  /-- A placeholder, or a place without a value, is reachable. -/
  | unresolved (id : ValueId)
  /-- A reachable value reaches itself. -/
  | cycle (id : ValueId)
deriving DecidableEq, Repr, Inhabited

/-- Look below `id` for a flaw. `path` holds the places on the way to `id`, and `done` those that
    were found sound; what is found sound below `id` is added. Places on a path are distinct, so
    `depth` bounds its length. -/
def soundBelow (arena : Arena) :
    (depth : Nat) → (path : List ValueId) → (id : ValueId) → (done : List ValueId) →
      Except Flaw (List ValueId)
  | 0, _, id, _ => .error (.cycle id)
  | depth + 1, path, id, done =>
    match arena.get? id with
    | none => .error (.unresolved id)
    | some value =>
      if value.isPlaceholder then .error (.unresolved id)
      else do
        let done ← value.args.foldlM (fun done child =>
          if child ∈ id :: path then .error (.cycle child)
          else if child ∈ done then .ok done
          else soundBelow arena depth (id :: path) child done) done
        return id :: done

/-- Check that neither a placeholder nor a cycle is reachable from `root`. -/
def validate (arena : Arena) (root : ValueId) : Except Flaw Unit :=
  (soundBelow arena (arena.size + 1) [] root []).map fun _ => ()

end RegionFlow.Arena
