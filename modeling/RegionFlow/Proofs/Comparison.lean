/-
Module: RegionFlow.Proofs.Comparison
Purpose: What the comparison of values and nodes decides. A node computes a value if it is of the value's
  kind and type and its inputs compute the operands, or if the value only passes on another value that
  the node computes. The comparison remembers pairs and follows the values; where the values have no
  cycle it comes to an end, whatever the graph looks like, and it accepts exactly the pairs in which
  the node computes the value.
Main exports: Graph.Computes, Graph.Calls, Graph.calls_acc, Graph.compareBelow_eq_of_within,
  Graph.run_compareBelow_sound, Graph.run_compareBelow_complete
-/
import RegionFlow.Graph.Agreement
import RegionFlow.Proofs.Unfolding

namespace RegionFlow.Graph

open Search Sequencing

variable {region : Region} {statement : Region.Statement} {dims : List String}

/-- A node computes a value of a statement. -/
inductive Computes (region : Region) (statement : Region.Statement) (dims : List String)
    (nodes : Array Node) : ValueId → NodeId → Prop where
  /-- The value passes on a value that the node computes. -/
  | passedOn {id passed : ValueId} {nodeId : NodeId} {value : Value} {text : String}
      (found : region.arena.get? id = some value)
      (kind : value.kind = .forward text)
      (args : value.args = [passed])
      (computes : Computes region statement dims nodes passed nodeId) :
      Computes region statement dims nodes id nodeId
  /-- Kind and type agree, and the inputs compute the operands one by one. -/
  | made {id : ValueId} {nodeId : NodeId} {value : Value} {node : Node}
      (found : region.arena.get? id = some value)
      (placed : nodes[nodeId.index]? = some node)
      (type : node.type = value.type)
      (kind : kindAgrees region statement dims id value node.kind = true)
      (aligned : value.operands.length = node.inputs.length)
      (each : ∀ pair ∈ value.operands.zip node.inputs,
        Computes region statement dims nodes pair.1 pair.2) :
      Computes region statement dims nodes id nodeId

theorem parts_of_get? {arena : Arena} {id : ValueId} {value : Value}
    (found : arena.get? id = some value) : arena.layout.parts id = value.operands := by
  simp [Layout.parts, Arena.layout, found]

theorem operands_of_forward {value : Value} {text : String} (kind : value.kind = .forward text) :
    value.operands = value.args :=
  Value.operands_of_composite (by rw [kind]; rfl)

/-- What computes a value is a node. -/
theorem Computes.placed {nodes : Array Node} {id : ValueId} {nodeId : NodeId}
    (computes : Computes region statement dims nodes id nodeId) :
    ∃ node, nodes[nodeId.index]? = some node := by
  induction computes with
  | passedOn _ _ _ _ ih => exact ih
  | made _ placed _ _ _ _ => exact ⟨_, placed⟩

theorem Computes.lt_size {nodes : Array Node} {id : ValueId} {nodeId : NodeId}
    (computes : Computes region statement dims nodes id nodeId) : nodeId.index < nodes.size := by
  obtain ⟨node, placed⟩ := computes.placed
  exact (Array.getElem?_eq_some_iff.1 placed).1

/-- A value that some node computes leads to no cycle. -/
theorem Computes.acc {nodes : Array Node} {id : ValueId} {nodeId : NodeId}
    (computes : Computes region statement dims nodes id nodeId) :
    Acc (Below region.arena.layout.parts) id := by
  induction computes with
  | @passedOn id passed nodeId value text found kind args _ ih =>
    constructor
    intro part member
    rw [Below, parts_of_get? found, operands_of_forward kind, args, List.mem_singleton] at member
    exact member ▸ ih
  | @made id nodeId value node found placed type kind aligned each ih =>
    constructor
    intro part member
    rw [Below, parts_of_get? found] at member
    have ended : List.Forall₂ (fun part _ => Acc (Below region.arena.layout.parts) part)
        value.operands node.inputs :=
      List.forall₂_iff_zip.2 ⟨aligned, fun member => ih _ member⟩
    obtain ⟨_, _, ends⟩ := exists_partner ended member
    exact ends

/-! ### One step of the comparison -/

/-- Equality of pairs of places is lawful. The instance has a name, for the decision whether a pair
    was met to be the same term wherever it is made. -/
local instance lawfulPairs : LawfulBEq (ValueId × NodeId) := inferInstance

/-- One step of the comparison, given how the pairs it leads to are compared. -/
def compareStep (region : Region) (graph : Graph) (statement : Region.Statement)
    (dims : List String) (compare : ValueId → NodeId → Comparing Unit) (id : ValueId)
    (nodeId : NodeId) : Comparing Unit := do
  if (id, nodeId) ∈ (← get) then return ()
  match graph.node? nodeId, region.arena.get? id with
  | some node, some value =>
    match value.kind with
    | .forward _ =>
      match value.args with
      | [passed] =>
        compare passed nodeId
        modify ((id, nodeId) :: ·)
      | _ => throw (id, nodeId)
    | _ =>
      if node.type = value.type && kindAgrees region statement dims id value node.kind
          && value.operands.length == node.inputs.length then
        (value.operands.zip node.inputs).forM fun pair => compare pair.1 pair.2
        modify ((id, nodeId) :: ·)
      else throw (id, nodeId)
  | _, _ => throw (id, nodeId)

theorem compareBelow_succ (region : Region) (graph : Graph) (statement : Region.Statement)
    (dims : List String) (depth : Nat) :
    compareBelow region graph statement dims (depth + 1) =
      compareStep region graph statement dims (compareBelow region graph statement dims depth) :=
  rfl

/-- Comparing the second pair leads to comparing the first. -/
def Calls (region : Region) (graph : Graph) (next pair : ValueId × NodeId) : Prop :=
  ∃ value node, region.arena.get? pair.1 = some value ∧ graph.node? pair.2 = some node ∧
    ((∃ text, value.kind = .forward text ∧ value.args = [next.1] ∧ next.2 = pair.2) ∨
      ((∀ text, value.kind ≠ .forward text) ∧ next ∈ value.operands.zip node.inputs))

/-- The values of a pair that is compared next are operands. -/
theorem Calls.below {graph : Graph} {next pair : ValueId × NodeId}
    (calls : Calls region graph next pair) : Below region.arena.layout.parts next.1 pair.1 := by
  obtain ⟨value, node, found, _, ⟨text, kind, args, _⟩ | ⟨_, member⟩⟩ := calls
  · rw [Below, parts_of_get? found, operands_of_forward kind, args]
    exact List.mem_singleton.2 rfl
  · rw [Below, parts_of_get? found]
    exact (List.of_mem_zip (show (next.1, next.2) ∈ _ from member)).1

/-- Comparison ends wherever the value leads to no cycle, for any graph. -/
theorem calls_acc (graph : Graph) {id : ValueId} (ends : Acc (Below region.arena.layout.parts) id)
    (nodeId : NodeId) : Acc (Calls region graph) (id, nodeId) := by
  induction ends generalizing nodeId with
  | intro id _ ih =>
    constructor
    intro next calls
    exact ih next.1 calls.below next.2

theorem forM_congr {m : Type → Type} [Monad m] {α : Type} {first second : α → m Unit}
    {items : List α} (agree : ∀ item ∈ items, first item = second item) :
    items.forM first = items.forM second := by
  induction items with
  | nil => rfl
  | cons item items ih =>
    have rest : items.forM first = items.forM second :=
      ih fun other later => agree other (List.mem_cons_of_mem item later)
    change (first item >>= fun _ => items.forM first) = (second item >>= fun _ => items.forM second)
    rw [agree item List.mem_cons_self, rest]

/-- A step depends on the pairs it leads to and on nothing else. -/
theorem compareStep_congr {graph : Graph} {first second : ValueId → NodeId → Comparing Unit}
    {id : ValueId} {nodeId : NodeId}
    (agree : ∀ next, Calls region graph next (id, nodeId) → first next.1 next.2 = second next.1 next.2) :
    compareStep region graph statement dims first id nodeId =
      compareStep region graph statement dims second id nodeId := by
  unfold compareStep
  congr 1
  funext agreed
  by_cases seen : (id, nodeId) ∈ agreed
  · simp only [if_pos seen]
  · simp only [if_neg seen]
    cases placed : graph.node? nodeId with
    | none => rfl
    | some node =>
      cases found : region.arena.get? id with
      | none => rfl
      | some value =>
        dsimp only
        split
        · rename_i text kind
          split
          · rename_i passed args
            rw [agree (passed, nodeId) ⟨value, node, found, placed, .inl ⟨text, kind, args, rfl⟩⟩]
          · rfl
        · rename_i other
          split
          · rw [forM_congr]
            intro pair member
            exact agree pair ⟨value, node, found, placed, .inr ⟨other, member⟩⟩
          · rfl

/-- A comparison that is deep enough for the value does not depend on how deep it may go. -/
theorem compareBelow_eq_of_within {graph : Graph} {depth bound : Nat} {id : ValueId}
    (within : Within region.arena.layout.parts depth id) (le : depth ≤ bound) (nodeId : NodeId) :
    compareBelow region graph statement dims bound id nodeId =
      compareBelow region graph statement dims depth id nodeId := by
  -- every pair that a step leads to is within one step less
  induction depth generalizing bound id nodeId with
  | zero => exact False.elim within
  | succ depth ih =>
    cases bound with
    | zero => exact absurd le (Nat.not_succ_le_zero depth)
    | succ bound =>
      rw [compareBelow_succ, compareBelow_succ]
      apply compareStep_congr
      intro next calls
      exact ih (within next.1 calls.below) (Nat.le_of_succ_le_succ le) next.2

/-- The bound on the number of pairs is deep enough for every value that leads to no cycle. -/
theorem within_pairBound (graph : Graph) {id : ValueId}
    (ends : Acc (Below region.arena.layout.parts) id) :
    Within region.arena.layout.parts (pairBound region graph) id := by
  refine (within_of_acc Arena.mem_ids_of_parts ends).mono ?_
  rw [Arena.length_ids, pairBound]
  exact Nat.le_mul_of_pos_right _ (Nat.succ_pos _)

/-! ### Accepted pairs -/

/-- When a step accepts a pair: it was accepted before, or the value passes on one that is accepted
    with the node, or kind and type agree and the operands are accepted with the inputs. -/
theorem run_compareStep_eq_ok {graph : Graph} {compare : ValueId → NodeId → Comparing Unit}
    {id : ValueId} {nodeId : NodeId} {agreed agreed' : List (ValueId × NodeId)} :
    (compareStep region graph statement dims compare id nodeId).run agreed = .ok ((), agreed') ↔
      ((id, nodeId) ∈ agreed ∧ agreed = agreed') ∨
      ((id, nodeId) ∉ agreed ∧ ∃ node value middle, graph.node? nodeId = some node ∧
        region.arena.get? id = some value ∧ agreed' = (id, nodeId) :: middle ∧
        ((∃ text passed, value.kind = .forward text ∧ value.args = [passed] ∧
            (compare passed nodeId).run agreed = .ok ((), middle)) ∨
          (node.type = value.type ∧ kindAgrees region statement dims id value node.kind = true ∧
            value.operands.length = node.inputs.length ∧
            ((value.operands.zip node.inputs).forM fun pair => compare pair.1 pair.2).run agreed
              = .ok ((), middle)))) := by
  rw [compareStep, run_bind_eq_ok]
  constructor
  · rintro ⟨_, _, got, ran⟩
    cases got
    by_cases seen : (id, nodeId) ∈ agreed
    · rw [if_pos seen, run_pure_eq_ok] at ran
      cases ran
      exact .inl ⟨seen, rfl⟩
    · rw [if_neg seen] at ran
      refine .inr ⟨seen, ?_⟩
      cases placed : graph.node? nodeId with
      | none =>
        simp only [placed] at ran
        exact False.elim (run_throw_eq_ok.1 ran)
      | some node =>
        cases found : region.arena.get? id with
        | none =>
          simp only [placed, found] at ran
          exact False.elim (run_throw_eq_ok.1 ran)
        | some value =>
          simp only [placed, found] at ran
          split at ran
          · rename_i text kind
            split at ran
            · rename_i passed args
              obtain ⟨_, middle, compared, noted⟩ := run_bind_eq_ok.1 ran
              cases noted
              exact ⟨node, value, middle, rfl, rfl, rfl, .inl ⟨text, passed, kind, args, compared⟩⟩
            · exact False.elim (run_throw_eq_ok.1 ran)
          · split at ran
            · rename_i agrees
              simp only [Bool.and_eq_true, decide_eq_true_eq, beq_iff_eq] at agrees
              obtain ⟨_, middle, compared, noted⟩ := run_bind_eq_ok.1 ran
              cases noted
              exact ⟨node, value, middle, rfl, rfl, rfl,
                .inr ⟨agrees.1.1, agrees.1.2, agrees.2, compared⟩⟩
            · exact False.elim (run_throw_eq_ok.1 ran)
  · rintro (⟨seen, rfl⟩ | ⟨seen, node, value, middle, placed, found, rfl, compared⟩)
    · refine ⟨agreed, agreed, rfl, ?_⟩
      rw [if_pos seen, run_pure_eq_ok]
    · refine ⟨agreed, agreed, rfl, ?_⟩
      rw [if_neg seen]
      simp only [placed, found]
      rcases compared with ⟨text, passed, kind, args, compared⟩ | ⟨type, kind, aligned, compared⟩
      · simp only [kind, args]
        exact run_bind_eq_ok.2 ⟨(), middle, compared, rfl⟩
      · have other : ∀ text, value.kind ≠ .forward text := by
          intro text forwards
          simp [kindAgrees, forwards] at kind
        split
        · rename_i text forwards
          exact absurd forwards (other text)
        · rw [if_pos (by simp [type, kind, aligned])]
          exact run_bind_eq_ok.2 ⟨(), middle, compared, rfl⟩

/-- Remembered pairs agree. -/
def Agreed (region : Region) (statement : Region.Statement) (dims : List String)
    (nodes : Array Node) (agreed : List (ValueId × NodeId)) : Prop :=
  ∀ pair ∈ agreed, Computes region statement dims nodes pair.1 pair.2

theorem agreed_nil {nodes : Array Node} : Agreed region statement dims nodes [] := by
  intro pair member
  cases member

theorem Agreed.cons {nodes : Array Node} {agreed : List (ValueId × NodeId)} {id : ValueId}
    {nodeId : NodeId} (computes : Computes region statement dims nodes id nodeId)
    (right : Agreed region statement dims nodes agreed) :
    Agreed region statement dims nodes ((id, nodeId) :: agreed) :=
  List.forall_mem_cons.2 ⟨computes, right⟩

/-- What the comparison accepts, the node computes. -/
theorem run_compareBelow_sound {graph : Graph} {depth : Nat} {id : ValueId} {nodeId : NodeId}
    {agreed agreed' : List (ValueId × NodeId)}
    (right : Agreed region statement dims graph.nodes agreed)
    (ran : (compareBelow region graph statement dims depth id nodeId).run agreed
      = .ok ((), agreed')) :
    Agreed region statement dims graph.nodes agreed' ∧
      Computes region statement dims graph.nodes id nodeId := by
  induction depth generalizing id nodeId agreed agreed' with
  | zero => exact False.elim (run_throw_eq_ok.1 ran)
  | succ depth ih =>
    rw [compareBelow_succ] at ran
    rcases run_compareStep_eq_ok.1 ran with ⟨seen, rfl⟩ |
      ⟨_, node, value, middle, placed, found, rfl,
        ⟨text, passed, kind, args, compared⟩ | ⟨type, kind, aligned, compared⟩⟩
    -- a pair is noted only after what it leads to was accepted, so what is noted agrees
    · exact ⟨right, right _ seen⟩
    · obtain ⟨rightMiddle, computes⟩ := ih right compared
      have passes := Computes.passedOn found kind args computes
      exact ⟨rightMiddle.cons passes, passes⟩
    · obtain ⟨rightMiddle, each⟩ := run_forM_ok (Agreed region statement dims graph.nodes)
        (fun (pair : ValueId × NodeId) => Computes region statement dims graph.nodes pair.1 pair.2)
        (fun pair _ {_ _} before stepped => ih before stepped) right compared
      have makes := Computes.made found placed type kind aligned each
      exact ⟨rightMiddle.cons makes, makes⟩

/-- What the node computes, a comparison that is deep enough accepts. -/
theorem run_compareBelow_complete {graph : Graph} {depth : Nat} {id : ValueId} {nodeId : NodeId}
    (computes : Computes region statement dims graph.nodes id nodeId)
    (within : Within region.arena.layout.parts depth id) (agreed : List (ValueId × NodeId)) :
    ∃ agreed', (compareBelow region graph statement dims depth id nodeId).run agreed
      = .ok ((), agreed') := by
  induction computes generalizing depth agreed with
  | @passedOn id passed nodeId value text found kind args computes ih =>
    cases depth with
    | zero => exact False.elim within
    | succ depth =>
      rw [compareBelow_succ]
      by_cases seen : (id, nodeId) ∈ agreed
      · exact ⟨agreed, run_compareStep_eq_ok.2 (.inl ⟨seen, rfl⟩)⟩
      · have member : passed ∈ region.arena.layout.parts id := by
          rw [parts_of_get? found, operands_of_forward kind, args]
          exact List.mem_singleton.2 rfl
        obtain ⟨middle, compared⟩ := ih (within passed member) agreed
        obtain ⟨node, placed⟩ := computes.placed
        exact ⟨(id, nodeId) :: middle, run_compareStep_eq_ok.2 (.inr ⟨seen, node, value, middle,
          placed, found, rfl, .inl ⟨text, passed, kind, args, compared⟩⟩)⟩
  | @made id nodeId value node found placed type kind aligned each ih =>
    cases depth with
    | zero => exact False.elim within
    | succ depth =>
      rw [compareBelow_succ]
      by_cases seen : (id, nodeId) ∈ agreed
      · exact ⟨agreed, run_compareStep_eq_ok.2 (.inl ⟨seen, rfl⟩)⟩
      · have stepped : ∀ pair ∈ value.operands.zip node.inputs, ∀ before, ∃ after,
            (compareBelow region graph statement dims depth pair.1 pair.2).run before
              = .ok ((), after) := by
          intro pair member before
          refine ih pair member (within pair.1 ?_) before
          rw [parts_of_get? found]
          exact (List.of_mem_zip (show (pair.1, pair.2) ∈ _ from member)).1
        obtain ⟨middle, compared⟩ := run_forM_exists stepped agreed
        exact ⟨(id, nodeId) :: middle, run_compareStep_eq_ok.2 (.inr ⟨seen, node, value, middle,
          placed, found, rfl, .inr ⟨type, kind, aligned, compared⟩⟩)⟩

/-! ### What a node that computes a value unfolds to -/

/-- A node that is of the kind of a value makes of its inputs what the value makes of its operands. -/
theorem assemble_eq_of_kindAgrees {id : ValueId} {value : Value} {node : Node} {exprs : List Expr}
    {expr : Expr} (type : node.type = value.type)
    (kind : kindAgrees region statement dims id value node.kind = true)
    (made : node.assemble? exprs = some expr) : value.assemble exprs = expr := by
  unfold kindAgrees at kind
  split at kind
  · rename_i literal emitted valueKind nodeKind
    cases beq_iff_eq.1 kind
    simpa [Node.assemble?, Value.assemble, valueKind, nodeKind] using made
  · rename_i name symbol reference valueKind nodeKind
    cases beq_iff_eq.1 kind
    simpa [Node.assemble?, Value.assemble, valueKind, nodeKind] using made
  · rename_i text dim reference valueKind nodeKind
    cases beq_iff_eq.1 (Bool.and_eq_true_iff.1 kind).1
    simpa [Node.assemble?, Value.assemble, valueKind, nodeKind] using made
  · rename_i array text incoming emitted subscript reference valueKind nodeKind
    obtain ⟨same, _⟩ := Bool.and_eq_true_iff.1 kind
    obtain ⟨sameArray, sameReference⟩ := Bool.and_eq_true_iff.1 same
    cases beq_iff_eq.1 sameArray
    cases beq_iff_eq.1 sameReference
    simpa [Node.assemble?, Value.assemble, valueKind, nodeKind] using made
  · rename_i opcode text emitted valueKind nodeKind
    cases beq_iff_eq.1 kind
    simpa [Node.assemble?, Value.assemble, valueKind, nodeKind, type] using made
  · rename_i text valueKind nodeKind
    simp only [Node.assemble?, nodeKind] at made
    split at made
    all_goals simp_all [Value.assemble]
  · cases kind

/-- A node that is of the kind of a value makes something of its inputs, unless it is a selection
    without the three inputs it needs. -/
theorem exists_assemble {id : ValueId} {value : Value} {node : Node} {exprs : List Expr}
    (kind : kindAgrees region statement dims id value node.kind = true)
    (choice : ∀ text, value.kind = .selection text → exprs.length = 3) :
    ∃ expr, node.assemble? exprs = some expr := by
  unfold kindAgrees at kind
  split at kind
  case h_6 =>
    rename_i text valueKind nodeKind
    obtain ⟨condition, ifTrue, ifFalse, rfl⟩ := List.length_eq_three.1 (choice text valueKind)
    exact ⟨_, by simp only [Node.assemble?, nodeKind]; rfl⟩
  case h_7 => cases kind
  all_goals
    rename_i nodeKind
    exact ⟨_, by simp only [Node.assemble?, nodeKind]; rfl⟩

/-- A node that computes a value unfolds to nothing but the unfolding of the value. -/
theorem Computes.unfolds {nodes : Array Node} {id : ValueId} {nodeId : NodeId}
    (computes : Computes region statement dims nodes id nodeId) {expr : Expr}
    (unfolded : Unfolds nodes nodeId expr) : region.arena.Unfolds id expr := by
  induction computes generalizing expr with
  | @passedOn id passed nodeId value text found kind args computes ih =>
    refine Arena.unfolds_iff.2 ⟨value, [expr], found, ?_, by simp [Value.assemble, kind]⟩
    rw [operands_of_forward kind, args]
    exact .cons (ih unfolded) .nil
  | @made id nodeId value node found placed type kind aligned each ih =>
    obtain ⟨other, inputs, placed', unfoldedInputs, made⟩ := unfolds_iff.1 unfolded
    cases placed.symm.trans placed'
    refine Arena.unfolds_iff.2 ⟨value, inputs, found, ?_,
      assemble_eq_of_kindAgrees type kind made⟩
    have follow : List.Forall₂ (fun operand input => ∀ {expr}, Unfolds nodes input expr →
        region.arena.Unfolds operand expr) value.operands node.inputs :=
      List.forall₂_iff_zip.2 ⟨aligned, fun member => ih _ member⟩
    exact partners_trans (fun carries unfolded => carries unfolded) follow unfoldedInputs

/-- Every selection of a region chooses between two values by a condition. -/
def SelectsByCondition (region : Region) : Prop :=
  ∀ {id value text}, region.arena.get? id = some value → value.kind = .selection text →
    value.args.length = 3

/-- If every selection chooses between two values by a condition, a node that computes a value has an
    unfolding. -/
theorem Computes.exists_unfolds {nodes : Array Node} {id : ValueId} {nodeId : NodeId}
    (choices : SelectsByCondition region)
    (computes : Computes region statement dims nodes id nodeId) :
    ∃ expr, Unfolds nodes nodeId expr := by
  induction computes with
  | passedOn _ _ _ _ ih => exact ih
  | @made id nodeId value node found placed type kind aligned each ih =>
    have unfolds : List.Forall₂ (fun input _ => ∃ expr, Unfolds nodes input expr)
        node.inputs value.operands :=
      List.Forall₂.flip (List.forall₂_iff_zip.2 ⟨aligned, fun member => ih _ member⟩)
    obtain ⟨inputs, unfoldedInputs⟩ := exists_partners fun input member =>
      let ⟨_, _, unfolded⟩ := exists_partner unfolds member
      unfolded
    have choice : ∀ text, value.kind = .selection text → inputs.length = 3 := by
      intro text selects
      have composite : value.kind.isComposite = true := by rw [selects]; rfl
      rw [← unfoldedInputs.length_eq, ← aligned, Value.operands_of_composite composite]
      exact choices found selects
    obtain ⟨expr, made⟩ := exists_assemble kind choice
    exact ⟨expr, unfolds_iff.2 ⟨node, inputs, placed, unfoldedInputs, made⟩⟩

end RegionFlow.Graph
