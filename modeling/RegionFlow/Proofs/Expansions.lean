/-
Module: RegionFlow.Proofs.Expansions
Purpose: What expansion finds, and when it finds something. Rules, one for each kind of value, say
  which expression a value stands for, and rules for each kind of node say which expression a node
  derives. Expansion finds exactly what the rules give. It finds something exactly if the chains of
  operands below the root come to an end and no place they lead to stops the rules. The place that
  is reported for a value without an expression is one of those that stop them: it holds no value,
  or it leads to itself.
Main exports: Layout.exists_unfolds, Layout.Obstructs, Layout.failsOnly_unfoldBelow,
  Arena.StandsFor, Arena.expand_exact, Graph.Derives, Graph.expand?_exact
-/
import RegionFlow.Proofs.Failing
import RegionFlow.Proofs.Validation

namespace RegionFlow

open Search Sequencing

namespace Layout

variable {α ε β : Type} {layout : Layout α ε β} {root item : α}

/-! ### Items that unfold -/

/-- What an item that unfolds leads to unfolds as well. -/
theorem Unfolds.reached {result : β} (unfolded : Unfolds layout root result)
    (reaches : Reaches layout.parts root item) : ∃ found, Unfolds layout item found := by
  induction reaches with
  | refl => exact ⟨result, unfolded⟩
  | @tail middle item _ successor ih =>
    obtain ⟨found, middleUnfolds⟩ := ih
    obtain ⟨parts, whole, results, opened, parted, _⟩ := unfolds_iff.1 middleUnfolds
    have member : item ∈ parts := by simpa [Layout.parts, opened] using successor
    obtain ⟨partResult, _, partUnfolds⟩ := exists_partner parted member
    exact ⟨partResult, partUnfolds⟩

/-- An item can be taken apart, and any results of its parts make a result. -/
def Complete (layout : Layout α ε β) (item : α) : Prop :=
  ∃ parts whole, layout item = .ok (parts, whole) ∧
    ∀ results : List β, results.length = parts.length → ∃ result, whole results = .ok result

/-- An item unfolds if every chain of parts below it ends and everything it leads to is complete. -/
theorem exists_unfolds (ends : Acc (Below layout.parts) root)
    (complete : ∀ item, Reaches layout.parts root item → layout.Complete item) :
    ∃ result, Unfolds layout root result := by
  induction ends with
  | intro root _ ih =>
    obtain ⟨parts, whole, opened, joins⟩ := complete root .refl
    have each : ∀ part ∈ parts, ∃ result, Unfolds layout part result := by
      intro part member
      have below : Below layout.parts part root := by simpa [Below, Layout.parts, opened] using member
      exact ih part below fun item reaches => complete item (.head below reaches)
    obtain ⟨results, unfolded⟩ := exists_partners each
    obtain ⟨result, joined⟩ := joins results unfolded.length_eq.symm
    exact ⟨result, unfolds_iff.2 ⟨parts, whole, results, opened, unfolded, joined⟩⟩

/-- Where nothing but complete items unfolds, an item unfolds exactly if the chains of parts below
    it are bounded and lead to complete items only. -/
theorem exists_unfolds_iff {items : List α} (listed : ∀ item, layout.parts item ≠ [] → item ∈ items)
    (shaped : ∀ {item result}, Unfolds layout item result → layout.Complete item) :
    (∃ result, Unfolds layout root result) ↔
      (∃ depth, Within layout.parts depth root) ∧
        ∀ item, Reaches layout.parts root item → layout.Complete item := by
  rw [exists_within_iff_acc listed]
  constructor
  · rintro ⟨result, unfolded⟩
    refine ⟨unfolded.acc, fun item reaches => ?_⟩
    obtain ⟨found, itemUnfolds⟩ := unfolded.reached reaches
    exact shaped itemUnfolds
  · rintro ⟨ends, complete⟩
    exact exists_unfolds ends complete

/-! ### Failures of the search -/

/-- What keeps a root from unfolding: an item it leads to cannot be taken apart, or cannot be put
    together, or leads to itself. -/
inductive Obstructs (layout : Layout α ε β) (loop : α → ε) (root : α) : ε → Prop where
  | closed {item : α} {fault : ε} (reaches : Reaches layout.parts root item)
      (refused : layout item = .error fault) : Obstructs layout loop root fault
  | apart {item : α} {parts : List α} {whole : List β → Except ε β} {results : List β} {fault : ε}
      (reaches : Reaches layout.parts root item) (opened : layout item = .ok (parts, whole))
      (refused : whole results = .error fault) : Obstructs layout loop root fault
  | cyclic {item : α} (reaches : Reaches layout.parts root item)
      (cycle : Relation.TransGen (Below layout.parts) item item) : Obstructs layout loop root (loop item)

/-- What keeps a part from unfolding keeps the item from it. -/
theorem Obstructs.head {loop : α → ε} {fault : ε} {part : α} (member : part ∈ layout.parts item)
    (obstructs : layout.Obstructs loop part fault) : layout.Obstructs loop item fault := by
  cases obstructs with
  | closed reaches refused => exact .closed (.head member reaches) refused
  | apart reaches opened refused => exact .apart (.head member reaches) opened refused
  | cyclic reaches cycle => exact .cyclic (.head member reaches) cycle

/-- The search fails only with what keeps the item from unfolding. The way and the depth that is
    left cover the listed items together, so the depth never runs out. -/
theorem failsOnly_unfoldBelow [DecidableEq α] {loop : α → ε} {items path : List α} {depth : Nat}
    (listed : ∀ item, layout.parts item ≠ [] → item ∈ items) (trail : Trail layout.parts items path item)
    (deep : items.length < path.length + depth) (memo : List (α × β)) :
    FailsOnly (layout.Obstructs loop item) ((unfoldBelow layout loop depth path item).run memo) := by
  induction depth generalizing path item memo with
  | zero =>
    have short := trail.length_le
    omega
  | succ depth ih =>
    rw [unfoldBelow]
    refine FailsOnly.run_bind (failsOnly_ok _) fun known _ _ => ?_
    cases known.lookup item with
    | some result => exact failsOnly_ok _
    | none =>
      by_cases visited : item ∈ path
      · simp only [if_pos visited]
        exact failsOnly_error (.cyclic .refl (trail.leads item visited))
      · simp only [if_neg visited]
        cases opened : layout item with
        | error fault => exact failsOnly_error (.closed .refl opened)
        | ok pair =>
          obtain ⟨parts, whole⟩ := pair
          have partsEq : layout.parts item = parts := by simp [Layout.parts, opened]
          refine FailsOnly.run_bind (failsOnly_run_mapM (fun part member state => ?_) _)
            fun results middle _ => ?_
          · rw [← partsEq] at member
            have held : item ∈ items := listed item (List.ne_nil_of_mem member)
            have further : items.length < (item :: path).length + depth := by
              rw [List.length_cons]
              omega
            refine (ih (trail.extend visited held member) further state).mono fun fault obstructs => ?_
            exact obstructs.head member
          · cases joined : whole results with
            | error fault => exact failsOnly_error (.apart .refl opened joined)
            | ok result => exact failsOnly_ok _

/-- A whole search fails only with what keeps its root from unfolding. -/
theorem failsOnly_run'_unfoldBelow [DecidableEq α] {loop : α → ε} {items : List α} {depth : Nat}
    (listed : ∀ item, layout.parts item ≠ [] → item ∈ items) (enough : items.length < depth) :
    FailsOnly (layout.Obstructs loop root) ((unfoldBelow layout loop depth [] root).run' []) := by
  have search : FailsOnly (layout.Obstructs loop root) ((unfoldBelow layout loop depth [] root).run []) :=
    failsOnly_unfoldBelow listed (trail_nil _ items root) (by simpa using enough) []
  rw [StateT.run'_eq]
  exact search.bind fun _ _ => failsOnly_ok _

end Layout

/-! ### Values of a region -/

/-- The number of arguments that merges and writes should have. -/
def ValueKind.arity? : ValueKind → Option Nat
  | selection _ => some 3
  | forward _ | access .write _ _ _ => some 1
  | constant _ | placeholder | parameter _ | computation _ _ | access .read _ _ _
  | inductionVariable _ => none

/-- The leaf that a value without operands is. -/
def Value.leaf? (value : Value) : Option Expr :=
  match value.kind with
  | .constant literal => some (.const literal)
  | .placeholder => some (.unknown value.reference)
  | .parameter _ => some (.param value.reference)
  | .inductionVariable _ => some (.index value.reference)
  | .access .read array _ _ => some (.read array value.reference)
  | .computation _ _ | .access .write _ _ _ | .selection _ | .forward _ => none

namespace Arena

variable {arena : Arena} {id root : ValueId} {expr : Expr}

/-- The places that the value at a place is expanded from: the arguments of computations, merges and
    writes. -/
def operands (arena : Arena) (id : ValueId) : List ValueId :=
  ((arena.get? id).map Value.operands).getD []

/-- The expression that a value stands for. Values without operands stand for a leaf; a pass-through
    merge and a write stand for what their one argument stands for; merges and writes that lost
    arguments stay operations. -/
inductive StandsFor (arena : Arena) : ValueId → Expr → Prop where
  | leaf {id : ValueId} {value : Value} {expr : Expr} (found : arena.get? id = some value)
      (leaf : value.leaf? = some expr) : StandsFor arena id expr
  | computation {id : ValueId} {value : Value} {opcode : Opcode} {instruction : String} {exprs : List Expr}
      (found : arena.get? id = some value) (kind : value.kind = .computation opcode instruction)
      (aligned : value.args.length = exprs.length)
      (each : ∀ pair ∈ value.args.zip exprs, StandsFor arena pair.1 pair.2) :
      StandsFor arena id (.op opcode value.type exprs)
  | choice {id condition ifTrue ifFalse : ValueId} {value : Value} {instruction : String}
      {test first second : Expr} (found : arena.get? id = some value)
      (kind : value.kind = .selection instruction)
      (args : value.args = [condition, ifTrue, ifFalse]) (tests : StandsFor arena condition test)
      (one : StandsFor arena ifTrue first) (two : StandsFor arena ifFalse second) :
      StandsFor arena id (.select test first second)
  | passing {id arg : ValueId} {value : Value} {expr : Expr} (found : arena.get? id = some value)
      (single : value.kind.arity? = some 1) (args : value.args = [arg]) (passed : StandsFor arena arg expr) :
      StandsFor arena id expr
  | misshapen {id : ValueId} {value : Value} {count : Nat} {exprs : List Expr}
      (found : arena.get? id = some value) (expected : value.kind.arity? = some count)
      (other : value.args.length ≠ count) (aligned : value.args.length = exprs.length)
      (each : ∀ pair ∈ value.args.zip exprs, StandsFor arena pair.1 pair.2) :
      StandsFor arena id (.op .select value.type exprs)

theorem parts_layout (arena : Arena) : arena.layout.parts = arena.operands := by
  funext id
  cases found : arena.get? id with
  | none => simp [Layout.parts, layout, operands, found]
  | some value => simp [Layout.parts, layout, operands, found]

end Arena

/-- Selections take three arguments, pass-through merges and writes take one. -/
theorem ValueKind.arity?_cases {kind : ValueKind} {count : Nat} (expected : kind.arity? = some count) :
    (∃ instruction, kind = .selection instruction ∧ count = 3) ∨
    (∃ instruction, kind = .forward instruction ∧ count = 1) ∨
    ∃ array instruction incoming, kind = .access .write array instruction incoming ∧ count = 1 := by
  unfold arity? at expected
  split at expected
  · exact .inl ⟨_, rfl, (Option.some.inj expected).symm⟩
  · exact .inr (.inl ⟨_, rfl, (Option.some.inj expected).symm⟩)
  · exact .inr (.inr ⟨_, _, _, rfl, (Option.some.inj expected).symm⟩)
  all_goals cases expected

namespace Value

variable {value : Value} {count : Nat}

/-- A value is a leaf, a computation, or a merge or write. -/
theorem cases_kind (value : Value) :
    (∃ expr, value.leaf? = some expr) ∨
      (∃ opcode instruction, value.kind = .computation opcode instruction) ∨
      ∃ count, value.kind.arity? = some count := by
  unfold leaf? ValueKind.arity?
  cases value.kind with
  | access direction => cases direction <;> simp
  | _ => simp

/-- A leaf has no operands, and is what it is whatever they are. -/
theorem assemble_leaf {expr : Expr} (leaf : value.leaf? = some expr) :
    value.operands = [] ∧ ∀ exprs, value.assemble exprs = expr := by
  unfold leaf? at leaf
  unfold operands assemble
  split at leaf <;> simp_all [ValueKind.isComposite]

theorem operands_of_arity? (expected : value.kind.arity? = some count) : value.operands = value.args := by
  apply operands_of_composite
  rcases ValueKind.arity?_cases expected with ⟨_, kind, _⟩ | ⟨_, kind, _⟩ | ⟨_, _, _, kind, _⟩
  all_goals rw [kind, ValueKind.isComposite]

/-- With one operand, a pass-through merge or a write is what it passes on. -/
theorem assemble_passing (single : value.kind.arity? = some 1) (expr : Expr) :
    value.assemble [expr] = expr := by
  rcases ValueKind.arity?_cases single with ⟨_, _, three⟩ | ⟨_, kind, _⟩ | ⟨_, _, _, kind, _⟩
  · cases three
  · simp only [assemble, kind]
  · simp only [assemble, kind]

/-- With another number of operands than it should have, a merge or a write stays an operation. -/
theorem assemble_misshapen {exprs : List Expr} (expected : value.kind.arity? = some count)
    (other : exprs.length ≠ count) : value.assemble exprs = .op .select value.type exprs := by
  unfold ValueKind.arity? at expected
  unfold assemble
  split <;> simp_all

end Value

namespace Arena

variable {arena : Arena} {id root : ValueId} {expr : Expr}

/-- A value that is made from its arguments unfolds to what their unfoldings make. -/
theorem unfolds_of_args {value : Value} {exprs : List Expr} (found : arena.get? id = some value)
    (composite : value.operands = value.args) (unfolded : List.Forall₂ arena.Unfolds value.args exprs) :
    arena.Unfolds id (value.assemble exprs) := by
  rw [unfolds_iff]
  refine ⟨value, exprs, found, ?_, rfl⟩
  rwa [composite]

/-- A value unfolds to the expression it stands for. -/
theorem StandsFor.unfolds (stands : arena.StandsFor id expr) : arena.Unfolds id expr := by
  induction stands with
  | leaf found leaf =>
    obtain ⟨none, made⟩ := Value.assemble_leaf leaf
    exact unfolds_iff.2 ⟨_, [], found, by simp [none], made []⟩
  | computation found kind aligned each ih =>
    have composite := Value.operands_of_composite (by rw [kind]; rfl)
    have unfolded := List.forall₂_iff_zip.2 ⟨aligned, fun member => ih _ member⟩
    simpa [Value.assemble, kind] using unfolds_of_args found composite unfolded
  | @choice id condition ifTrue ifFalse value _ test first second found kind args _ _ _ tests one two =>
    have composite : value.operands = value.args := Value.operands_of_composite (by rw [kind]; rfl)
    have unfolded : List.Forall₂ arena.Unfolds value.args [test, first, second] := by
      rw [args]
      exact .cons tests (.cons one (.cons two .nil))
    simpa [Value.assemble, kind] using unfolds_of_args found composite unfolded
  | @passing id arg value expr found single args _ ih =>
    have unfolded : List.Forall₂ arena.Unfolds value.args [expr] := by
      rw [args]
      exact .cons ih .nil
    have unfolds := unfolds_of_args found (Value.operands_of_arity? single) unfolded
    rwa [Value.assemble_passing single] at unfolds
  | misshapen found expected other aligned each ih =>
    have unfolded := List.forall₂_iff_zip.2 ⟨aligned, fun member => ih _ member⟩
    have unfolds := unfolds_of_args found (Value.operands_of_arity? expected) unfolded
    rwa [Value.assemble_misshapen expected (aligned ▸ other)] at unfolds

/-- Merges and writes stand for what the expressions of their arguments make, whatever their number. -/
theorem standsFor_assemble {value : Value} {count : Nat} {exprs : List Expr}
    (found : arena.get? id = some value) (expected : value.kind.arity? = some count)
    (aligned : value.args.length = exprs.length)
    (each : ∀ pair ∈ value.args.zip exprs, arena.StandsFor pair.1 pair.2) :
    arena.StandsFor id (value.assemble exprs) := by
  by_cases shaped : value.args.length = count
  · rcases ValueKind.arity?_cases expected with ⟨_, kind, rfl⟩ | single
    · obtain ⟨condition, ifTrue, ifFalse, args⟩ := List.length_eq_three.1 shaped
      obtain ⟨test, first, second, rfl⟩ := List.length_eq_three.1 (aligned.symm.trans shaped)
      rw [args] at each
      have chosen := StandsFor.choice found kind args (each (condition, test) (by simp))
        (each (ifTrue, first) (by simp)) (each (ifFalse, second) (by simp))
      simpa [Value.assemble, kind] using chosen
    · have one : count = 1 := by
        rcases single with ⟨_, _, one⟩ | ⟨_, _, _, _, one⟩
        · exact one
        · exact one
      subst one
      obtain ⟨arg, args⟩ := List.length_eq_one_iff.1 shaped
      obtain ⟨passed, rfl⟩ := List.length_eq_one_iff.1 (aligned.symm.trans shaped)
      rw [args] at each
      rw [Value.assemble_passing expected]
      exact .passing found expected args (each (arg, passed) (by simp))
  · rw [Value.assemble_misshapen expected (aligned ▸ shaped)]
    exact .misshapen found expected shaped aligned each

/-- A value stands for the expression it unfolds to. -/
theorem standsFor_of_unfolds (unfolded : arena.Unfolds id expr) : arena.StandsFor id expr := by
  induction unfolded with
  | @made id parts whole exprs expr opened aligned each joined ih =>
    cases found : arena.get? id with
    | none => simp [layout, found] at opened
    | some value =>
      simp only [layout, found, Except.ok.injEq, Prod.mk.injEq] at opened
      obtain ⟨rfl, rfl⟩ := opened
      cases Except.ok.inj joined
      rcases value.cases_kind with ⟨leaf, isLeaf⟩ | ⟨opcode, instruction, kind⟩ | ⟨count, expected⟩
      · rw [(Value.assemble_leaf isLeaf).2]
        exact .leaf found isLeaf
      · rw [Value.operands_of_composite (by rw [kind]; rfl)] at aligned ih
        simpa [Value.assemble, kind] using StandsFor.computation found kind aligned ih
      · rw [Value.operands_of_arity? expected] at aligned ih
        exact standsFor_assemble found expected aligned ih

theorem expand_eq_ok_iff_standsFor : arena.expand root = .ok expr ↔ arena.StandsFor root expr :=
  expand_eq_ok_iff.trans ⟨standsFor_of_unfolds, StandsFor.unfolds⟩

/-- A place is complete exactly if it holds a value. -/
theorem complete_layout_iff : arena.layout.Complete id ↔ ∃ value, arena.get? id = some value := by
  constructor
  · rintro ⟨parts, whole, opened, _⟩
    cases found : arena.get? id with
    | none => simp [layout, found] at opened
    | some value => exact ⟨value, rfl⟩
  · rintro ⟨value, found⟩
    refine ⟨value.operands, fun operands => .ok (value.assemble operands), ?_, ?_⟩
    · simp only [layout, found]
    · intro exprs _
      exact ⟨value.assemble exprs, rfl⟩

theorem exists_expand_iff :
    (∃ expr, arena.expand root = .ok expr) ↔
      (∃ depth, Within arena.operands depth root) ∧
        ∀ id, Reaches arena.operands root id → ∃ value, arena.get? id = some value := by
  have shaped : ∀ {id expr}, arena.layout.Unfolds id expr → arena.layout.Complete id := by
    intro id expr unfolded
    obtain ⟨value, _, found, _⟩ := unfolds_iff.1 unfolded
    exact complete_layout_iff.2 ⟨value, found⟩
  simpa only [expand_eq_ok_iff, complete_layout_iff, parts_layout] using
    Layout.exists_unfolds_iff mem_ids_of_parts shaped

/-- What keeps a value from unfolding is a place that can be reached, and that holds no value or
    leads to itself. -/
theorem reaches_of_obstructs (obstructs : arena.layout.Obstructs (fun id => id) root id) :
    Reaches arena.operands root id ∧
      (arena.get? id = none ∨ Relation.TransGen (Below arena.operands) id id) := by
  cases obstructs with
  | @closed id _ reaches refused =>
    rw [parts_layout] at reaches
    cases found : arena.get? id with
    | none =>
      simp only [layout, found, Except.error.injEq] at refused
      subst refused
      exact ⟨reaches, .inl found⟩
    | some value => simp [layout, found] at refused
  | @apart id _ _ _ _ reaches opened refused =>
    cases found : arena.get? id with
    | none => simp [layout, found] at opened
    | some value =>
      -- whatever its operands stand for, a value is made of them
      simp only [layout, found, Except.ok.injEq, Prod.mk.injEq] at opened
      obtain ⟨_, rfl⟩ := opened
      cases refused
  | cyclic reaches cycle =>
    rw [parts_layout] at reaches cycle
    exact ⟨reaches, .inr cycle⟩

theorem failsOnly_expand (arena : Arena) (root : ValueId) :
    FailsOnly (fun id => Reaches arena.operands root id ∧
      (arena.get? id = none ∨ Relation.TransGen (Below arena.operands) id id)) (arena.expand root) := by
  have enough : arena.ids.length < arena.size + 1 := by
    rw [length_ids]
    omega
  rw [expand, expandBelow_eq]
  exact (Layout.failsOnly_run'_unfoldBelow mem_ids_of_parts enough).mono fun _ => reaches_of_obstructs

/-- Expansion finds exactly the expression that a value stands for. There is one exactly if the
    chains of operands below the value are bounded and lead to values only; otherwise the place that
    is reported can be reached, and it holds no value or leads to itself. -/
theorem expand_exact (arena : Arena) (root : ValueId) :
    ((∃ expr, arena.expand root = .ok expr) ↔ (∃ depth, Within arena.operands depth root) ∧
      ∀ id, Reaches arena.operands root id → ∃ value, arena.get? id = some value) ∧
    (∀ expr, arena.expand root = .ok expr ↔ arena.StandsFor root expr) ∧
    ∀ id, arena.expand root = .error id → Reaches arena.operands root id ∧
      (arena.get? id = none ∨ Relation.TransGen (Below arena.operands) id id) :=
  ⟨exists_expand_iff, fun _ => expand_eq_ok_iff_standsFor, arena.failsOnly_expand root⟩

theorem tangled_expand_exact :
    (∃ depth, Within tangled.operands depth ⟨1⟩) ∧
    tangled.StandsFor ⟨1⟩ (.op (.arith .fadd) (.float 64) [.const "1.0", .const "1.0"]) ∧
    (Reaches tangled.operands ⟨2⟩ ⟨9⟩ ∧
      (tangled.get? ⟨9⟩ = none ∨ Relation.TransGen (Below tangled.operands) ⟨9⟩ ⟨9⟩)) ∧
    (Reaches tangled.operands ⟨4⟩ ⟨4⟩ ∧
      (tangled.get? ⟨4⟩ = none ∨ Relation.TransGen (Below tangled.operands) ⟨4⟩ ⟨4⟩)) :=
  ⟨((expand_exact tangled ⟨1⟩).1.1 ⟨_, rfl⟩).1, ((expand_exact tangled ⟨1⟩).2.1 _).1 rfl,
    (expand_exact tangled ⟨2⟩).2.2 ⟨9⟩ rfl, (expand_exact tangled ⟨4⟩).2.2 ⟨4⟩ rfl⟩

end Arena

/-! ### Nodes of a graph -/

/-- The number of inputs that writes and selections must have. -/
def NodeKind.arity? : NodeKind → Option Nat
  | write _ _ => some 1
  | select => some 3
  | read _ _ _ | compute _ | constant _ | symbol _ _ | index _ _ => none

/-- The leaf that a node is, whatever its inputs. -/
def NodeKind.leaf? : NodeKind → Option Expr
  | read array _ reference => some (.read array reference)
  | constant literal => some (.const literal)
  | symbol _ reference => some (.param reference)
  | index _ reference => some (.index reference)
  | write _ _ | compute _ | select => none

/-- A node has as many inputs as its kind must have. -/
def Node.IsShaped (node : Node) : Prop :=
  ∀ count ∈ node.kind.arity?, node.inputs.length = count

namespace Graph

variable {graph : Graph} {id root : NodeId} {expr : Expr}

/-- The expression that a node derives. All inputs compute something, also those of a node that
    makes no use of them. -/
inductive Derives (graph : Graph) : NodeId → Expr → Prop where
  | leaf {id : NodeId} {node : Node} {expr : Expr} {exprs : List Expr}
      (found : graph.node? id = some node) (leaf : node.kind.leaf? = some expr)
      (aligned : node.inputs.length = exprs.length)
      (each : ∀ pair ∈ node.inputs.zip exprs, Derives graph pair.1 pair.2) : Derives graph id expr
  | compute {id : NodeId} {node : Node} {opcode : Opcode} {exprs : List Expr}
      (found : graph.node? id = some node) (kind : node.kind = .compute opcode)
      (aligned : node.inputs.length = exprs.length)
      (each : ∀ pair ∈ node.inputs.zip exprs, Derives graph pair.1 pair.2) :
      Derives graph id (.op opcode node.type exprs)
  | write {id stored : NodeId} {node : Node} {array : String} {subscript : List String} {expr : Expr}
      (found : graph.node? id = some node) (kind : node.kind = .write array subscript)
      (inputs : node.inputs = [stored]) (stores : Derives graph stored expr) : Derives graph id expr
  | select {id condition ifTrue ifFalse : NodeId} {node : Node} {test first second : Expr}
      (found : graph.node? id = some node) (kind : node.kind = .select)
      (inputs : node.inputs = [condition, ifTrue, ifFalse]) (tests : Derives graph condition test)
      (one : Derives graph ifTrue first) (two : Derives graph ifFalse second) :
      Derives graph id (.select test first second)

theorem parts_layout (graph : Graph) : (layout graph.nodes).parts = graph.inputs := by
  funext id
  cases found : graph.nodes[id.index]? with
  | none => simp [Layout.parts, layout, inputs, node?, found]
  | some node => simp [Layout.parts, layout, inputs, node?, found]

end Graph

theorem NodeKind.arity?_of_leaf {kind : NodeKind} {expr : Expr} (leaf : kind.leaf? = some expr) :
    kind.arity? = none := by
  cases kind with
  | write | select => cases leaf
  | read | compute | constant | symbol | index => rfl

namespace Node

variable {node : Node} {exprs : List Expr} {expr : Expr}

/-- What the expressions of its inputs make of a node. -/
theorem assemble?_eq_some_iff :
    node.assemble? exprs = some expr ↔
      node.kind.leaf? = some expr ∨
      (∃ opcode, node.kind = .compute opcode ∧ expr = .op opcode node.type exprs) ∨
      (∃ array subscript, node.kind = .write array subscript ∧ exprs = [expr]) ∨
      ∃ test first second, node.kind = .select ∧ exprs = [test, first, second] ∧
        expr = .select test first second := by
  unfold assemble? NodeKind.leaf?
  cases node.kind with
  | write array subscript =>
    constructor
    · intro made
      split at made <;> simp_all
    · rintro (leaf | ⟨_, kind, _⟩ | ⟨_, _, _, rfl⟩ | ⟨_, _, _, kind, _⟩)
      · cases leaf
      · cases kind
      · rfl
      · cases kind
  | select =>
    constructor
    · intro made
      split at made <;> simp_all
    · rintro (leaf | ⟨_, kind, _⟩ | ⟨_, _, kind, _⟩ | ⟨_, _, _, _, rfl, rfl⟩)
      · cases leaf
      · cases kind
      · cases kind
      · rfl
  | compute opcode => simp [eq_comm]
  | _ => simp

/-- A node is made of the expressions of its inputs exactly if there are as many as its kind must have. -/
theorem exists_assemble?_iff :
    (∃ expr, node.assemble? exprs = some expr) ↔ ∀ count ∈ node.kind.arity?, exprs.length = count := by
  constructor
  · rintro ⟨expr, made⟩ count expected
    rcases assemble?_eq_some_iff.1 made with leaf | ⟨_, kind, _⟩ | ⟨_, _, kind, rfl⟩
      | ⟨_, _, _, kind, rfl, _⟩
    · rw [NodeKind.arity?_of_leaf leaf] at expected
      cases expected
    · rw [kind] at expected
      cases expected
    · rw [kind] at expected
      cases expected
      rfl
    · rw [kind] at expected
      cases expected
      rfl
  · intro shaped
    cases kind : node.kind with
    | write array subscript =>
      rw [kind] at shaped
      obtain ⟨expr, rfl⟩ := List.length_eq_one_iff.1 (shaped 1 rfl)
      exact ⟨expr, by simp [assemble?, kind]⟩
    | select =>
      rw [kind] at shaped
      obtain ⟨test, first, second, rfl⟩ := List.length_eq_three.1 (shaped 3 rfl)
      exact ⟨.select test first second, by simp [assemble?, kind]⟩
    | _ => simp [assemble?, kind]

end Node

namespace Graph

variable {graph : Graph} {id root : NodeId} {expr : Expr}

/-- What is taken apart at a place is a node. -/
theorem layout_eq_ok {parts : List NodeId} {whole : List Expr → Except Unit Expr}
    (opened : layout graph.nodes id = .ok (parts, whole)) :
    ∃ node, graph.node? id = some node ∧ node.inputs = parts ∧
      ∀ {exprs expr}, whole exprs = .ok expr ↔ node.assemble? exprs = some expr := by
  rw [node?]
  cases found : graph.nodes[id.index]? with
  | none => simp [layout, found] at opened
  | some node =>
    simp only [layout, found, Except.ok.injEq, Prod.mk.injEq] at opened
    obtain ⟨rfl, rfl⟩ := opened
    refine ⟨node, rfl, rfl, fun {exprs expr} => ?_⟩
    cases made : node.assemble? exprs with
    | none => simp [made]
    | some other => simp [made]

theorem exists_layout_eq_ok {node : Node} (found : graph.node? id = some node) :
    ∃ whole, layout graph.nodes id = .ok (node.inputs, whole) := by
  rw [node?] at found
  exact ⟨_, by rw [layout, found]⟩

/-- A node unfolds to what it derives. -/
theorem Derives.unfolds (derives : graph.Derives id expr) : Unfolds graph.nodes id expr := by
  induction derives with
  | leaf found leaf aligned each ih =>
    have unfolded := List.forall₂_iff_zip.2 ⟨aligned, fun member => ih _ member⟩
    exact unfolds_iff.2 ⟨_, _, found, unfolded, Node.assemble?_eq_some_iff.2 (.inl leaf)⟩
  | compute found kind aligned each ih =>
    have unfolded := List.forall₂_iff_zip.2 ⟨aligned, fun member => ih _ member⟩
    exact unfolds_iff.2 ⟨_, _, found, unfolded, by simp [Node.assemble?, kind]⟩
  | @write id stored node _ _ expr found kind inputs _ ih =>
    have unfolded : List.Forall₂ (Unfolds graph.nodes) node.inputs [expr] := by
      rw [inputs]
      exact .cons ih .nil
    exact unfolds_iff.2 ⟨node, [expr], found, unfolded, by simp [Node.assemble?, kind]⟩
  | @select id condition ifTrue ifFalse node test first second found kind inputs _ _ _ tests one two =>
    have unfolded : List.Forall₂ (Unfolds graph.nodes) node.inputs [test, first, second] := by
      rw [inputs]
      exact .cons tests (.cons one (.cons two .nil))
    exact unfolds_iff.2 ⟨node, [test, first, second], found, unfolded, by simp [Node.assemble?, kind]⟩

/-- A node derives what it unfolds to. -/
theorem derives_of_unfolds (unfolded : Unfolds graph.nodes id expr) : graph.Derives id expr := by
  induction unfolded with
  | @made id parts whole exprs expr opened aligned each joined ih =>
    obtain ⟨node, found, rfl, made⟩ := layout_eq_ok opened
    rcases Node.assemble?_eq_some_iff.1 (made.1 joined) with leaf | ⟨opcode, kind, rfl⟩ |
      ⟨array, subscript, kind, rfl⟩ | ⟨test, first, second, kind, rfl, rfl⟩
    · exact .leaf found leaf aligned ih
    · exact .compute found kind aligned ih
    · obtain ⟨stored, inputs⟩ := List.length_eq_one_iff.1 aligned
      rw [inputs] at ih
      exact .write found kind inputs (ih (stored, expr) (by simp))
    · obtain ⟨condition, ifTrue, ifFalse, inputs⟩ := List.length_eq_three.1 aligned
      rw [inputs] at ih
      exact .select found kind inputs (ih (condition, test) (by simp)) (ih (ifTrue, first) (by simp))
        (ih (ifFalse, second) (by simp))

theorem expand?_eq_some_iff_derives : graph.expand? root = some expr ↔ graph.Derives root expr :=
  expand?_eq_some_iff.trans ⟨derives_of_unfolds, Derives.unfolds⟩

/-- A place is complete exactly if it holds a node with as many inputs as its kind must have. -/
theorem complete_layout_iff :
    (layout graph.nodes).Complete id ↔ ∃ node, graph.node? id = some node ∧ node.IsShaped := by
  constructor
  · rintro ⟨parts, whole, opened, joins⟩
    obtain ⟨node, found, rfl, joined⟩ := layout_eq_ok opened
    refine ⟨node, found, fun count expected => ?_⟩
    -- any expressions will do, because only their number matters
    obtain ⟨expr, made⟩ := joins (node.inputs.map fun _ => default) (List.length_map _)
    have counted := Node.exists_assemble?_iff.1 ⟨expr, joined.1 made⟩ count expected
    rwa [List.length_map] at counted
  · rintro ⟨node, found, shaped⟩
    obtain ⟨whole, opened⟩ := exists_layout_eq_ok found
    obtain ⟨other, held, _, joined⟩ := layout_eq_ok opened
    cases found.symm.trans held
    refine ⟨node.inputs, whole, opened, fun exprs aligned => ?_⟩
    have counted : ∀ count ∈ node.kind.arity?, exprs.length = count := by
      intro count expected
      rw [aligned]
      exact shaped count expected
    obtain ⟨expr, made⟩ := Node.exists_assemble?_iff.2 counted
    exact ⟨expr, joined.2 made⟩

theorem exists_expand?_iff :
    (∃ expr, graph.expand? root = some expr) ↔
      (∃ depth, Within graph.inputs depth root) ∧
        ∀ id, Reaches graph.inputs root id → ∃ node, graph.node? id = some node ∧ node.IsShaped := by
  have shaped : ∀ {id expr}, Unfolds graph.nodes id expr → (layout graph.nodes).Complete id := by
    intro id expr unfolded
    obtain ⟨node, exprs, found, parted, made⟩ := unfolds_iff.1 unfolded
    refine complete_layout_iff.2 ⟨node, found, fun count expected => ?_⟩
    rw [parted.length_eq]
    exact Node.exists_assemble?_iff.1 ⟨expr, made⟩ count expected
  simpa only [expand?_eq_some_iff, complete_layout_iff, parts_layout] using
    Layout.exists_unfolds_iff mem_places_of_parts shaped

/-- Expansion finds exactly the expression that a node derives. There is one exactly if the chains
    of inputs below the node are bounded and lead only to nodes that have as many inputs as their
    kind must have. -/
theorem expand?_exact (graph : Graph) (root : NodeId) :
    ((∃ expr, graph.expand? root = some expr) ↔ (∃ depth, Within graph.inputs depth root) ∧
      ∀ id, Reaches graph.inputs root id → ∃ node, graph.node? id = some node ∧ node.IsShaped) ∧
    ∀ expr, graph.expand? root = some expr ↔ graph.Derives root expr :=
  ⟨exists_expand?_iff, fun _ => expand?_eq_some_iff_derives⟩

/-- A graph with a shared input, a selection between two values only, and a constant that makes no
    use of it. -/
def lopsided : Graph where
  name := "lopsided"
  arrays := Table.empty
  scopes := []
  nodes := #[
    ⟨.constant "1.0", .float 64, [], ⟨0⟩⟩,
    ⟨.compute (.arith .fadd), .float 64, [⟨0⟩, ⟨0⟩], ⟨1⟩⟩,
    ⟨.select, .float 64, [⟨0⟩, ⟨1⟩], ⟨2⟩⟩,
    ⟨.constant "2.0", .float 64, [⟨2⟩], ⟨3⟩⟩]

theorem lopsided_expand?_exact :
    lopsided.Derives ⟨1⟩ (.op (.arith .fadd) (.float 64) [.const "1.0", .const "1.0"]) ∧
    ¬ ((∃ depth, Within lopsided.inputs depth ⟨3⟩) ∧ ∀ id, Reaches lopsided.inputs ⟨3⟩ id →
      ∃ node, lopsided.node? id = some node ∧ node.IsShaped) := by
  refine ⟨((expand?_exact lopsided ⟨1⟩).2 _).1 rfl, fun sound => ?_⟩
  obtain ⟨expr, found⟩ := (expand?_exact lopsided ⟨3⟩).1.2 sound
  cases found

end Graph

end RegionFlow
