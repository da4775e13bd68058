/-
Module: RegionFlow.Proofs.Unfolding
Purpose: Expansion with remembered results against plain unfolding. Items are taken apart into items and
  results are put together from the results of the parts; an item unfolds to a result if this ends.
  The search that remembers results and refuses items on its own path finds the result of an item
  exactly when the item unfolds to it. Values of a region and nodes of a graph are two instances.
Main exports: Layout.Unfolds, Layout.run_unfoldBelow_sound, Layout.run_unfoldBelow_complete,
  Arena.expand_eq_ok_iff, Graph.expand?_eq_some_iff
-/
import RegionFlow.Graph.Expansion
import RegionFlow.Proofs.ArenaGrowth
import RegionFlow.Proofs.Depth
import RegionFlow.Proofs.Sequencing
import RegionFlow.Value.Expansion

namespace RegionFlow

/-- How an item is taken apart into items, and how the results of these make its result. -/
abbrev Layout (α ε β : Type) : Type :=
  α → Except ε (List α × (List β → Except ε β))

namespace Layout

open Search Sequencing

variable {α ε β : Type} {layout : Layout α ε β}

/-- The parts of an item; an item that cannot be taken apart has none. -/
def parts (layout : Layout α ε β) (item : α) : List α :=
  match layout item with
  | .ok (parts, _) => parts
  | .error _ => []

/-- The plain unfolding of an item: its parts unfold, and their results make the result. -/
inductive Unfolds (layout : Layout α ε β) : α → β → Prop where
  | made {item : α} {parts : List α} {whole : List β → Except ε β} {results : List β} {result : β}
      (opened : layout item = .ok (parts, whole))
      (aligned : parts.length = results.length)
      (each : ∀ pair ∈ parts.zip results, Unfolds layout pair.1 pair.2)
      (joined : whole results = .ok result) :
      Unfolds layout item result

/-- An item unfolds to what the unfoldings of its parts make. -/
theorem unfolds_iff {item : α} {result : β} :
    Unfolds layout item result ↔
      ∃ parts whole results, layout item = .ok (parts, whole) ∧
        List.Forall₂ (Unfolds layout) parts results ∧ whole results = .ok result := by
  constructor
  · rintro ⟨opened, aligned, each, joined⟩
    exact ⟨_, _, _, opened,
      List.forall₂_iff_zip.2 ⟨aligned, fun member => each _ member⟩, joined⟩
  · rintro ⟨parts, whole, results, opened, unfolded, joined⟩
    obtain ⟨aligned, each⟩ := List.forall₂_iff_zip.1 unfolded
    exact .made opened aligned (fun _ member => each member) joined

/-- An item has at most one unfolding. -/
theorem Unfolds.unique {item : α} {first second : β} (one : Unfolds layout item first)
    (two : Unfolds layout item second) : first = second := by
  induction one generalizing second with
  | @made item parts whole results first opened aligned each joined ih =>
    obtain ⟨parts', whole', results', opened', unfolded', joined'⟩ := unfolds_iff.1 two
    rw [opened] at opened'
    cases opened'
    have forced : List.Forall₂ (fun part result => ∀ {other}, Unfolds layout part other →
        result = other) parts results :=
      List.forall₂_iff_zip.2 ⟨aligned, fun member => ih _ member⟩
    have same : results = results' := partners_eq (fun one two => one two) forced unfolded'
    rw [same, joined'] at joined
    exact (Except.ok.inj joined).symm

/-- Every chain of parts below an item that unfolds comes to an end. -/
theorem Unfolds.acc {item : α} {result : β} (unfolded : Unfolds layout item result) :
    Acc (Below layout.parts) item := by
  induction unfolded with
  | @made item parts whole results result opened aligned each joined ih =>
    constructor
    intro part member
    have inParts : part ∈ parts := by simpa [Below, Layout.parts, opened] using member
    have ended : List.Forall₂ (fun part _ => Acc (Below layout.parts) part) parts results :=
      List.forall₂_iff_zip.2 ⟨aligned, fun member => ih _ member⟩
    obtain ⟨_, _, ends⟩ := exists_partner ended inParts
    exact ends

/-! ### The search that remembers results -/

/-- What is remembered is right. -/
def Remembers (layout : Layout α ε β) (memo : List (α × β)) : Prop :=
  ∀ entry ∈ memo, Unfolds layout entry.1 entry.2

theorem remembers_nil : Remembers layout [] := by
  intro entry member
  cases member

section Search

variable [DecidableEq α]

/-- Unfold an item that was reached along `path`, looking up results found before. Items on a path are
    distinct, so `depth` bounds its length; `loop` is the failure of an item that reaches itself. -/
def unfoldBelow (layout : Layout α ε β) (loop : α → ε) :
    (depth : Nat) → (path : List α) → α → StateT (List (α × β)) (Except ε) β
  | 0, _, item => throw (loop item)
  | depth + 1, path, item => do
    match (← get).lookup item with
    | some result => return result
    | none =>
      if item ∈ path then throw (loop item)
      else
        match layout item with
        | .error fault => throw fault
        | .ok (parts, whole) =>
          let results ← parts.mapM (unfoldBelow layout loop depth (item :: path))
          match whole results with
          | .error fault => throw fault
          | .ok result =>
            modify ((item, result) :: ·)
            return result

variable {loop : α → ε} {depth : Nat} {path : List α} {item : α} {result : β}
  {memo memo' : List (α × β)}

/-- One step of the search: a remembered result, or a new one made from those of the parts. -/
theorem run_unfoldBelow_succ :
    (unfoldBelow layout loop (depth + 1) path item).run memo = .ok (result, memo') ↔
      (memo.lookup item = some result ∧ memo = memo') ∨
      (memo.lookup item = none ∧ item ∉ path ∧ ∃ parts whole results middle,
        layout item = .ok (parts, whole) ∧
        (parts.mapM (unfoldBelow layout loop depth (item :: path))).run memo
          = .ok (results, middle) ∧
        whole results = .ok result ∧ memo' = (item, result) :: middle) := by
  rw [unfoldBelow, run_bind_eq_ok]
  constructor
  · rintro ⟨_, _, got, rest⟩
    cases got
    cases found : memo.lookup item with
    | some known =>
      rw [found, run_pure_eq_ok] at rest
      cases rest
      exact .inl ⟨rfl, rfl⟩
    | none =>
      simp only [found] at rest
      by_cases visited : item ∈ path
      · rw [if_pos visited, run_throw_eq_ok] at rest
        exact False.elim rest
      · rw [if_neg visited] at rest
        cases opened : layout item with
        | error fault =>
          rw [opened, run_throw_eq_ok] at rest
          exact False.elim rest
        | ok pair =>
          obtain ⟨parts, whole⟩ := pair
          rw [opened] at rest
          obtain ⟨results, middle, mapped, last⟩ := run_bind_eq_ok.1 rest
          cases joined : whole results with
          | error fault =>
            rw [joined, run_throw_eq_ok] at last
            exact False.elim last
          | ok made =>
            rw [joined] at last
            cases last
            exact .inr ⟨rfl, visited, parts, whole, results, middle, rfl, mapped, joined, rfl⟩
  · rintro (⟨found, rfl⟩ | ⟨found, fresh, parts, whole, results, middle, opened, mapped, joined, rfl⟩)
    · refine ⟨memo, memo, rfl, ?_⟩
      rw [found, run_pure_eq_ok]
    · refine ⟨memo, memo, rfl, ?_⟩
      simp only [found]
      rw [if_neg fresh, opened]
      refine run_bind_eq_ok.2 ⟨results, middle, mapped, ?_⟩
      rw [joined]
      rfl

theorem Remembers.lookup (right : Remembers layout memo) (found : memo.lookup item = some result) :
    Unfolds layout item result := by
  obtain ⟨before, after, rfl, _⟩ := List.lookup_eq_some_iff.1 found
  exact right (item, result) (by simp)

/-- What the search finds is the unfolding, and what it remembers stays right. -/
theorem run_unfoldBelow_sound (right : Remembers layout memo)
    (ran : (unfoldBelow layout loop depth path item).run memo = .ok (result, memo')) :
    Remembers layout memo' ∧ Unfolds layout item result := by
  induction depth generalizing path item memo result memo' with
  | zero => exact False.elim (run_throw_eq_ok.1 ran)
  | succ depth ih =>
    rcases run_unfoldBelow_succ.1 ran with ⟨found, rfl⟩ |
      ⟨_, _, parts, whole, results, middle, opened, mapped, joined, rfl⟩
    · exact ⟨right, right.lookup found⟩
    · obtain ⟨rightMiddle, _, unfolded⟩ := run_mapM_ok (Remembers layout)
        (fun _ _ => True) (fun _ => Unfolds layout) (fun _ => trivial) (fun _ _ => trivial)
        (fun _ holds => holds)
        (fun part _ {_ _ _} before stepped => ⟨(ih before stepped).1, trivial, (ih before stepped).2⟩)
        right mapped
      have made : Unfolds layout item result :=
        unfolds_iff.2 ⟨parts, whole, results, opened, unfolded, joined⟩
      exact ⟨List.forall_mem_cons.2 ⟨made, rightMiddle⟩, made⟩

/-- The search finds the unfolding of an item, if its depth suffices and the item is reached along a
    path of items that lead to it. -/
theorem run_unfoldBelow_complete (unfolded : Unfolds layout item result)
    (within : Within layout.parts depth item) (right : Remembers layout memo)
    (leads : ∀ earlier ∈ path, Relation.TransGen (Below layout.parts) item earlier) :
    ∃ memo', (unfoldBelow layout loop depth path item).run memo = .ok (result, memo') ∧
      Remembers layout memo' := by
  induction depth generalizing path item memo result with
  | zero => exact False.elim within
  | succ depth ih =>
    cases found : memo.lookup item with
    | some known =>
      rw [unfolded.unique (right.lookup found)]
      exact ⟨memo, run_unfoldBelow_succ.2 (.inl ⟨found, rfl⟩), right⟩
    | none =>
      -- an item on its own path would lead to itself, and what unfolds leads to no cycle
      have fresh : item ∉ path := fun visited => not_transGen_self unfolded.acc (leads item visited)
      obtain ⟨parts, whole, results, opened, parted, joined⟩ := unfolds_iff.1 unfolded
      have partsEq : layout.parts item = parts := by simp [Layout.parts, opened]
      have each : List.Forall₂ (fun part result => ∀ {before}, Remembers layout before →
          ∃ after, (unfoldBelow layout loop depth (item :: path) part).run before
            = .ok (result, after) ∧ Remembers layout after) parts results := by
        obtain ⟨aligned, pairs⟩ := List.forall₂_iff_zip.1 parted
        refine List.forall₂_iff_zip.2 ⟨aligned, ?_⟩
        intro part partResult member before rightBefore
        have isPart : part ∈ layout.parts item := partsEq ▸ (List.of_mem_zip member).1
        refine ih (pairs member) (within part isPart) rightBefore ?_
        intro earlier visited
        rcases List.mem_cons.1 visited with rfl | visited
        · exact .single isPart
        · exact .head isPart (leads earlier visited)
      obtain ⟨middle, mapped, rightMiddle⟩ := run_mapM_exists each right
      exact ⟨(item, result) :: middle, run_unfoldBelow_succ.2 (.inr ⟨found, fresh, parts, whole,
        results, middle, opened, mapped, joined, rfl⟩), List.forall_mem_cons.2 ⟨unfolded, rightMiddle⟩⟩

/-- From nothing remembered, the search finds exactly the unfolding of an item. `items` holds every item
    with parts. -/
theorem run'_unfoldBelow_eq_ok_iff {items : List α}
    (listed : ∀ item, layout.parts item ≠ [] → item ∈ items) (enough : items.length < depth) :
    (unfoldBelow layout loop depth [] item).run' [] = .ok result ↔ Unfolds layout item result := by
  rw [StateT.run'_eq]
  constructor
  · intro ran
    cases searched : (unfoldBelow layout loop depth [] item).run [] with
    | error fault =>
      rw [searched] at ran
      cases ran
    | ok found =>
      obtain ⟨found, memo⟩ := found
      rw [searched] at ran
      cases ran
      exact (run_unfoldBelow_sound remembers_nil searched).2
  · intro unfolded
    have within : Within layout.parts depth item := (within_of_acc listed unfolded.acc).mono enough
    have leads : ∀ earlier ∈ [], Relation.TransGen (Below layout.parts) item earlier := by simp
    obtain ⟨memo, searched, _⟩ := run_unfoldBelow_complete unfolded within remembers_nil leads
    rw [searched]
    rfl

end Search

end Layout

/-! ### Values of a region -/

/-- A composite value is expanded from its arguments, any other from nothing. -/
theorem Value.operands_of_composite {value : Value} (composite : value.kind.isComposite = true) :
    value.operands = value.args := if_pos composite

theorem Value.operands_of_atom {value : Value} (atom : value.kind.isComposite = false) :
    value.operands = [] := if_neg (Bool.eq_false_iff.1 atom)

theorem Value.mem_args_of_mem_operands {value : Value} {id : ValueId}
    (member : id ∈ value.operands) : id ∈ value.args := by
  unfold operands at member
  split at member
  · exact member
  · cases member

namespace Arena

/-- Values are taken apart into their operands. -/
def layout (arena : Arena) : Layout ValueId ValueId Expr := fun id =>
  match arena.get? id with
  | none => .error id
  | some value => .ok (value.operands, fun operands => .ok (value.assemble operands))

/-- Plain unfolding of a value. -/
abbrev Unfolds (arena : Arena) : ValueId → Expr → Prop :=
  arena.layout.Unfolds

theorem unfolds_iff {arena : Arena} {id : ValueId} {expr : Expr} :
    arena.Unfolds id expr ↔ ∃ value operands, arena.get? id = some value ∧
      List.Forall₂ arena.Unfolds value.operands operands ∧ value.assemble operands = expr := by
  refine Layout.unfolds_iff.trans ?_
  constructor
  · rintro ⟨parts, whole, operands, opened, unfolded, joined⟩
    cases found : arena.get? id with
    | none => simp [layout, found] at opened
    | some value =>
      simp only [layout, found, Except.ok.injEq, Prod.mk.injEq] at opened
      obtain ⟨rfl, rfl⟩ := opened
      exact ⟨value, operands, rfl, unfolded, Except.ok.inj joined⟩
  · rintro ⟨value, operands, found, unfolded, rfl⟩
    exact ⟨value.operands, fun operands => .ok (value.assemble operands), operands,
      by simp only [layout, found], unfolded, rfl⟩

/-- Expansion of values is the search that remembers results. -/
theorem expandBelow_eq (arena : Arena) (depth : Nat) :
    arena.expandBelow depth = arena.layout.unfoldBelow (fun id => id) depth := by
  induction depth with
  | zero => rfl
  | succ depth ih =>
    funext path id
    rw [expandBelow, Layout.unfoldBelow, ih]
    congr 1
    funext memo
    cases memo.lookup id with
    | some expr => rfl
    | none =>
      by_cases visited : id ∈ path
      · simp only [if_pos visited]
      · simp only [if_neg visited]
        cases found : arena.get? id with
        | none => simp [layout, found]
        | some value => simp [layout, found]

/-- Only values have operands. -/
theorem mem_ids_of_parts {arena : Arena} (id : ValueId) (parted : arena.layout.parts id ≠ []) :
    id ∈ arena.ids := by
  rw [mem_ids]
  by_contra outside
  have missing : arena.get? id = none := get?_eq_none_iff.2 (Nat.le_of_not_lt outside)
  simp [Layout.parts, layout, missing] at parted

/-- A value expands to an expression exactly when it unfolds to it. -/
theorem expand_eq_ok_iff {arena : Arena} {id : ValueId} {expr : Expr} :
    arena.expand id = .ok expr ↔ arena.Unfolds id expr := by
  rw [expand, expandBelow_eq]
  refine Layout.run'_unfoldBelow_eq_ok_iff mem_ids_of_parts ?_
  rw [length_ids]
  exact Nat.lt_succ_self arena.size

end Arena

/-! ### Nodes of a graph -/

namespace Graph

/-- Nodes are taken apart into their inputs. -/
def layout (nodes : Array Node) : Layout NodeId Unit Expr := fun id =>
  match nodes[id.index]? with
  | none => .error ()
  | some node => .ok (node.inputs, fun inputs =>
    match node.assemble? inputs with
    | none => .error ()
    | some expr => .ok expr)

/-- Plain unfolding of a node. -/
abbrev Unfolds (nodes : Array Node) : NodeId → Expr → Prop :=
  (layout nodes).Unfolds

theorem unfolds_iff {nodes : Array Node} {id : NodeId} {expr : Expr} :
    Unfolds nodes id expr ↔ ∃ node inputs, nodes[id.index]? = some node ∧
      List.Forall₂ (Unfolds nodes) node.inputs inputs ∧ node.assemble? inputs = some expr := by
  refine Layout.unfolds_iff.trans ?_
  constructor
  · rintro ⟨parts, whole, inputs, opened, unfolded, joined⟩
    cases found : nodes[id.index]? with
    | none => simp [layout, found] at opened
    | some node =>
      simp only [layout, found, Except.ok.injEq, Prod.mk.injEq] at opened
      obtain ⟨rfl, rfl⟩ := opened
      cases made : node.assemble? inputs with
      | none => simp [made] at joined
      | some other =>
        simp only [made, Except.ok.injEq] at joined
        exact ⟨node, inputs, rfl, unfolded, joined ▸ made⟩
  · rintro ⟨node, inputs, found, unfolded, made⟩
    refine ⟨node.inputs, fun inputs => match node.assemble? inputs with
      | none => .error ()
      | some expr => .ok expr, inputs, by simp only [layout, found], unfolded, ?_⟩
    simp only [made]

/-- Two traversals that agree item by item, failures without a cause on one side, agree. -/
theorem run_mapM_toOption {σ ε α β : Type} {plain : α → StateT σ Option β}
    {caused : α → StateT σ (Except ε) β}
    (agree : ∀ item state, (plain item).run state = ((caused item).run state).toOption)
    (items : List α) (state : σ) :
    (items.mapM plain).run state = ((items.mapM caused).run state).toOption := by
  induction items generalizing state with
  | nil => rfl
  | cons item items ih =>
    rw [List.mapM_cons, List.mapM_cons, StateT.run_bind, StateT.run_bind, agree]
    cases (caused item).run state with
    | error fault => rfl
    | ok found =>
      obtain ⟨result, middle⟩ := found
      change ((items.mapM plain >>= fun results => pure (result :: results)).run middle) =
        ((items.mapM caused >>= fun results => pure (result :: results)).run middle).toOption
      rw [StateT.run_bind, StateT.run_bind, ih]
      cases (items.mapM caused).run middle with
      | error fault => rfl
      | ok found => rfl

/-- Expansion of nodes is the search that remembers results. -/
theorem run_expandBelow (graph : Graph) (depth : Nat) (path : List NodeId) (id : NodeId)
    (memo : List (NodeId × Expr)) :
    (graph.expandBelow depth path id).run memo =
      (((layout graph.nodes).unfoldBelow (fun _ => ()) depth path id).run memo).toOption := by
  induction depth generalizing path id memo with
  | zero => rfl
  | succ depth ih =>
    simp only [expandBelow, Layout.unfoldBelow, StateT.run_bind, StateT.run_get, pure_bind]
    cases memo.lookup id with
    | some expr => rfl
    | none =>
      by_cases visited : id ∈ path
      · simp only [if_pos visited]
        rfl
      · simp only [if_neg visited]
        cases found : graph.nodes[id.index]? with
        | none =>
          simp only [node?, layout, found]
          rfl
        | some node =>
          simp only [node?, layout, found]
          rw [StateT.run_bind, StateT.run_bind, run_mapM_toOption (ih (id :: path))]
          generalize (node.inputs.mapM
            ((layout graph.nodes).unfoldBelow (fun _ => ()) depth (id :: path))).run memo = searched
          cases searched with
          | error fault => rfl
          | ok pair =>
            obtain ⟨inputs, middle⟩ := pair
            simp only [Except.toOption, bind, Option.bind, Except.bind]
            cases node.assemble? inputs with
            | none => rfl
            | some expr => rfl

/-- Only nodes have inputs. -/
theorem mem_places_of_parts {nodes : Array Node} (id : NodeId)
    (parted : (layout nodes).parts id ≠ []) : id ∈ (List.range nodes.size).map NodeId.mk := by
  refine List.mem_map.2 ⟨id.index, List.mem_range.2 ?_, rfl⟩
  by_contra outside
  have missing : nodes[id.index]? = none := Array.getElem?_eq_none (Nat.le_of_not_lt outside)
  simp [Layout.parts, layout, missing] at parted

/-- A node expands to an expression exactly when it unfolds to it. -/
theorem expand?_eq_some_iff {graph : Graph} {id : NodeId} {expr : Expr} :
    graph.expand? id = some expr ↔ Unfolds graph.nodes id expr := by
  have enough : ((List.range graph.nodes.size).map NodeId.mk).length < graph.nodes.size + 1 := by
    simp
  have search : Layout.Unfolds (layout graph.nodes) id expr ↔
      ((layout graph.nodes).unfoldBelow (fun _ => ()) (graph.nodes.size + 1) [] id).run' []
        = .ok expr :=
    (Layout.run'_unfoldBelow_eq_ok_iff mem_places_of_parts enough).symm
  refine Iff.trans ?_ search.symm
  rw [expand?, StateT.run'_eq, StateT.run'_eq, run_expandBelow]
  generalize ((layout graph.nodes).unfoldBelow (fun _ => ()) (graph.nodes.size + 1) [] id).run []
    = searched
  cases searched with
  | error fault =>
    constructor
    · intro found
      cases found
    · intro found
      cases found
  | ok pair =>
    constructor
    · intro found
      cases found
      rfl
    · intro found
      cases found
      rfl

end Graph

end RegionFlow
