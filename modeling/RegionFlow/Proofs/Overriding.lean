/-
Module: RegionFlow.Proofs.Overriding
Purpose: What the listing of a region does to statements that have listings of their own. It does
  not give way to these: a name that it defines keeps its meaning, and definitions of the name in
  the listing of a statement do not count. If each name that a record needs is made from the same
  operands with and without the listing of the region, the same statements are left out, and each
  write that is left stores the same expression.
Main exports: Draft.Corresponds, Draft.Corresponds.droppedNames_eq, Region.Ties,
  Region.unfolds_of_ties, Region.outcome, Record.Lists, Record.map_outcome_relist
-/
import RegionFlow.Proofs.Dropping
import RegionFlow.Proofs.Lockstep
import RegionFlow.Proofs.Resolving
import RegionFlow.Proofs.Unfolding

namespace RegionFlow

open Sequencing

/-- What is related to a value is a value. -/
theorem exists_of_rel {α β : Type} {Related : α → β → Prop} {first : Option α} {second : Option β}
    (related : Option.Rel Related first second) {one : α} (found : first = some one) :
    ∃ two, second = some two ∧ Related one two := by
  subst found
  cases related with
  | some holds => exact ⟨_, rfl, holds⟩

theorem rel_flip {α β : Type} {Related : α → β → Prop} {Flipped : β → α → Prop}
    (flips : ∀ {one two}, Related one two → Flipped two one) {first : Option α} {second : Option β}
    (related : Option.Rel Related first second) : Option.Rel Flipped second first := by
  cases related with
  | none => exact .none
  | some holds => exact .some (flips holds)

/-- The first results of related items are related. -/
theorem rel_findSome? {α β γ δ : Type} {Related : α → β → Prop} {After : γ → δ → Prop}
    {search : α → Option γ} {other : β → Option δ}
    (each : ∀ {one two}, Related one two → Option.Rel After (search one) (other two))
    {items : List α} {results : List β} (related : List.Forall₂ Related items results) :
    Option.Rel After (items.findSome? search) (results.findSome? other) := by
  induction related with
  | nil => exact .none
  | @cons one two _ _ here _ ih =>
    have found := each here
    rw [List.findSome?_cons, List.findSome?_cons]
    generalize search one = left, other two = right at found
    cases found with
    | none => exact ih
    | some holds => exact .some holds

/-- Related items and results are items and results. -/
theorem partners_mem {α β : Type} {Related : α → β → Prop} {items : List α} {results : List β}
    (related : List.Forall₂ Related items results) :
    List.Forall₂ (fun item result => item ∈ items ∧ result ∈ results ∧ Related item result)
      items results := by
  obtain ⟨aligned, each⟩ := List.forall₂_iff_zip.1 related
  refine List.forall₂_iff_zip.2 ⟨aligned, fun member => ?_⟩
  obtain ⟨item, result⟩ := List.of_mem_zip member
  exact ⟨item, result, each member⟩

/-! ### Values alike -/

theorem ValueKind.isComposite_untexted (kind : ValueKind) :
    kind.untexted.isComposite = kind.isComposite := by
  cases kind with
  | access direction => cases direction <;> rfl
  | _ => rfl

namespace Value

/-- The expression of a value does not depend on the texts of instructions. -/
theorem assemble_untexted (value : Value) (operands : List Expr) :
    ({ value with kind := value.kind.untexted }).assemble operands = value.assemble operands := by
  obtain ⟨reference, type, kind, args⟩ := value
  cases kind with
  | access direction =>
    cases direction with
    | read => rfl
    | write => rcases operands with _ | ⟨_, _ | ⟨_, _⟩⟩ <;> rfl
  | forward => rcases operands with _ | ⟨_, _ | ⟨_, _⟩⟩ <;> rfl
  | selection => rcases operands with _ | ⟨_, _ | ⟨_, _ | ⟨_, _ | ⟨_, _⟩⟩⟩⟩ <;> rfl
  | _ => rfl

theorem isRead_untexted (value : Value) :
    ({ value with kind := value.kind.untexted }).isRead = value.isRead := by
  obtain ⟨reference, type, kind, args⟩ := value
  cases kind with
  | access direction => cases direction <;> rfl
  | _ => rfl

variable {one two : Value}

/-- Values alike are both made from their arguments or both not. -/
theorem Resembles.isComposite_eq (same : one.Resembles two) :
    one.kind.isComposite = two.kind.isComposite := by
  rw [← one.kind.isComposite_untexted, same.kind, two.kind.isComposite_untexted]

theorem Resembles.isRead_eq (same : one.Resembles two) : one.isRead = two.isRead := by
  rw [← one.isRead_untexted, ← two.isRead_untexted, same.kind]
  rfl

/-- Values alike make the same of their operands. -/
theorem Resembles.assemble_eq (same : one.Resembles two) (operands : List Expr) :
    one.assemble operands = two.assemble operands := by
  rw [← one.assemble_untexted, ← two.assemble_untexted, same.kind]
  unfold assemble
  rw [same.reference, same.type]

end Value

/-- Accesses that match are both reads or both writes. -/
theorem Region.Statement.isReadIn_eq_of_matches {Allowed : String → Prop} {first second : Arena}
    {one two : Region.Access} (matched : Arena.Matches Allowed first second one.value two.value) :
    isReadIn first one = isReadIn second two := by
  obtain ⟨value, other, found, held, same, _⟩ := matched
  simp only [isReadIn, found, held, Option.map_some, Option.getD_some, same.isRead_eq]

namespace Region.Draft

/-- Two drafts have the same parameters and statements, and each name that is needed is made from
    the same operands. -/
structure Corresponds (Needed : String → Prop) (first second : Draft) : Prop
    extends Parallel Needed first second where
  computations : ∀ {name}, Needed name → Option.Rel (Arena.Matches Needed first.arena second.arena)
    (first.computations.get? name) (second.computations.get? name)
  formless : ∀ {name}, Needed name → (name ∈ first.formless ↔ name ∈ second.formless)
  sound : first.Sound
  soundToo : second.Sound

variable {Needed : String → Prop} {first second : Draft}

theorem Corresponds.flip (same : Corresponds Needed first second) : Corresponds Needed second first where
  toParallel := same.toParallel.flip
  computations := fun needed => rel_flip Arena.Matches.flip (same.computations needed)
  formless := fun needed => (same.formless needed).symm
  sound := same.soundToo
  soundToo := same.sound

/-! ### Statements left out -/

/-- Places of two drafts that a search for merges without a form passes alike: they hold the same
    operand, or the computations of a name that is needed. -/
inductive Linked (Needed : String → Prop) (first second : Draft) : ValueId → ValueId → Prop where
  | operand {one two : ValueId} (same : Arena.SameOperand Needed first.arena second.arena one two) :
      Linked Needed first second one two
  | computation {name : String} {one two : ValueId} (needed : Needed name)
      (known : first.computations.get? name = some one)
      (knownToo : second.computations.get? name = some two) : Linked Needed first second one two

/-- The writes of statements that match. -/
theorem writes_of_matches {arena other : Arena} {one two : Statement}
    (matched : Statement.Matches Needed arena other one two) :
    List.Forall₂ (fun entry entryToo => entry.1 = entryToo.1 ∧
        Arena.Matches Needed arena other entry.2.value entryToo.2.value)
      (one.writes arena) (two.writes other) := by
  refine List.rel_filter ?_ matched.accesses
  rintro entry entryToo ⟨_, matched⟩
  dsimp only
  rw [Statement.isReadIn_eq_of_matches matched]

/-- What the search finds at one place it finds at the other. -/
theorem Linked.holdsPlaceholder (same : Corresponds Needed first second) {one two : ValueId}
    (linked : Linked Needed first second one two) {name : String}
    (holds : first.HoldsPlaceholder one name) : Needed name ∧ second.HoldsPlaceholder two name := by
  obtain ⟨value, found, placeholder, rfl⟩ := holds
  rw [Value.isPlaceholder_iff] at placeholder
  cases linked with
  | operand sameOperand =>
    obtain ⟨⟨⟨name⟩ | ⟨text⟩, type⟩, allowed, stands, standsToo⟩ := sameOperand
    · obtain ⟨_, held, _, named⟩ := stands
      obtain ⟨other, heldToo, kind, namedToo⟩ := standsToo
      cases found.symm.trans held
      exact ⟨named ▸ allowed name rfl, other, heldToo, Value.isPlaceholder_iff.2 kind,
        namedToo.trans named.symm⟩
    · obtain ⟨_, held, kind⟩ := stands
      cases found.symm.trans held
      rw [placeholder] at kind
      cases kind
  | computation needed known _ =>
    -- a computation is no placeholder
    obtain ⟨_, held, _, kind⟩ := same.sound.consistent.computation known
    cases found.symm.trans held
    rw [placeholder] at kind
    cases kind

/-- A step of the search from one place is a step from the other. -/
theorem Linked.step (same : Corresponds Needed first second) {one two child : ValueId}
    (linked : Linked Needed first second one two) (leads : first.Leads one child) :
    ∃ other, second.Leads two other ∧ Linked Needed first second child other := by
  cases leads with
  | producer found placeholder known =>
    obtain ⟨needed, other, held, placeholderToo, named⟩ :=
      linked.holdsPlaceholder same ⟨_, found, placeholder, rfl⟩
    obtain ⟨producer, knownToo, _⟩ := exists_of_rel (same.computations needed) known
    exact ⟨producer, .producer held placeholderToo (named ▸ knownToo), .computation needed known knownToo⟩
  | @arg value found member =>
    cases linked with
    | operand sameOperand =>
      -- operands are made from nothing
      obtain ⟨_, _, stands, _⟩ := sameOperand
      obtain ⟨_, held, kind⟩ := stands.isOperand
      cases found.symm.trans held
      have atom : value.kind.isComposite = false := by
        cases same : value.kind <;> rw [same] at kind <;> first | rfl | cases kind
      rw [(same.sound.made found).args_eq_nil atom] at member
      cases member
    | computation needed known knownToo =>
      obtain ⟨_, knownAgain, matched⟩ := exists_of_rel (same.computations needed) known
      cases knownToo.symm.trans knownAgain
      obtain ⟨_, other, held, heldToo, _, args⟩ := matched
      cases found.symm.trans held
      obtain ⟨partner, inside, sameOperand⟩ := exists_partner args member
      exact ⟨partner, .arg heldToo inside, .operand sameOperand⟩

theorem Linked.path (same : Corresponds Needed first second) {one two id : ValueId}
    (linked : Linked Needed first second one two) (leads : Relation.ReflTransGen first.Leads one id) :
    ∃ other, Relation.ReflTransGen second.Leads two other ∧ Linked Needed first second id other := by
  induction leads with
  | refl => exact ⟨two, .refl, linked⟩
  | tail _ step ih =>
    obtain ⟨middle, leadsToo, linkedToo⟩ := ih
    obtain ⟨other, stepToo, linkedLast⟩ := linkedToo.step same step
    exact ⟨other, leadsToo.tail stepToo, linkedLast⟩

section

variable (same : Corresponds Needed first second) {one two : Statement}
  (matched : Statement.Matches Needed first.arena second.arena one two)

include same matched

/-- A statement that depends on a merge in one draft does so in the other, and the merge is needed. -/
theorem Corresponds.dependsOn {merge : String} (depends : first.DependsOn one merge) :
    Needed merge ∧ second.DependsOn two merge := by
  obtain ⟨entry, writes, root, stored, id, leads, holds⟩ := depends
  obtain ⟨entryToo, writesToo, _, value, other, found, held, _, args⟩ :=
    exists_partner (writes_of_matches matched) writes
  rw [Arena.args_of_get? found] at stored
  obtain ⟨rootToo, storedToo, sameOperand⟩ := exists_partner args stored
  obtain ⟨idToo, leadsToo, linked⟩ := (Linked.operand sameOperand).path same leads
  obtain ⟨needed, holdsToo⟩ := linked.holdsPlaceholder same holds
  rw [← Arena.args_of_get? held] at storedToo
  exact ⟨needed, entryToo, writesToo, rootToo, storedToo, idToo, leadsToo, holdsToo⟩

/-- A statement that is left out of one draft is left out of the other. -/
theorem Corresponds.isSome_reachedMerge? (reached : (first.reachedMerge? one).isSome = true) :
    (second.reachedMerge? two).isSome = true := by
  obtain ⟨merge, marked, depends⟩ := (isSome_reachedMerge?_iff same.sound).1 reached
  obtain ⟨needed, dependsToo⟩ := same.dependsOn matched depends
  exact (isSome_reachedMerge?_iff same.soundToo).2 ⟨merge, (same.formless needed).1 marked, dependsToo⟩

end

/-- The same statements are left out of both drafts. -/
theorem Corresponds.droppedNames_eq (same : Corresponds Needed first second) :
    first.droppedNames = second.droppedNames := by
  have kept : List.Forall₂ (Statement.Matches Needed first.arena second.arena)
      (first.statements.values.filter fun statement => (first.reachedMerge? statement).isSome)
      (second.statements.values.filter fun statement => (second.reachedMerge? statement).isSome) := by
    refine List.rel_filter ?_ same.statements.values
    intro one two matched
    exact ⟨same.isSome_reachedMerge? matched, same.flip.isSome_reachedMerge? matched.flip⟩
  rw [Draft.droppedNames_eq, Draft.droppedNames_eq]
  exact (map_eq_map_of_partners (fun matched => matched.name.symm) kept).symm

/-- Two listings of a region that make the names that are needed from the same operands give drafts
    that correspond. -/
theorem corresponds_of_parallel {record other : Record} (drafted : draftOfRecord record = .ok first)
    (draftedToo : draftOfRecord other = .ok second) (parallel : Parallel record.Stores first second)
    (agree : ∀ name, record.Needs name → record.making? name = other.making? name) :
    Corresponds record.Needs first second := by
  obtain ⟨_, _, _, _, _, _, sound⟩ := draftOfRecord_ok drafted
  obtain ⟨_, _, _, _, _, _, soundToo⟩ := draftOfRecord_ok draftedToo
  refine { parallel.mono Record.Stores.needs with
    computations := ?_
    formless := ?_
    sound
    soundToo }
  · intro name needed
    by_cases made : ∃ type kind operands, record.making? name = some (.made type kind operands)
    · obtain ⟨type, kind, operands, makes⟩ := made
      obtain ⟨_, same, one, _, known, found, stands⟩ := makes_of_making? drafted makes
      obtain ⟨_, sameToo, two, _, knownToo, held, standsToo⟩ :=
        makes_of_making? draftedToo ((agree name needed).symm.trans makes)
      rw [known, knownToo]
      refine .some ⟨_, _, found, held, ⟨rfl, rfl, same.trans sameToo.symm⟩, ?_⟩
      refine Arena.sameOperands ?_ stands standsToo
      intro operand inside other refers
      exact needed.tail ⟨type, kind, operands, makes, operand, inside, refers⟩
    · have unmade : ∀ type kind operands, record.making? name ≠ some (.made type kind operands) :=
        fun type kind operands makes => made ⟨type, kind, operands, makes⟩
      rw [get?_computations_eq_none drafted unmade,
        get?_computations_eq_none draftedToo (agree name needed ▸ unmade)]
      exact .none
  · intro name needed
    rw [mem_formless_iff drafted, mem_formless_iff draftedToo, Record.rejects_iff, Record.rejects_iff,
      agree name needed]

end Region.Draft

/-! ### Regions that correspond -/

namespace Region

/-- Two regions have the same parameters and statements, and each name that is needed is made from
    the same operands. -/
structure Corresponds (Needed : String → Prop) (first second : Region) : Prop where
  parameters : Table.Agree
    (fun one two => Arena.Matches Needed first.arena second.arena one.value two.value)
    first.parameters second.parameters
  computations : ∀ {name}, Needed name → Option.Rel (Arena.Matches Needed first.arena second.arena)
    (first.computations.get? name) (second.computations.get? name)
  statements : Table.Agree (Statement.Matches Needed first.arena second.arena)
    first.statements second.statements
  consistent : Consistent first.arena first.parameters first.computations first.statements
  consistentToo : Consistent second.arena second.parameters second.computations second.statements

variable {Needed : String → Prop} {first second : Region}

/-- Regions correspond if their drafts do. -/
theorem corresponds_of_builtFrom {record other : Record} {draft draftToo : Draft}
    (same : Draft.Corresponds Needed draft draftToo) (built : BuiltFrom record draft first)
    (builtToo : BuiltFrom other draftToo second)
    (consistent : Consistent first.arena first.parameters first.computations first.statements)
    (consistentToo : Consistent second.arena second.parameters second.computations second.statements) :
    Corresponds Needed first second := by
  refine ⟨?_, ?_, ?_, consistent, consistentToo⟩
  · rw [built.arena, builtToo.arena, built.parameters, builtToo.parameters]
    exact same.parameters
  · rw [built.arena, builtToo.arena, built.computations, builtToo.computations]
    exact same.computations
  · rw [built.arena, builtToo.arena, built.statements, builtToo.statements, same.droppedNames_eq]
    exact same.statements.filter fun name => !draftToo.droppedNames.contains name

theorem Corresponds.flip (same : Corresponds Needed first second) : Corresponds Needed second first where
  parameters := same.parameters.flip.mono Arena.Matches.flip
  computations := fun needed => rel_flip Arena.Matches.flip (same.computations needed)
  statements := same.statements.flip.mono Statement.Matches.flip
  consistent := same.consistentToo
  consistentToo := same.consistent

/-- Places of two regions that propagation leaves with the same expression: the values make the same
    of their operands, and what is made from operands is made from the same ones and gets them
    resolved. -/
def Ties (Needed : String → Prop) (first second : Region) (one two : ValueId) : Prop :=
  ∃ value other, first.arena.get? one = some value ∧ second.arena.get? two = some other ∧
    (∀ operands, value.assemble operands = other.assemble operands) ∧
    value.kind.isComposite = other.kind.isComposite ∧
    (value.kind.isComposite = true → one ∈ first.argumentOwners ∧ two ∈ second.argumentOwners ∧
      List.Forall₂ (Arena.SameOperand Needed first.arena second.arena) value.args other.args)

theorem Ties.flip {one two : ValueId} (ties : Ties Needed first second one two) :
    Ties Needed second first two one := by
  obtain ⟨value, other, found, held, makes, composites, made⟩ := ties
  refine ⟨other, value, held, found, fun operands => (makes operands).symm, composites.symm, ?_⟩
  intro composite
  obtain ⟨owner, ownerToo, args⟩ := made (composites.trans composite)
  exact ⟨ownerToo, owner, List.Forall₂.flip (args.imp fun _ _ operand => operand.flip)⟩

/-- A value that is made from operands gets them resolved. -/
def Owns (region : Region) (id : ValueId) : Prop :=
  ∀ {value}, region.arena.get? id = some value → value.kind.isComposite = true →
    id ∈ region.argumentOwners

theorem ties_of_matches {one two : ValueId}
    (matched : Arena.Matches Needed first.arena second.arena one two) (owns : first.Owns one)
    (ownsToo : second.Owns two) : Ties Needed first second one two := by
  obtain ⟨value, other, found, held, same, args⟩ := matched
  refine ⟨value, other, found, held, same.assemble_eq, same.isComposite_eq, fun composite => ?_⟩
  exact ⟨owns found composite, ownsToo held (same.isComposite_eq ▸ composite), args⟩

/-- What a name denotes gets its operands resolved. -/
theorem owns_of_lookup? {region : Region}
    (consistent : Consistent region.arena region.parameters region.computations region.statements)
    {name : String} {id : ValueId} (denoted : region.lookup? name = some id) : region.Owns id := by
  intro value found composite
  obtain ⟨_, held, ⟨known, _⟩ | ⟨simple, _⟩⟩ := lookup?_kind consistent denoted
  · exact mem_argumentOwners_of_computation known
  · cases found.symm.trans held
    rw [simple] at composite
    cases composite

section

variable (same : Corresponds Needed first second)

include same

theorem Corresponds.findRead? (name : String) :
    Option.Rel (Arena.Matches Needed first.arena second.arena) (first.findRead? name)
      (second.findRead? name) := by
  refine rel_findSome? ?_ same.statements.values
  intro one two matched
  have found := matched.accesses.get? name
  generalize one.accesses.get? name = left, two.accesses.get? name = right at found
  cases found with
  | none => exact .none
  | some holds =>
    dsimp only
    rw [Statement.isReadIn_eq_of_matches holds]
    split
    · exact .some holds
    · exact .none

/-- A name that is needed denotes the same in both regions. -/
theorem Corresponds.lookup? {name : String} (needed : Needed name) :
    Option.Rel (Arena.Matches Needed first.arena second.arena) (first.lookup? name)
      (second.lookup? name) := by
  have parameters := same.parameters.get? name
  have computations := same.computations needed
  have reads := same.findRead? name
  have loops : Option.Rel (Arena.Matches Needed first.arena second.arena)
      (first.findInductionVariable? name) (second.findInductionVariable? name) :=
    rel_findSome? (fun matched => matched.loops.get? name) same.statements.values
  unfold Region.lookup?
  generalize first.parameters.get? name = one, second.parameters.get? name = two at parameters
  cases parameters with
  | some matched => exact .some matched
  | none =>
    generalize first.computations.get? name = one, second.computations.get? name = two at computations
    cases computations with
    | some matched => exact .some matched
    | none =>
      generalize first.findRead? name = one, second.findRead? name = two at reads
      cases reads with
      | some matched => exact .some matched
      | none => exact loops

/-- What becomes of the same operand in both regions has the same expression. -/
theorem Corresponds.resolveArg {one two : ValueId}
    (operand : Arena.SameOperand Needed first.arena second.arena one two) :
    Option.Rel (Ties Needed first second) (first.resolveArg one).id? (second.resolveArg two).id? := by
  obtain ⟨⟨⟨name⟩ | ⟨text⟩, type⟩, allowed, stands, standsToo⟩ := operand
  · obtain ⟨value, found, kind, named⟩ := stands
    obtain ⟨other, held, kindToo, namedToo⟩ := standsToo
    have denoted := same.lookup? (allowed name rfl)
    simp only [Region.resolveArg, found, held, Value.isPlaceholder_iff.2 kind,
      Value.isPlaceholder_iff.2 kindToo, if_true, named, namedToo]
    cases denotes : first.lookup? name with
    | none =>
      cases denotesToo : second.lookup? name with
      | none => exact .none
      | some producer =>
        rw [denotes, denotesToo] at denoted
        cases denoted
    | some producer =>
      obtain ⟨producerToo, denotesToo, matched⟩ := exists_of_rel denoted denotes
      rw [denotesToo]
      exact .some (ties_of_matches matched (owns_of_lookup? same.consistent denotes)
        (owns_of_lookup? same.consistentToo denotesToo))
  · obtain ⟨value, found, kind⟩ := stands
    obtain ⟨other, held, kindToo⟩ := standsToo
    change value.kind = .constant text at kind
    change other.kind = .constant text at kindToo
    have solid : value.isPlaceholder = false := by simp [Value.isPlaceholder, kind]
    have solidToo : other.isPlaceholder = false := by simp [Value.isPlaceholder, kindToo]
    simp only [Region.resolveArg, found, held, solid, solidToo]
    refine .some ⟨value, other, found, held, ?_, ?_, ?_⟩
    · intro operands
      simp only [Value.assemble, kind, kindToo]
    · rw [kind, kindToo]
    · intro composite
      rw [kind] at composite
      cases composite

theorem Corresponds.resolvedArgs {args others : List ValueId}
    (operands : List.Forall₂ (Arena.SameOperand Needed first.arena second.arena) args others) :
    List.Forall₂ (Ties Needed first second) (first.resolvedArgs args) (second.resolvedArgs others) := by
  induction operands with
  | nil => exact .nil
  | @cons one two _ _ operand _ ih =>
    have resolved := same.resolveArg operand
    rw [Region.resolvedArgs, Region.resolvedArgs, List.map_cons, List.map_cons, List.filterMap_cons,
      List.filterMap_cons]
    generalize (first.resolveArg one).id? = left, (second.resolveArg two).id? = right at resolved
    cases resolved with
    | none => exact ih
    | some ties => exact .cons ties ih

/-- After propagation, tied values make the same of tied operands. -/
theorem Ties.propagate {one two : ValueId} (ties : Ties Needed first second one two) :
    ∃ value other, first.propagate.1.arena.get? one = some value ∧
      second.propagate.1.arena.get? two = some other ∧
      (∀ operands, value.assemble operands = other.assemble operands) ∧
      List.Forall₂ (Ties Needed first second) value.operands other.operands := by
  obtain ⟨value, other, found, held, makes, composites, made⟩ := ties
  cases composite : value.kind.isComposite with
  | true =>
    obtain ⟨owner, ownerToo, args⟩ := made composite
    refine ⟨{ value with args := first.resolvedArgs value.args },
      { other with args := second.resolvedArgs other.args }, ?_, ?_, makes, ?_⟩
    · rw [get?_propagate, found, Option.map_some, if_pos owner]
    · rw [get?_propagate, held, Option.map_some, if_pos ownerToo]
    · have compositeToo : other.kind.isComposite = true := composites ▸ composite
      simpa only [Value.operands, composite, compositeToo, if_true] using same.resolvedArgs args
  | false =>
    obtain ⟨argsAfter, foundAfter⟩ := keeps_propagate first found
    obtain ⟨othersAfter, heldAfter⟩ := keeps_propagate second held
    refine ⟨_, _, foundAfter, heldAfter, makes, ?_⟩
    have atom : other.kind.isComposite = false := composites ▸ composite
    simp [Value.operands, composite, atom]

/-- After propagation, tied values unfold to the same expression. -/
theorem unfolds_of_ties {one two : ValueId} {expr : Expr}
    (unfolds : first.propagate.1.arena.Unfolds one expr) (ties : Ties Needed first second one two) :
    second.propagate.1.arena.Unfolds two expr := by
  -- by induction on the unfolding: propagation ties the operands of tied values in order
  induction unfolds generalizing two with
  | @made one parts whole results expr opened aligned each joined ih =>
    obtain ⟨value, other, found, held, makes, operands⟩ := ties.propagate same
    simp only [Arena.layout, found, Except.ok.injEq, Prod.mk.injEq] at opened
    obtain ⟨rfl, rfl⟩ := opened
    have unfolded : List.Forall₂ (fun part result => ∀ {partToo}, Ties Needed first second part partToo →
        second.propagate.1.arena.Unfolds partToo result) value.operands results :=
      List.forall₂_iff_zip.2 ⟨aligned, fun member => ih _ member⟩
    refine Arena.unfolds_iff.2 ⟨other, results, held, ?_, ?_⟩
    · exact partners_trans (fun tied unfolds => unfolds tied) operands.flip unfolded
    · rw [← makes]
      exact Except.ok.inj joined

end

/-! ### What regions store -/

/-- The statements of a region with their writes, each with the expression that it stores, if it has one. -/
def stored (region : Region) : List (String × List (String × Option Expr)) :=
  region.statements.entries.map fun statement =>
    (statement.1, (statement.2.writes region.arena).map fun write =>
      (write.1, (region.arena.expand write.2.value).toOption))

/-- The names of the statements that were left out of a region, and what the others store after
    propagation. -/
def outcome (region : Region) : List String × List (String × List (String × Option Expr)) :=
  (region.dropped.map DroppedStatement.name, region.propagate.1.stored)

/-- Propagation keeps the writes of a statement. -/
theorem writes_propagate (region : Region) (statement : Statement) :
    statement.writes region.propagate.1.arena = statement.writes region.arena := by
  unfold Statement.writes Statement.isReadIn
  simp only [get?_propagate, Option.map_map]
  congr 1
  funext entry
  congr 4
  funext value
  rw [Function.comp_apply]
  split <;> rfl

/-- Expressions of tied values are the same after propagation. -/
theorem Corresponds.expand_eq (same : Corresponds Needed first second) {one two : ValueId}
    (ties : Ties Needed first second one two) :
    (first.propagate.1.arena.expand one).toOption = (second.propagate.1.arena.expand two).toOption := by
  cases expanded : first.propagate.1.arena.expand one with
  | ok expr =>
    rw [Arena.expand_eq_ok_iff] at expanded
    rw [Arena.expand_eq_ok_iff.2 (unfolds_of_ties same expanded ties)]
  | error fault =>
    cases expandedToo : second.propagate.1.arena.expand two with
    | error => rfl
    | ok expr =>
      rw [Arena.expand_eq_ok_iff] at expandedToo
      rw [Arena.expand_eq_ok_iff.2 (unfolds_of_ties same.flip expandedToo ties.flip)] at expanded
      cases expanded

/-- After propagation, regions that correspond store the same. -/
theorem Corresponds.stored_eq (same : Corresponds Needed first second) :
    first.propagate.1.stored = second.propagate.1.stored := by
  refine (map_eq_map_of_partners ?_ (partners_mem same.statements)).symm
  rintro ⟨key, one⟩ ⟨_, two⟩ ⟨declared, declaredToo, rfl, matched⟩
  dsimp only at declaredToo matched ⊢
  rw [writes_propagate, writes_propagate]
  congr 1
  refine map_eq_map_of_partners ?_ (partners_mem (Draft.writes_of_matches matched))
  rintro ⟨label, access⟩ ⟨_, accessToo⟩ ⟨listed, listedToo, rfl, stores⟩
  have owner : access.value ∈ first.argumentOwners :=
    mem_argumentOwners_of_access (List.mem_map_of_mem declared)
      (List.mem_map_of_mem (List.mem_of_mem_filter listed))
  have ownerToo : accessToo.value ∈ second.argumentOwners :=
    mem_argumentOwners_of_access (List.mem_map_of_mem declaredToo)
      (List.mem_map_of_mem (List.mem_of_mem_filter listedToo))
  dsimp only
  rw [same.expand_eq (ties_of_matches stores (fun _ _ => owner) (fun _ _ => ownerToo))]

section

variable {record : Record} {listing : String} {lines others : List (String × Instruction)}
  (own : ∀ statement ∈ record.statements, statement.instructions.isSome = true)
  (listed : Instruction.readListing record.instructions = .ok lines)
  (relisted : Instruction.readListing listing = .ok others)
  (agree : ∀ name, record.Needs name → record.making? name = (record.relist listing).making? name)

include own listed relisted agree

/-- The drafts of a record with two listings of the region correspond. -/
theorem together_corresponds :
    Together (Draft.Corresponds record.Needs) (draftOfRecord record)
      (draftOfRecord (record.relist listing)) := by
  refine (Draft.together_draftOfRecord own listed relisted).strengthen ?_
  intro one two drafted draftedToo parallel
  exact Draft.corresponds_of_parallel drafted draftedToo parallel agree

/-- Building goes the same way for two listings of the region. -/
theorem together_ofRecord :
    Together (fun _ _ => True) (ofRecord record) (ofRecord (record.relist listing)) := by
  unfold ofRecord
  refine (together_corresponds own listed relisted agree).bind ?_
  intro one two drafted draftedToo same
  have names : one.droppedStatements.map DroppedStatement.name =
      two.droppedStatements.map DroppedStatement.name := same.droppedNames_eq
  have none : one.droppedStatements.isEmpty = two.droppedStatements.isEmpty := by
    rw [← List.isEmpty_map, names, List.isEmpty_map]
  have empty := (same.statements.filter fun name =>
    !(two.droppedStatements.map DroppedStatement.name).contains name).isEmpty
  dsimp only
  rw [names, none, empty]
  split
  · exact .error _
  · refine (together_self _).bind fun _ _ _ => ?_
    refine (together_self _).bind fun _ _ _ => ?_
    refine (together_self _).bind fun _ _ _ => ?_
    exact .ok trivial

/-- A record with two listings of the region has the same outcome. -/
theorem map_outcome_eq :
    (ofRecord record).map outcome = (ofRecord (record.relist listing)).map outcome := by
  refine (together_ofRecord own listed relisted agree).map_eq ?_
  intro first second ran ranToo _
  obtain ⟨draft, drafted, built⟩ := ofRecord_cases ran
  obtain ⟨draftToo, draftedToo, builtToo⟩ := ofRecord_cases ranToo
  have drafts := together_corresponds own listed relisted agree
  rw [drafted, draftedToo] at drafts
  cases drafts with
  | ok same =>
    have regions := corresponds_of_builtFrom same built builtToo (ofRecord_ok ran).1 (ofRecord_ok ranToo).1
    unfold outcome
    rw [regions.stored_eq, built.dropped, builtToo.dropped]
    exact congrArg (·, _) same.droppedNames_eq

end

end Region

namespace Record

variable {record : Record}

/-- The listing of the region defines a name, which counts no loop; this is its first definition there. -/
def Lists (record : Record) (name : String) (definition : Definition) : Prop :=
  name ∉ Region.inductionReferences record ∧
    (Definition.ofListing record.instructions).find? (Definition.settles name) = some definition

/-- A name that the listing of the region defines is made as it says, whatever comes after it. -/
theorem Lists.making?_eq {name : String} {definition : Definition}
    (lists : record.Lists name definition) : record.making? name = definition.making? := by
  rw [making?, if_neg lists.1, definitions, List.find?_append, lists.2]
  rfl

/-- Where each statement has its own listing, the definitions of the listing of the region come
    before those that there are without it. -/
theorem definitions_eq_append (own : ∀ statement ∈ record.statements, statement.instructions.isSome = true) :
    record.definitions = Definition.ofListing record.instructions ++ (record.relist "").definitions := by
  have each : record.statements.flatMap
        (Definition.ofStatement (Definition.branchesOf record.instructions)) =
      record.statements.flatMap (Definition.ofStatement (Definition.branchesOf "")) := by
    refine List.flatMap_congr fun statement member => ?_
    obtain ⟨listing, listed⟩ := Option.isSome_iff_exists.1 (own statement member)
    rw [Definition.ofStatement, Definition.ofStatement, listed]
  rw [definitions, each]
  rfl

/-- Other names are made as without the listing of the region. -/
theorem making?_eq_of_not_lists (own : ∀ statement ∈ record.statements, statement.instructions.isSome = true)
    {name : String} (unlisted : ∀ definition, ¬ record.Lists name definition) :
    record.making? name = (record.relist "").making? name := by
  have counted : Region.inductionReferences (record.relist "") = Region.inductionReferences record := rfl
  rw [making?, making?, counted]
  split
  · rfl
  · rename_i free
    have none : (Definition.ofListing record.instructions).find? (Definition.settles name) = none := by
      rw [Option.eq_none_iff_forall_ne_some]
      exact fun definition found => unlisted definition ⟨free, found⟩
    rw [definitions_eq_append own, List.find?_append, none, Option.none_or]

/-- A listing of the region does not give way to the listings of statements. The draft has each name
    that the listing of the region defines as this listing makes it. If all names that the record
    needs without it are made there as they are without it, and each statement has its own listing,
    then the record has the same outcome without it: it fails for the same reason, or the same
    statements are left out and the writes of the others store the same. -/
theorem map_outcome_relist {lines : List (String × Instruction)}
    (own : ∀ statement ∈ record.statements, statement.instructions.isSome = true)
    (listed : Instruction.readListing record.instructions = .ok lines) :
    (∀ draft name definition making, Region.draftOfRecord record = .ok draft →
      record.Lists name definition → definition.making? = some making → draft.Makes name making) ∧
    ((∀ name definition, record.Lists name definition → (record.relist "").Needs name →
        definition.making? = (record.relist "").making? name) →
      (Region.ofRecord (record.relist "")).map Region.outcome =
        (Region.ofRecord record).map Region.outcome) := by
  constructor
  · intro draft name definition making drafted lists makes
    exact Region.Draft.makes_of_making? drafted (lists.making?_eq.trans makes)
  · intro agree
    have blank : Instruction.readListing (record.relist "").instructions = .ok [] := rfl
    refine Region.map_outcome_eq own blank listed fun name needed => ?_
    change (record.relist "").making? name = record.making? name
    by_cases lists : ∃ definition, record.Lists name definition
    · obtain ⟨definition, lists⟩ := lists
      rw [lists.making?_eq, agree name definition lists needed]
    · exact (making?_eq_of_not_lists own fun definition found => lists ⟨definition, found⟩).symm

/-- A region with a listing and one statement, which has its own listing and stores a name. -/
def storingListed (region own : String) : Record where
  name := "own"
  context := ""
  schedule := ""
  parameters := []
  arrays := [⟨"A", .array, ["*"], "double", ""⟩]
  dependences := ⟨"", "", "", "", ""⟩
  instructions := region
  statements := [{ storing "S" "%x" with instructions := some own }]
  aliasGroups := []

/-- Both listings have the sum that is stored. A merge without a form in the listing of the region
    is a product in that of the statement. -/
def restating : Record :=
  storingListed "%m = phi double [ undef, %a ]\n%x = fadd double 1.0, 2.0"
    "%x = fadd double 1.0, 2.0\n%m = fmul double 3.0, 4.0"

/-- What both listings make of the name that is stored. -/
def restatedSum : Making :=
  .made (.float 64) (.computation (.arith .fadd) "")
    [(.literal "1.0", .float 64), (.literal "2.0", .float 64)]

/-- The merge is not needed, so that the record has the same outcome without the listing of the region. -/
theorem restating_map_outcome :
    restating.making? "%m" = some .formless ∧ (restating.relist "").making? "%m" ≠ some .formless ∧
    (Region.ofRecord (restating.relist "")).map Region.outcome =
      (Region.ofRecord restating).map Region.outcome := by
  have sum : restating.making? "%x" = some restatedSum ∧
      (restating.relist "").making? "%x" = some restatedSum := by
    decide +kernel
  have stored : ∀ access ∈ (storing "S" "%x").accesses,
      Region.Draft.storedOperand? (Region.Draft.storedText access) = some (.ref "%x") := by
    decide +kernel
  have needed : ∀ name, (restating.relist "").Needs name → name = "%x" := by
    rintro name ⟨root, ⟨statement, member, access, inside, _, stores⟩, leads⟩
    obtain rfl := List.mem_singleton.1 member
    rw [stored access inside] at stores
    cases stores
    induction leads with
    | refl => rfl
    | tail _ uses ih =>
      subst ih
      obtain ⟨_, _, _, makes, operand, inside, refers⟩ := uses
      rw [sum.2] at makes
      cases makes
      simp only [List.mem_cons, List.not_mem_nil, or_false] at inside
      rcases inside with rfl | rfl <;> cases refers
  have read : (Instruction.readListing restating.instructions).toOption.isSome = true := by
    decide +kernel
  refine ⟨by decide +kernel, by decide +kernel, ?_⟩
  cases listed : Instruction.readListing restating.instructions with
  | error fault =>
    rw [listed] at read
    cases read
  | ok lines =>
    refine (map_outcome_relist (by simp [restating, storingListed]) listed).2 ?_
    intro name definition lists needs
    rw [← lists.making?_eq, needed name needs, sum.1, sum.2]

/-- The listing of the region has a sum under the name of the product in the listing of the statement. -/
def shadowing : Record :=
  storingListed "%x = fadd double 1.0, 2.0" "%x = fmul double 3.0, 4.0"

/-- The sum is stored, and the product without the listing of the region. -/
theorem shadowing_outcome :
    (∀ statement ∈ shadowing.statements, statement.instructions.isSome = true) ∧
    (∃ lines, Instruction.readListing shadowing.instructions = .ok lines) ∧
    (Region.ofRecord (shadowing.relist "")).map Region.outcome ≠
      (Region.ofRecord shadowing).map Region.outcome := by
  have read : (Instruction.readListing shadowing.instructions).toOption.isSome = true := by
    decide +kernel
  have texts : ((Region.ofRecord (shadowing.relist "")).map Region.outcome).toOption.map (fun outcome =>
        outcome.2.map fun statement => statement.2.map fun write => write.2.map Expr.text) ≠
      ((Region.ofRecord shadowing).map Region.outcome).toOption.map (fun outcome =>
        outcome.2.map fun statement => statement.2.map fun write => write.2.map Expr.text) := by
    decide +kernel
  refine ⟨by simp [shadowing, storingListed], ?_, ?_⟩
  · cases listed : Instruction.readListing shadowing.instructions with
    | ok lines => exact ⟨lines, rfl⟩
    | error fault =>
      rw [listed] at read
      cases read
  · intro same
    rw [same] at texts
    exact texts rfl

end Record

end RegionFlow
