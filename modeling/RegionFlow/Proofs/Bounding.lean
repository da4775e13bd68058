/-
Module: RegionFlow.Proofs.Bounding
Purpose: Where the bounds of a piece come from. Every bound of a dimension is given by a link of the
  constraints that compares the dimension with a term, so it mentions only what that term mentions.
  Of two dimensions that are compared the later one is bounded; a dimension inside an expression is
  not recognised.
Main exports: Polyhedral.Bounds.addLink_cases, Polyhedral.Piece.names_bounds,
  Polyhedral.Piece.from_bounds, Polyhedral.Piece.mentions_of_target?, Polyhedral.Link.Outward,
  Polyhedral.mem_take_of_target?
-/
import RegionFlow.Proofs.Mentions

namespace RegionFlow.Polyhedral

open Text

/-- The links of the constraints of a piece. -/
def Piece.links (piece : Piece) : List Link :=
  piece.constraints.toList.flatMap fun constraints => linksOf constraints.toList

/-- A text is the lower or the upper bound that some link gives the dimension at a place. -/
def GivenBy (dims : List String) (links : List Link) (place : Nat) (text : String) : Prop :=
  ∃ link ∈ links, ∃ comparison term, Bounds.target? dims link = some (place, comparison, term) ∧
    ((Bounds.limits comparison term).1 = some text ∨ (Bounds.limits comparison term).2 = some text)

/-- The bounds that dimensions have are given by links. -/
def Bounds.From (dims : List String) (links : List Link) (bounds : Bounds) : Prop :=
  ∀ place entry, bounds.dims[place]? = some entry → ∀ text,
    entry.lower = some text ∨ entry.upper = some text → GivenBy dims links place text

variable {dims : List String} {links : List Link} {bounds : Bounds}

theorem Bounds.from_unbounded : Bounds.From dims links (Bounds.unbounded dims) := by
  intro place entry found text bound
  rw [unbounded, List.getElem?_map] at found
  obtain ⟨name, _, rfl⟩ := Option.map_eq_some_iff.1 found
  rcases bound with lower | upper
  · cases lower
  · cases upper

/-- A link is taken up as a condition, or it gives bounds that are free to the dimension that it bounds. -/
theorem Bounds.addLink_cases (dims : List String) (bounds : Bounds) (link : Link) :
    Bounds.addLink dims bounds link = bounds.addCondition (.link link) ∨
    ∃ place comparison term entry, Bounds.target? dims link = some (place, comparison, term) ∧
      bounds.dims[place]? = some entry ∧
      Bounds.clashes entry (Bounds.limits comparison term).1 (Bounds.limits comparison term).2 = false ∧
      Bounds.addLink dims bounds link =
        { bounds with
          dims := bounds.dims.set place ⟨entry.name, (Bounds.limits comparison term).1.or entry.lower,
            (Bounds.limits comparison term).2.or entry.upper⟩ } := by
  unfold Bounds.addLink
  cases target : Bounds.target? dims link with
  | none => exact .inl rfl
  | some bound =>
    obtain ⟨place, comparison, term⟩ := bound
    cases held : bounds.dims[place]? with
    | none => exact .inl (by simp only [held])
    | some entry =>
      cases free : Bounds.clashes entry (Bounds.limits comparison term).1
          (Bounds.limits comparison term).2 with
      | true => exact .inl (by simp only [held, free, if_true])
      | false =>
        refine .inr ⟨place, comparison, term, entry, rfl, held, free, ?_⟩
        simp only [held, free, Bool.false_eq_true, if_false]

/-- A fold each step of which keeps the names of the dimensions keeps them. -/
theorem names_foldl {α : Type} {step : Bounds → α → Bounds}
    (each : ∀ bounds item, (step bounds item).dims.map DimBounds.name =
      bounds.dims.map DimBounds.name) (items : List α) (bounds : Bounds) :
    (items.foldl step bounds).dims.map DimBounds.name = bounds.dims.map DimBounds.name := by
  induction items generalizing bounds with
  | nil => rfl
  | cons item items ih => exact (ih (step bounds item)).trans (each bounds item)

theorem names_addLink (dims : List String) (bounds : Bounds) (link : Link) :
    (Bounds.addLink dims bounds link).dims.map DimBounds.name =
      bounds.dims.map DimBounds.name := by
  unfold Bounds.addLink
  split
  · rfl
  · split
    · rfl
    · rename_i entry found
      dsimp only
      split
      · rfl
      · apply List.ext_getElem?
        intro place
        rw [List.getElem?_map, List.getElem?_map, List.getElem?_set]
        split
        · rename_i same
          subst same
          rw [if_pos (List.getElem?_eq_some_iff.1 found).1, found]
          rfl
        · rfl

theorem names_addConjunct (dims : List String) (bounds : Bounds) (conjunct : List Char) :
    (Bounds.addConjunct dims bounds conjunct).dims.map DimBounds.name =
      bounds.dims.map DimBounds.name := by
  unfold Bounds.addConjunct
  dsimp only
  split
  · rfl
  · exact names_foldl (names_addLink dims) _ bounds

/-- The bounds of a piece are those of its dimensions, in order. -/
theorem Piece.names_bounds (piece : Piece) :
    piece.bounds.dims.map DimBounds.name = piece.input.dims := by
  have start : (Bounds.unbounded piece.input.dims).dims.map DimBounds.name = piece.input.dims := by
    simp [Bounds.unbounded, Function.comp_def]
  unfold Piece.bounds
  dsimp only
  split
  · exact start
  · split
    · exact start
    · exact (names_foldl (names_addConjunct piece.input.dims) _ _).trans start

/-- Taking a link up brings in bounds that the link gives. -/
theorem Bounds.From.addLink (before : Bounds.From dims links bounds) {link : Link}
    (member : link ∈ links) : Bounds.From dims links (Bounds.addLink dims bounds link) := by
  rcases Bounds.addLink_cases dims bounds link with
    condition | ⟨dim, comparison, term, entry, target, held, _, bounded⟩
  · rw [condition]
    exact before
  rw [bounded]
  intro place other found text bound
  rw [List.getElem?_set] at found
  split at found
  · rename_i same
    subst same
    rw [if_pos (List.getElem?_eq_some_iff.1 held).1] at found
    cases found
    -- a bound is new, or it is one that the dimension had
    have fresh : ∀ {new old : Option String}, new.or old = some text →
        new = some text ∨ old = some text := by
      intro new old either
      cases new with
      | none => exact .inr either
      | some _ => exact .inl either
    rcases bound with lower | upper
    · rcases fresh lower with new | old
      · exact ⟨link, member, comparison, term, target, .inl new⟩
      · exact before dim entry held text (.inl old)
    · rcases fresh upper with new | old
      · exact ⟨link, member, comparison, term, target, .inr new⟩
      · exact before dim entry held text (.inr old)
  · exact before place other found text bound

/-- The bounds of a piece are given by the links of its constraints. -/
theorem Piece.from_bounds (piece : Piece) :
    Bounds.From piece.input.dims piece.links piece.bounds := by
  unfold Piece.bounds
  dsimp only
  split
  · exact Bounds.from_unbounded
  · rename_i constraints given
    split
    · exact Bounds.from_unbounded
    · refine List.foldlRecOn _ _ Bounds.from_unbounded fun bounds before conjunct part => ?_
      unfold Bounds.addConjunct
      dsimp only
      split
      · exact before
      · rename_i links chain
        refine List.foldlRecOn _ _ before fun bounds before link listed => before.addLink ?_
        have inside : link ∈ linksOf constraints.toList := by
          apply List.mem_flatMap.2
          exact ⟨conjunct, part, by rw [chain]; exact listed⟩
        simpa [Piece.links, given] using inside

/-- A bound mentions names of the term that it is made from. -/
theorem mentions_of_limits {comparison : Comparison} {term text : String}
    (limit : (Bounds.limits comparison term).1 = some text ∨
      (Bounds.limits comparison term).2 = some text)
    {name : String} (mentioned : name ∈ mentions text.toList) : name ∈ mentions term.toList := by
  cases comparison with
  | lt | gt =>
    simp only [Bounds.limits, Option.some.injEq, reduceCtorEq, or_false, false_or] at limit
    exact mentions_shift (limit ▸ mentioned)
  | le | ge | eq =>
    simp only [Bounds.limits, Option.some.injEq, reduceCtorEq, or_false, false_or, or_self] at limit
    exact limit ▸ mentioned

/-- The term that a link compares a dimension with is one of its two terms. -/
theorem term_of_target? {link : Link} {place : Nat} {comparison : Comparison} {term : String}
    (target : Bounds.target? dims link = some (place, comparison, term)) :
    term = link.left ∨ term = link.right := by
  unfold Bounds.target? at target
  split at target
  · split at target <;> cases target
    · exact .inl rfl
    · exact .inr rfl
  · cases target
    exact .inr rfl
  · cases target
    exact .inl rfl
  · cases target

/-- The term that a link of a piece compares a dimension with mentions names of the constraints only. -/
theorem Piece.mentions_of_target? {piece : Piece} {link : Link} (member : link ∈ piece.links)
    {place : Nat} {comparison : Comparison} {term : String}
    (target : Bounds.target? dims link = some (place, comparison, term)) {name : String}
    (mentioned : name ∈ mentions term.toList) :
    ∃ constraints ∈ piece.constraints, name ∈ mentions constraints.toList := by
  obtain ⟨constraints, held, listed⟩ := List.mem_flatMap.1 member
  refine ⟨constraints, Option.mem_toList.1 held, mentions_of_linksOf listed ?_⟩
  rw [Link.mentions, List.mem_append]
  rcases term_of_target? target with rfl | rfl
  · exact .inl mentioned
  · exact .inr mentioned

/-- The term that a link compares a dimension with mentions only parameters and dimensions before it. -/
def Link.Outward (dims params : List String) (link : Link) : Prop :=
  ∀ bound ∈ Bounds.target? dims link, MentionsOnly (dims.take bound.1 ++ params) bound.2.2

instance (dims params : List String) (link : Link) : Decidable (link.Outward dims params) :=
  inferInstanceAs (Decidable (∀ bound ∈ Bounds.target? dims link, _))

/-- A term is a name, or has none in it. -/
def IsBare (term : String) : Prop :=
  MentionsOnly [term] term

theorem getElem?_of_dimIndex? {term : String} {place : Nat}
    (found : Bounds.dimIndex? dims term = some place) : dims[place]? = some term := by
  obtain ⟨inside, hit, _⟩ := List.findIdx?_eq_some_iff_getElem.1 found
  rw [List.getElem?_eq_getElem inside, eq_of_beq hit]

theorem not_mem_of_dimIndex? {term : String} (absent : Bounds.dimIndex? dims term = none) :
    term ∉ dims := by
  intro member
  have differs := List.findIdx?_eq_none_iff.1 absent term member
  simp at differs

/-- Of two different terms, the one that a link compares a dimension with stands before it, if it is
    a dimension. -/
theorem mem_take_of_target? {link : Link} (differ : link.left ≠ link.right) {place : Nat}
    {comparison : Comparison} {term : String}
    (target : Bounds.target? dims link = some (place, comparison, term)) (member : term ∈ dims) :
    term ∈ dims.take place := by
  have before : ∀ {place : Nat} {dim : String}, Bounds.dimIndex? dims dim = some place →
      ∀ {limit : Nat}, place < limit → dim ∈ dims.take limit := by
    intro place dim found limit less
    apply List.mem_of_getElem? (i := place)
    rw [List.getElem?_take_of_lt less]
    exact getElem?_of_dimIndex? found
  unfold Bounds.target? at target
  split at target
  · rename_i left right foundLeft foundRight
    have apart : right ≠ left := by
      rintro rfl
      have same := (getElem?_of_dimIndex? foundLeft).symm.trans (getElem?_of_dimIndex? foundRight)
      exact differ (Option.some.inj same)
    split at target
    · rename_i later
      cases target
      exact before foundLeft later
    · rename_i notLater
      have earlier : right < left := by omega
      cases target
      exact before foundRight earlier
  · rename_i absent
    cases target
    exact absurd member (not_mem_of_dimIndex? absent)
  · rename_i absent _
    cases target
    exact absurd member (not_mem_of_dimIndex? absent)
  · cases target

end RegionFlow.Polyhedral
