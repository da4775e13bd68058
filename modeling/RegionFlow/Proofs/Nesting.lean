/-
Module: RegionFlow.Proofs.Nesting
Purpose: Bracketed groups and properly nested brackets. A group ends at the bracket that balances
  its first one, where only one kind of bracket counts; a text is nested if all three kinds close in
  the order in which they open. In a nested text the groups are those that the nesting makes, so
  what is inside a group is nested, and so is every part between separators outside all brackets.
Main exports: Text.depthAfter?, Text.bracketed_group, Text.exists_of_bracketed, Text.nestAfter?,
  Text.IsNested, Text.IsNested.group, Text.IsNested.parts, Text.IsNested.depthAfter?
-/
import RegionFlow.Proofs.Separation
import RegionFlow.Text.Reader

namespace RegionFlow.Text

/-! ### Groups -/

section

variable (opening closing : Char)

/-- How many brackets of one kind are open after a text, unless the last one is closed on the way. -/
def depthAfter? (depth : Nat) : List Char → Option Nat
  | [] => some depth
  | c :: rest =>
    if c = opening then depthAfter? (depth + 1) rest
    else if c = closing then if depth ≤ 1 then none else depthAfter? (depth - 1) rest
    else depthAfter? depth rest

variable {opening closing} {depth : Nat} {text : List Char}

theorem depthAfter?_append (left right : List Char) :
    depthAfter? opening closing depth (left ++ right) =
      (depthAfter? opening closing depth left).bind fun depth =>
        depthAfter? opening closing depth right := by
  induction left generalizing depth with
  | nil => rfl
  | cons c left ih =>
    rw [List.cons_append, depthAfter?, depthAfter?]
    split
    · exact ih
    · split
      · split
        · rfl
        · exact ih
      · exact ih

/-- Parts that leave the number of open brackets as it is do so together. -/
theorem depthAfter?_join {glue : List Char} {parts : List (List Char)}
    (between : depthAfter? opening closing depth glue = some depth)
    (each : ∀ part ∈ parts, depthAfter? opening closing depth part = some depth) :
    depthAfter? opening closing depth (join glue parts) = some depth := by
  induction parts with
  | nil => rfl
  | cons part parts ih =>
    obtain ⟨here, later⟩ := List.forall_mem_cons.1 each
    cases parts with
    | nil => exact here
    | cons next parts =>
      rw [join_cons _ _ (List.cons_ne_nil _ _), depthAfter?_append, depthAfter?_append, here,
        Option.bind_some, between, Option.bind_some, ih later]

/-- Other characters than the brackets do not count. -/
theorem depthAfter?_filter {keep : Char → Bool} (kept : keep opening = true ∧ keep closing = true)
    (text : List Char) :
    depthAfter? opening closing depth (text.filter keep) =
      depthAfter? opening closing depth text := by
  induction text generalizing depth with
  | nil => rfl
  | cons c text ih =>
    cases held : keep c with
    | true =>
      rw [List.filter_cons_of_pos held, depthAfter?, depthAfter?]
      simp only [ih]
    | false =>
      have other : c ≠ opening ∧ c ≠ closing := by
        constructor
        · rintro rfl
          exact Bool.false_ne_true (held.symm.trans kept.1)
        · rintro rfl
          exact Bool.false_ne_true (held.symm.trans kept.2)
      rw [List.filter_cons_of_neg (by simp [held]), ih]
      conv_rhs => rw [depthAfter?, if_neg other.1, if_neg other.2]

/-- A group is closed where the last bracket of its kind is. -/
theorem close_of_depthAfter? (differ : opening ≠ closing) {body after : List Char} {left : Nat}
    (opened : depthAfter? opening closing depth body = some left) (last : left ≤ 1) :
    Reader.bracketed.close opening closing depth (body ++ closing :: after) =
      some (body ++ [closing], after) := by
  induction body generalizing depth with
  | nil =>
    cases opened
    rw [List.nil_append, Reader.bracketed.close, if_neg (Ne.symm differ), if_pos rfl, if_pos last]
    rfl
  | cons c body ih =>
    rw [depthAfter?] at opened
    rw [List.cons_append, Reader.bracketed.close]
    split
    · rename_i opens
      rw [if_pos opens] at opened
      rw [ih opened]
      rfl
    · rename_i other
      rw [if_neg other] at opened
      split
      · rename_i closes
        rw [if_pos closes] at opened
        split
        · rename_i ends
          rw [if_pos ends] at opened
          cases opened
        · rename_i goesOn
          rw [if_neg goesOn] at opened
          rw [ih opened]
          rfl
      · rename_i plain
        rw [if_neg plain] at opened
        rw [ih opened]
        rfl

theorem depthAfter?_of_close {inside after : List Char}
    (closed : Reader.bracketed.close opening closing depth text = some (inside, after)) :
    ∃ body left, inside = body ++ [closing] ∧ text = body ++ closing :: after ∧
      depthAfter? opening closing depth body = some left ∧ left ≤ 1 := by
  induction text generalizing depth inside with
  | nil => cases closed
  | cons c text ih =>
    -- a character that does not close the group goes in front of what is read behind it
    have step : ∀ {next : Nat}, (Reader.bracketed.close opening closing next text).map
        (fun parts => (c :: parts.1, parts.2)) = some (inside, after) →
        (∀ body, depthAfter? opening closing depth (c :: body) =
          depthAfter? opening closing next body) →
        ∃ body left, inside = body ++ [closing] ∧ c :: text = body ++ closing :: after ∧
          depthAfter? opening closing depth body = some left ∧ left ≤ 1 := by
      intro next mapped goesOn
      obtain ⟨⟨behind, rest⟩, read, same⟩ := Option.map_eq_some_iff.1 mapped
      cases same
      obtain ⟨body, left, rfl, rfl, opened, last⟩ := ih read
      exact ⟨c :: body, left, rfl, rfl, by rw [goesOn, opened], last⟩
    rw [Reader.bracketed.close] at closed
    by_cases opens : c = opening
    · rw [if_pos opens] at closed
      exact step closed fun body => by rw [depthAfter?, if_pos opens]
    by_cases closes : c = closing
    · rw [if_neg opens, if_pos closes] at closed
      by_cases ends : depth ≤ 1
      · rw [if_pos ends] at closed
        cases closed
        exact ⟨[], depth, by rw [closes]; rfl, by rw [closes]; rfl, rfl, ends⟩
      · rw [if_neg ends] at closed
        exact step closed fun body => by rw [depthAfter?, if_neg opens, if_pos closes, if_neg ends]
    · rw [if_neg opens, if_neg closes] at closed
      exact step closed fun body => by rw [depthAfter?, if_neg opens, if_neg closes]

/-- A group is read up to the bracket that closes it. -/
theorem bracketed_group (differ : opening ≠ closing) {body : List Char} {left : Nat}
    (opened : depthAfter? opening closing 1 body = some left) (last : left ≤ 1) (after : List Char) :
    Reader.bracketed opening closing (opening :: (body ++ closing :: after)) =
      .done (opening :: (body ++ [closing])) after := by
  rw [Reader.bracketed, if_pos rfl, close_of_depthAfter? differ opened last]

/-- What is read as a group stands between a bracket and the one that closes it. -/
theorem exists_of_bracketed {group after : List Char}
    (read : Reader.bracketed opening closing text = .done group after) :
    ∃ body left, group = opening :: (body ++ [closing]) ∧
      text = opening :: (body ++ closing :: after) ∧
      depthAfter? opening closing 1 body = some left ∧ left ≤ 1 := by
  cases text with
  | nil => cases read
  | cons c text =>
    rw [Reader.bracketed] at read
    by_cases opens : c = opening
    · rw [if_pos opens] at read
      cases closed : Reader.bracketed.close opening closing 1 text with
      | none =>
        rw [closed] at read
        cases read
      | some found =>
        rw [closed] at read
        cases read
        obtain ⟨body, left, spelled, rfl, opened, last⟩ := depthAfter?_of_close closed
        exact ⟨body, left, by rw [opens, spelled], by rw [opens], opened, last⟩
    · rw [if_neg opens] at read
      cases read

end

/-! ### Nesting -/

/-- The bracket that closes what a bracket opens. -/
def closer? : Char → Option Char
  | '(' => some ')'
  | '[' => some ']'
  | '\x7b' => some '\x7d'
  | _ => none

/-- Whether a character closes a bracket. -/
def isCloser (c : Char) : Bool :=
  c == ')' || c == ']' || c == '\x7d'

/-- The brackets that are still to be closed after a character, innermost first, unless it closes
    another kind than the innermost one. -/
def nestStep? (pending : List Char) (c : Char) : Option (List Char) :=
  match closer? c with
  | some closing => some (closing :: pending)
  | none =>
    if isCloser c then
      match pending with
      | [] => none
      | next :: others => if next = c then some others else none
    else some pending

/-- The brackets that are still to be closed after a text. -/
def nestAfter? (pending text : List Char) : Option (List Char) :=
  text.foldlM nestStep? pending

/-- The brackets of a text close in the order in which they open, and all of them do. -/
def IsNested (text : List Char) : Prop :=
  nestAfter? [] text = some []

instance (text : List Char) : Decidable (IsNested text) :=
  inferInstanceAs (Decidable (nestAfter? [] text = some []))

section

variable {pending left : List Char} {c : Char} {text : List Char}

/-- A character opens a bracket, closes the innermost one, or is no bracket. -/
theorem nestStep?_eq_some (step : nestStep? pending c = some left) :
    (∃ closing, closer? c = some closing ∧ left = closing :: pending) ∨
      (closer? c = none ∧ isCloser c = true ∧ pending = c :: left) ∨
      (closer? c = none ∧ isCloser c = false ∧ left = pending) := by
  unfold nestStep? at step
  cases opens : closer? c with
  | some closing =>
    rw [opens] at step
    exact .inl ⟨closing, rfl, (Option.some.inj step).symm⟩
  | none =>
    rw [opens] at step
    cases closes : isCloser c with
    | false =>
      rw [closes] at step
      exact .inr (.inr ⟨rfl, rfl, (Option.some.inj step).symm⟩)
    | true =>
      rw [closes] at step
      cases pending with
      | nil => cases step
      | cons next others =>
        by_cases same : next = c
        · simp only [same, if_true, Option.some.injEq] at step
          exact .inr (.inl ⟨rfl, rfl, by rw [same, step]⟩)
        · simp [same] at step

theorem nestAfter?_append {front back : List Char} :
    nestAfter? pending (front ++ back) = some left ↔
      ∃ middle, nestAfter? pending front = some middle ∧ nestAfter? middle back = some left := by
  rw [nestAfter?, List.foldlM_append]
  exact Option.bind_eq_some_iff

theorem nestAfter?_cons :
    nestAfter? pending (c :: text) = some left ↔
      ∃ middle, nestStep? pending c = some middle ∧ nestAfter? middle text = some left := by
  rw [nestAfter?, List.foldlM_cons]
  exact Option.bind_eq_some_iff

theorem closer?_cases {closing : Char} (opens : closer? c = some closing) :
    (c = '(' ∧ closing = ')') ∨ (c = '[' ∧ closing = ']') ∨ (c = '\x7b' ∧ closing = '\x7d') := by
  unfold closer? at opens
  split at opens <;> simp_all [eq_comm]

theorem bracketWeight_of_closer? {closing : Char} (opens : closer? c = some closing) :
    bracketWeight c = 1 := by
  rcases closer?_cases opens with ⟨rfl, -⟩ | ⟨rfl, -⟩ | ⟨rfl, -⟩ <;> rfl

/-- Each bracket that closes is the partner of one that opens. -/
theorem closer?_inj {d closing : Char} (first : closer? c = some closing)
    (second : closer? d = some closing) : c = d := by
  rcases closer?_cases first with ⟨rfl, rfl⟩ | ⟨rfl, rfl⟩ | ⟨rfl, rfl⟩ <;>
    rcases closer?_cases second with ⟨rfl, same⟩ | ⟨rfl, same⟩ | ⟨rfl, same⟩ <;>
    first | rfl | exact absurd same (by decide)

theorem isCloser_of_closer? {closing : Char} (opens : closer? c = some closing) :
    isCloser closing = true ∧ closer? closing = none := by
  rcases closer?_cases opens with ⟨-, rfl⟩ | ⟨-, rfl⟩ | ⟨-, rfl⟩ <;> exact ⟨rfl, rfl⟩

theorem eq_of_isCloser (closes : isCloser c = true) : c = ')' ∨ c = ']' ∨ c = '\x7d' := by
  simpa [isCloser, or_assoc] using closes

theorem bracketWeight_of_isCloser (closes : isCloser c = true) : bracketWeight c = -1 := by
  rcases eq_of_isCloser closes with rfl | rfl | rfl <;> rfl

theorem bracketWeight_of_plain (opens : closer? c = none) (closes : isCloser c = false) :
    bracketWeight c = 0 := by
  unfold bracketWeight
  split <;> first | rfl | exact absurd opens (by decide) | exact absurd closes (by decide)

/-- As many brackets are pending as the level says. -/
theorem length_of_nestAfter? (nested : nestAfter? pending text = some left) :
    (left.length : Int) = pending.length + weigh bracketWeight text := by
  induction text generalizing pending with
  | nil =>
    cases nested
    simp
  | cons c text ih =>
    obtain ⟨middle, step, later⟩ := nestAfter?_cons.1 nested
    rw [ih later, weigh_cons]
    rcases nestStep?_eq_some step with
      ⟨closing, opens, rfl⟩ | ⟨-, closes, rfl⟩ | ⟨opens, closes, rfl⟩
    · rw [bracketWeight_of_closer? opens, List.length_cons]
      omega
    · rw [bracketWeight_of_isCloser closes, List.length_cons]
      omega
    · rw [bracketWeight_of_plain opens closes]
      omega

/-- Other characters do not take part in nesting. -/
theorem nestAfter?_of_weightless (weightless : ∀ c ∈ text, bracketWeight c = 0) :
    nestAfter? pending text = some pending := by
  induction text with
  | nil => rfl
  | cons c text ih =>
    obtain ⟨here, later⟩ := List.forall_mem_cons.1 weightless
    have plain : nestStep? pending c = some pending := by
      unfold nestStep?
      cases opens : closer? c with
      | some closing => simp [bracketWeight_of_closer? opens] at here
      | none =>
        cases closes : isCloser c with
        | true => simp [bracketWeight_of_isCloser closes] at here
        | false => rfl
    exact nestAfter?_cons.2 ⟨pending, plain, ih later⟩

theorem nestAfter?_blank (blank : ∀ c ∈ text, isBlank c = true) :
    nestAfter? pending text = some pending :=
  nestAfter?_of_weightless fun c member => bracketWeight_of_isBlank (blank c member)

theorem IsNested.trim (nested : IsNested text) : IsNested (Text.trim text) := by
  obtain ⟨front, back, spelled, before, after⟩ := exists_trim text
  rw [IsNested, spelled, List.append_assoc] at nested
  obtain ⟨first, start, rest⟩ := nestAfter?_append.1 nested
  rw [nestAfter?_blank before] at start
  cases start
  obtain ⟨last, inside, ending⟩ := nestAfter?_append.1 rest
  rw [nestAfter?_blank after] at ending
  cases ending
  exact inside

variable {opening closing : Char}

/-- Of the pending brackets, those of one kind are the open ones of that kind. -/
theorem depthAfter?_nestStep? (kind : closer? opening = some closing)
    (step : nestStep? pending c = some left) {base : Nat} (some : 1 ≤ base) :
    depthAfter? opening closing (pending.count closing + base) (c :: text) =
      depthAfter? opening closing (left.count closing + base) text := by
  obtain ⟨closes, notOpening⟩ := isCloser_of_closer? kind
  rw [depthAfter?]
  rcases nestStep?_eq_some step with
    ⟨other, opens, rfl⟩ | ⟨plain, -, rfl⟩ | ⟨plain, closesNot, rfl⟩
  · by_cases same : c = opening
    · subst same
      cases opens.symm.trans kind
      rw [if_pos rfl, List.count_cons_self, Nat.add_right_comm]
    · have differs : other ≠ closing := by
        rintro rfl
        exact same (closer?_inj opens kind)
      have notClosing : c ≠ closing := by
        rintro rfl
        cases opens.symm.trans notOpening
      rw [if_neg same, if_neg notClosing, List.count_cons_of_ne differs]
  · have notOpening : c ≠ opening := by
      rintro rfl
      cases plain.symm.trans kind
    rw [if_neg notOpening]
    by_cases same : c = closing
    · have more : ¬left.count closing + 1 + base ≤ 1 := by omega
      rw [same, if_pos rfl, List.count_cons_self, if_neg more, Nat.add_right_comm, Nat.add_sub_cancel]
    · rw [if_neg same, List.count_cons_of_ne same]
  · have notOpening : c ≠ opening := by
      rintro rfl
      cases plain.symm.trans kind
    have notClosing : c ≠ closing := by
      rintro rfl
      exact Bool.false_ne_true (closesNot.symm.trans closes)
    rw [if_neg notOpening, if_neg notClosing]

/-- A nested text leaves the number of open brackets as it is. -/
theorem depthAfter?_of_nestAfter? (kind : closer? opening = some closing)
    (nested : nestAfter? pending text = some left) {base : Nat} (some : 1 ≤ base) :
    depthAfter? opening closing (pending.count closing + base) text =
      .some (left.count closing + base) := by
  induction text generalizing pending with
  | nil =>
    cases nested
    rfl
  | cons c text ih =>
    obtain ⟨middle, step, later⟩ := nestAfter?_cons.1 nested
    rw [depthAfter?_nestStep? kind step some]
    exact ih later

theorem IsNested.depthAfter?_eq (nested : IsNested text) (kind : closer? opening = some closing)
    {base : Nat} (some : 1 ≤ base) : depthAfter? opening closing base text = .some base := by
  simpa using depthAfter?_of_nestAfter? kind nested some

/-- A character acts on the inner brackets, or closes the outer one. -/
theorem nestStep?_append {inner outer : List Char}
    (step : nestStep? (inner ++ closing :: outer) c = some left) :
    (∃ rest, nestStep? inner c = some rest ∧ left = rest ++ closing :: outer) ∨
      (inner = [] ∧ c = closing ∧ closer? c = none) := by
  rcases nestStep?_eq_some step with
    ⟨other, opens, rfl⟩ | ⟨plain, closes, spelled⟩ | ⟨plain, closesNot, rfl⟩
  · exact .inl ⟨other :: inner, by simp [nestStep?, opens], rfl⟩
  · cases inner with
    | nil =>
      cases spelled
      exact .inr ⟨rfl, rfl, plain⟩
    | cons next inner =>
      obtain ⟨rfl, rfl⟩ := List.cons.inj spelled
      exact .inl ⟨inner, by simp [nestStep?, plain, closes], rfl⟩
  · exact .inl ⟨inner, by simp [nestStep?, plain, closesNot], rfl⟩

/-- What stands inside a group does not touch the brackets around it. -/
theorem nestAfter?_group (kind : closer? opening = some closing) {inner outer : List Char}
    {depth : Nat} (nested : nestAfter? (inner ++ closing :: outer) text = some left)
    (opened : depthAfter? opening closing (inner.count closing + 1) text = some depth) :
    ∃ rest, nestAfter? inner text = some rest ∧ left = rest ++ closing :: outer ∧
      depth = rest.count closing + 1 := by
  induction text generalizing inner with
  | nil =>
    cases nested
    cases opened
    exact ⟨inner, rfl, rfl, rfl⟩
  | cons c text ih =>
    obtain ⟨middle, step, later⟩ := nestAfter?_cons.1 nested
    rcases nestStep?_append step with ⟨rest, within, rfl⟩ | ⟨rfl, rfl, plain⟩
    · rw [depthAfter?_nestStep? kind within (Nat.le_refl 1)] at opened
      obtain ⟨last, inside, spelled, counted⟩ := ih later opened
      exact ⟨last, nestAfter?_cons.2 ⟨rest, within, inside⟩, spelled, counted⟩
    · have notOpening : c ≠ opening := by
        rintro rfl
        cases plain.symm.trans kind
      rw [depthAfter?, if_neg notOpening, if_pos rfl, List.count_nil, if_pos (Nat.le_refl 1)] at opened
      cases opened

/-- In a nested text, a group is nested inside, and so is what follows it. -/
theorem IsNested.group (kind : closer? opening = some closing) {body after : List Char} {depth : Nat}
    (nested : IsNested (opening :: (body ++ closing :: after)))
    (opened : depthAfter? opening closing 1 body = some depth) (last : depth ≤ 1) :
    IsNested body ∧ IsNested after := by
  obtain ⟨first, start, rest⟩ := nestAfter?_cons.1 nested
  have pushed : first = [] ++ [closing] := by simpa [nestStep?, kind, eq_comm] using start
  subst pushed
  obtain ⟨second, within, rest⟩ := nestAfter?_append.1 rest
  obtain ⟨inner, inside, rfl, counted⟩ := nestAfter?_group kind within opened
  obtain ⟨third, closed, behind⟩ := nestAfter?_cons.1 rest
  -- no bracket of the kind of the group is pending inside it, so its closing bracket finds none
  rcases nestStep?_eq_some closed with ⟨other, opens, -⟩ | ⟨-, -, popped⟩ | ⟨-, closesNot, -⟩
  · cases opens.symm.trans (isCloser_of_closer? kind).2
  · cases inner with
    | nil =>
      cases popped
      exact ⟨inside, behind⟩
    | cons next inner =>
      obtain ⟨rfl, -⟩ := List.cons.inj popped
      rw [List.count_cons_self] at counted
      omega
  · exact absurd (isCloser_of_closer? kind).1 (by simp [closesNot])

/-- Between separators outside all brackets, a nested text is nested. -/
theorem IsNested.parts {glue : List Char} {parts : List (List Char)}
    (plain : ∀ c ∈ glue, bracketWeight c = 0)
    (flat : parts.Pairwise fun part _ => weigh bracketWeight part = 0)
    (nested : IsNested (join glue parts)) : ∀ part ∈ parts, IsNested part := by
  induction parts with
  | nil => simp
  | cons part parts ih =>
    cases parts with
    | nil => simpa [join] using nested
    | cons next parts =>
      obtain ⟨flatHere, flatLater⟩ := List.pairwise_cons.1 flat
      rw [IsNested, join_cons _ _ (List.cons_ne_nil _ _), List.append_assoc] at nested
      obtain ⟨first, here, rest⟩ := nestAfter?_append.1 nested
      have counted := length_of_nestAfter? here
      rw [flatHere next List.mem_cons_self] at counted
      have closed : first = [] := List.eq_nil_of_length_eq_zero (by simpa using counted)
      subst closed
      obtain ⟨second, glued, later⟩ := nestAfter?_append.1 rest
      rw [nestAfter?_of_weightless plain] at glued
      cases glued
      exact List.forall_mem_cons.2 ⟨here, ih flatLater later⟩

end

end RegionFlow.Text
