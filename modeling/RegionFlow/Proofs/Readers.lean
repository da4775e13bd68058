/-
Module: RegionFlow.Proofs.Readers
Purpose: What readers take from the front of a text. A reader is described from both sides: whatever
  it takes has a form, and it takes every text of the form, provided that what comes after cannot
  extend it. Readers of single characters and of longest runs are described exactly. A repetition
  takes items as long as they can be read, so it ends where the next one misses.
Main exports: Text.Clear, Reader.bind_eq_done_iff, Reader.Misses, Reader.Sticks, Reader.ReadsOnly,
  Reader.ReadsAll, Reader.Series, Reader.ReadsOnly.many, Reader.ReadsAll.many,
  Reader.misses_of_many, Reader.comma_eq_done_iff
-/
import Mathlib.Data.List.TakeWhile
import RegionFlow.Text.Reader

namespace RegionFlow.Text

variable {accept : Char → Bool} {c : Char} {text taken rest : List Char}

/-! ### Runs of characters -/

/-- A text does not start with a character of a class. -/
def Clear (accept : Char → Bool) (text : List Char) : Prop :=
  ∀ c ∈ text.head?, accept c = false

@[simp] theorem clear_nil : Clear accept [] := by
  simp [Clear]

@[simp] theorem clear_cons : Clear accept (c :: text) ↔ accept c = false := by
  simp [Clear]

theorem Clear.mono {wide : Char → Bool} (sub : ∀ c, accept c = true → wide c = true)
    (clear : Clear wide text) : Clear accept text := by
  intro c first
  rw [Bool.eq_false_iff]
  exact fun accepted => Bool.eq_false_iff.1 (clear c first) (sub c accepted)

theorem clear_dropWhile (accept : Char → Bool) (text : List Char) :
    Clear accept (text.dropWhile accept) := by
  intro c first
  have stops := List.head?_dropWhile_not accept text
  rw [Option.mem_def.1 first] at stops
  simpa using stops

theorem takeWhile_append_clear (run : ∀ c ∈ taken, accept c = true) (clear : Clear accept rest) :
    (taken ++ rest).takeWhile accept = taken := by
  rw [List.takeWhile_append_of_pos run]
  cases rest with
  | nil => simp
  | cons c rest => simp [clear_cons.1 clear]

theorem dropWhile_append_clear (run : ∀ c ∈ taken, accept c = true) (clear : Clear accept rest) :
    (taken ++ rest).dropWhile accept = rest := by
  rw [List.dropWhile_append_of_pos run]
  cases rest with
  | nil => rfl
  | cons c rest => simp [clear_cons.1 clear]

namespace Reader

variable {α β : Type} {value : α}

/-! ### Outcomes -/

/-- A reader misses on a text. -/
def Misses (reader : Reader α) (text : List Char) : Prop :=
  ∃ left, reader text = .miss left

/-- A reader is stuck on a text. -/
def Sticks (reader : Reader α) (text : List Char) : Prop :=
  ∃ left, reader text = .stuck left

theorem not_sticks_pure : ¬ (pure value : Reader α).Sticks text := by
  rintro ⟨left, stuck⟩
  cases stuck

theorem cases_outcome (reader : Reader α) (text : List Char) :
    (∃ value rest, reader text = .done value rest) ∨ reader.Misses text ∨ reader.Sticks text := by
  cases read : reader text with
  | done value rest => exact .inl ⟨value, rest, rfl⟩
  | miss left => exact .inr (.inl ⟨left, read⟩)
  | stuck left => exact .inr (.inr ⟨left, read⟩)

section Sequence

variable {first : Reader α} {next : α → Reader β} {result : β}

theorem bind_eq_done_iff :
    (first >>= next) text = .done result rest ↔
      ∃ value left, first text = .done value left ∧ next value left = .done result rest := by
  change Reader.bind first next text = .done result rest ↔ _
  unfold Reader.bind
  cases first text <;> simp [and_assoc]

/-- A step of a reader that goes on with another. -/
theorem bind_done {left : List Char} (one : first text = .done value left)
    (two : next value left = .done result rest) : (first >>= next) text = .done result rest :=
  bind_eq_done_iff.2 ⟨value, left, one, two⟩

theorem bind_of_done (read : first text = .done value rest) : (first >>= next) text = next value rest := by
  change Reader.bind first next text = next value rest
  rw [Reader.bind, read]

theorem Misses.bind (misses : first.Misses text) : (first >>= next).Misses text := by
  obtain ⟨left, missed⟩ := misses
  refine ⟨left, ?_⟩
  change Reader.bind first next text = .miss left
  rw [Reader.bind, missed]

theorem misses_bind_of_done (read : first text = .done value rest) (misses : (next value).Misses rest) :
    (first >>= next).Misses text := by
  obtain ⟨left, missed⟩ := misses
  exact ⟨left, by rw [bind_of_done read, missed]⟩

theorem sticks_bind_iff :
    (first >>= next).Sticks text ↔
      first.Sticks text ∨ ∃ value left, first text = .done value left ∧ (next value).Sticks left := by
  change (∃ left, Reader.bind first next text = .stuck left) ↔ _
  unfold Sticks Reader.bind
  cases first text <;> simp [and_assoc]

theorem misses_bind_iff :
    (first >>= next).Misses text ↔
      first.Misses text ∨ ∃ value left, first text = .done value left ∧ (next value).Misses left := by
  change (∃ left, Reader.bind first next text = .miss left) ↔ _
  unfold Misses Reader.bind
  cases first text <;> simp [and_assoc]

end Sequence

section Choice

variable {first second : Reader α}

theorem orElse_of_done (read : first text = .done value rest) :
    (first <|> second) text = .done value rest := by
  change Reader.orElse first (fun _ => second) text = .done value rest
  rw [Reader.orElse, read]

theorem orElse_of_misses (misses : first.Misses text) : (first <|> second) text = second text := by
  obtain ⟨left, missed⟩ := misses
  change Reader.orElse first (fun _ => second) text = second text
  rw [Reader.orElse, missed]

theorem misses_orElse (one : first.Misses text) (two : second.Misses text) :
    (first <|> second).Misses text := by
  obtain ⟨left, missed⟩ := two
  exact ⟨left, by rw [orElse_of_misses one, missed]⟩

theorem orElse_eq_done (read : (first <|> second) text = .done value rest) :
    first text = .done value rest ∨ first.Misses text ∧ second text = .done value rest := by
  change Reader.orElse first (fun _ => second) text = .done value rest at read
  unfold Reader.orElse at read
  cases tried : first text with
  | miss left => exact .inr ⟨⟨left, tried⟩, by rwa [tried] at read⟩
  | done other left => exact .inl (by rwa [tried] at read)
  | stuck left => simp [tried] at read

theorem sticks_orElse_iff :
    (first <|> second).Sticks text ↔ first.Sticks text ∨ first.Misses text ∧ second.Sticks text := by
  change (∃ left, Reader.orElse first (fun _ => second) text = .stuck left) ↔ _
  unfold Sticks Misses Reader.orElse
  cases first text <;> simp

end Choice

section Modified

variable {item : Reader α}

theorem optional_of_done (read : item text = .done value rest) :
    item.optional text = .done (some value) rest := by
  rw [optional, read]

theorem optional_of_misses (misses : item.Misses text) : item.optional text = .done none text := by
  obtain ⟨left, missed⟩ := misses
  rw [optional, missed]

theorem optional_eq_done {found : Option α} (read : item.optional text = .done found rest) :
    (∃ value, found = some value ∧ item text = .done value rest) ∨
      found = none ∧ rest = text ∧ item.Misses text := by
  unfold optional at read
  cases tried : item text with
  | done value left =>
    rw [tried] at read
    cases read
    exact .inl ⟨value, rfl, rfl⟩
  | miss left =>
    rw [tried] at read
    cases read
    exact .inr ⟨rfl, rfl, left, tried⟩
  | stuck left => simp [tried] at read

theorem sticks_optional_iff : item.optional.Sticks text ↔ item.Sticks text := by
  unfold Sticks optional
  cases item text <;> simp

theorem committed_eq_done_iff : item.committed text = .done value rest ↔ item text = .done value rest := by
  unfold committed
  cases item text <;> simp

theorem sticks_committed_iff : item.committed.Sticks text ↔ item.Sticks text ∨ item.Misses text := by
  unfold Sticks Misses committed
  cases item text <;> simp

theorem filterMap_eq_done_iff {accept : α → Option β} {result : β} :
    item.filterMap accept text = .done result rest ↔
      ∃ value, item text = .done value rest ∧ accept value = some result := by
  unfold filterMap
  cases item text with
  | done value left =>
    constructor
    · intro read
      cases judged : accept value with
      | none => simp [judged] at read
      | some other =>
        simp only [judged] at read
        cases read
        exact ⟨value, rfl, judged⟩
    · rintro ⟨_, same, judged⟩
      cases same
      simp only [judged]
  | miss left => simp
  | stuck left => simp

theorem misses_filterMap {accept : α → Option β} (misses : item.Misses text) :
    (item.filterMap accept).Misses text := by
  obtain ⟨left, missed⟩ := misses
  exact ⟨left, by rw [filterMap, missed]⟩

theorem misses_filterMap_of_none {accept : α → Option β} (read : item text = .done value rest)
    (refused : accept value = none) : (item.filterMap accept).Misses text :=
  ⟨text, by simp only [filterMap, read, refused]⟩

theorem sticks_filterMap_iff {accept : α → Option β} :
    (item.filterMap accept).Sticks text ↔ item.Sticks text := by
  unfold Sticks filterMap
  cases item text with
  | done value left => cases judged : accept value <;> simp [judged]
  | miss left => simp
  | stuck left => simp

end Modified

/-! ### Forms -/

variable {Form : α → List Char → Prop} {Follows : List Char → Prop}

/-- Whatever a reader takes from the front of a text has a form. -/
def ReadsOnly (reader : Reader α) (Form : α → List Char → Prop) : Prop :=
  ∀ ⦃text value rest⦄, reader text = .done value rest → ∃ taken, text = taken ++ rest ∧ Form value taken

/-- A reader takes every text of a form, if what comes after may follow it. -/
def ReadsAll (reader : Reader α) (Form : α → List Char → Prop) (Follows : List Char → Prop) : Prop :=
  ∀ ⦃value taken⦄, Form value taken → ∀ ⦃rest⦄, Follows rest → reader (taken ++ rest) = .done value rest

/-- Texts of a form one after the other. -/
inductive Series (Form : α → List Char → Prop) : List α → List Char → Prop where
  | nil : Series Form [] []
  | cons {value : α} {taken : List Char} {values : List α} {more : List Char} (one : Form value taken)
      (others : Series Form values more) : Series Form (value :: values) (taken ++ more)

theorem Series.length_le {values : List α} (filled : ∀ {value taken}, Form value taken → taken ≠ [])
    (series : Series Form values text) : values.length ≤ text.length := by
  induction series with
  | nil => exact Nat.le_refl 0
  | cons one _ ih =>
    have positive := List.length_pos_iff.2 (filled one)
    rw [List.length_cons, List.length_append]
    omega

section Repetition

variable {item : Reader α} {values : List α}

theorem ReadsOnly.manyUpTo (each : item.ReadsOnly Form) (budget : Nat) :
    (item.manyUpTo budget).ReadsOnly (Series Form) := by
  induction budget with
  | zero =>
    intro text values rest read
    cases read
    exact ⟨[], rfl, .nil⟩
  | succ budget ih =>
    intro text values rest read
    rw [Reader.manyUpTo] at read
    cases readFirst : item text with
    | done value left =>
      simp only [readFirst] at read
      cases readRest : item.manyUpTo budget left with
      | done others after =>
        rw [readRest] at read
        cases read
        obtain ⟨taken, rfl, one⟩ := each readFirst
        obtain ⟨more, rfl, series⟩ := ih readRest
        exact ⟨taken ++ more, by simp, .cons one series⟩
      | miss => simp [readRest] at read
      | stuck => simp [readRest] at read
    | miss =>
      simp only [readFirst] at read
      cases read
      exact ⟨[], rfl, .nil⟩
    | stuck => simp [readFirst] at read

theorem ReadsOnly.many (each : item.ReadsOnly Form) : item.many.ReadsOnly (Series Form) :=
  fun text _ _ read => each.manyUpTo text.length read

theorem ReadsAll.manyUpTo (each : item.ReadsAll Form Follows)
    (chain : ∀ {value taken}, Form value taken → ∀ rest, Follows (taken ++ rest))
    (series : Series Form values taken) (follows : Follows rest) (ends : item.Misses rest) {budget : Nat}
    (enough : values.length ≤ budget) : item.manyUpTo budget (taken ++ rest) = .done values rest := by
  induction series generalizing budget with
  | nil =>
    obtain ⟨left, missed⟩ := ends
    cases budget with
    | zero => rfl
    | succ budget => simp only [List.nil_append, Reader.manyUpTo, missed]
  | @cons value taken values more one others ih =>
    cases budget with
    | zero => simp at enough
    | succ budget =>
      have goesOn : Follows (more ++ rest) := by
        cases others with
        | nil => exact follows
        | cons next _ =>
          rw [List.append_assoc]
          exact chain next _
      simp only [List.append_assoc, Reader.manyUpTo, each one goesOn, ih (Nat.le_of_succ_le_succ enough)]

/-- A repetition takes a series of texts that may follow each other, if no further item can be read
    behind it. -/
theorem ReadsAll.many (each : item.ReadsAll Form Follows)
    (chain : ∀ {value taken}, Form value taken → ∀ rest, Follows (taken ++ rest))
    (filled : ∀ {value taken}, Form value taken → taken ≠ []) :
    item.many.ReadsAll (Series Form) fun rest => Follows rest ∧ item.Misses rest := by
  intro values taken series rest ⟨follows, ends⟩
  have enough := series.length_le filled
  refine each.manyUpTo chain series follows ends ?_
  rw [List.length_append]
  omega

/-- A repetition ends where the next item misses. -/
theorem misses_of_many (each : item.ReadsOnly Form) (filled : ∀ {value taken}, Form value taken → taken ≠ [])
    (nothing : item.Misses []) (read : item.many text = .done values rest) : item.Misses rest := by
  have ends : ∀ budget text values, text.length ≤ budget →
      item.manyUpTo budget text = .done values rest → item.Misses rest := by
    intro budget
    induction budget with
    | zero =>
      intro text values short read
      cases read
      rwa [List.length_eq_zero_iff.1 (Nat.le_zero.1 short)]
    | succ budget ih =>
      intro text values short read
      rw [Reader.manyUpTo] at read
      cases readFirst : item text with
      | done value left =>
        simp only [readFirst] at read
        obtain ⟨taken, rfl, one⟩ := each readFirst
        have positive := List.length_pos_iff.2 (filled one)
        rw [List.length_append] at short
        cases readRest : item.manyUpTo budget left with
        | done others after =>
          rw [readRest] at read
          cases read
          exact ih left others (by omega) readRest
        | miss => simp [readRest] at read
        | stuck => simp [readRest] at read
      | miss left =>
        simp only [readFirst] at read
        cases read
        exact ⟨left, readFirst⟩
      | stuck => simp [readFirst] at read
  exact ends _ text values (Nat.le_refl _) read

end Repetition

/-! ### Single characters and runs -/

theorem char_eq_done_iff {nothing : Unit} : char c text = .done nothing rest ↔ text = c :: rest := by
  cases text with
  | nil => simp [char]
  | cons first text =>
    by_cases same : first = c
    · simp [char, same]
    · simp [char, same]

theorem char_done (c : Char) (rest : List Char) : char c (c :: rest) = .done () rest :=
  char_eq_done_iff.2 rfl

theorem misses_char (other : text.head? ≠ some c) : (char c).Misses text := by
  cases text with
  | nil => exact ⟨[], rfl⟩
  | cons first text =>
    have differ : first ≠ c := by simpa using other
    exact ⟨first :: text, by rw [char, if_neg differ]⟩

theorem not_sticks_char : ¬ (char c).Sticks text := by
  rintro ⟨left, stuck⟩
  cases text with
  | nil => cases stuck
  | cons first text =>
    rw [char] at stuck
    split at stuck <;> cases stuck

theorem run_eq_done_iff :
    run accept text = .done taken rest ↔
      text = taken ++ rest ∧ (∀ c ∈ taken, accept c = true) ∧ Clear accept rest := by
  rw [run, Outcome.done.injEq]
  constructor
  · rintro ⟨rfl, rfl⟩
    exact ⟨List.takeWhile_append_dropWhile.symm, fun c member => List.mem_takeWhile_imp member,
      clear_dropWhile accept text⟩
  · rintro ⟨rfl, chars, clear⟩
    exact ⟨takeWhile_append_clear chars clear, dropWhile_append_clear chars clear⟩

theorem run1_eq_done_iff :
    run1 accept text = .done taken rest ↔
      text = taken ++ rest ∧ taken ≠ [] ∧ (∀ c ∈ taken, accept c = true) ∧ Clear accept rest := by
  have same : run accept text = .done taken rest ↔ _ := run_eq_done_iff
  rw [run, Outcome.done.injEq] at same
  unfold run1
  cases chars : text.takeWhile accept with
  | nil =>
    rw [chars] at same
    constructor
    · intro read
      cases read
    · rintro ⟨spelled, filled, run, clear⟩
      exact absurd (same.2 ⟨spelled, run, clear⟩).1.symm filled
  | cons c more =>
    rw [chars] at same
    simp only [Outcome.done.injEq, same]
    constructor
    · rintro ⟨spelled, run, clear⟩
      refine ⟨spelled, ?_, run, clear⟩
      rintro rfl
      exact absurd (same.2 ⟨spelled, run, clear⟩).1 (List.cons_ne_nil c more)
    · rintro ⟨spelled, _, run, clear⟩
      exact ⟨spelled, run, clear⟩

theorem run1_of_clear (clear : Clear accept text) : run1 accept text = .miss text := by
  cases text with
  | nil => rfl
  | cons c text => simp [run1, clear_cons.1 clear]

theorem misses_run1 (clear : Clear accept text) : (run1 accept).Misses text :=
  ⟨text, run1_of_clear clear⟩

theorem clear_of_misses_run1 (misses : (run1 accept).Misses text) : Clear accept text := by
  obtain ⟨left, missed⟩ := misses
  intro c first
  obtain ⟨rest, rfl⟩ := List.head?_eq_some_iff.1 first
  rw [Bool.eq_false_iff]
  intro accepted
  simp [run1, accepted] at missed

theorem not_sticks_run : ¬ (run accept).Sticks text := by
  rintro ⟨left, stuck⟩
  cases stuck

theorem not_sticks_run1 : ¬ (run1 accept).Sticks text := by
  rintro ⟨left, stuck⟩
  unfold run1 at stuck
  split at stuck <;> cases stuck

/-- Nothing but spaces and tabs. -/
def IsGaps (text : List Char) : Prop :=
  ∀ c ∈ text, isGap c = true

theorem gap_eq_done_iff {nothing : Unit} :
    gap text = .done nothing rest ↔ ∃ gaps, text = gaps ++ rest ∧ IsGaps gaps ∧ Clear isGap rest := by
  rw [gap, bind_eq_done_iff]
  constructor
  · rintro ⟨gaps, left, read, finished⟩
    cases finished
    exact ⟨gaps, run_eq_done_iff.1 read⟩
  · rintro ⟨gaps, read⟩
    exact ⟨gaps, rest, run_eq_done_iff.2 read, rfl⟩

theorem gap_done {gaps : List Char} (isGaps : IsGaps gaps) (clear : Clear isGap rest) :
    gap (gaps ++ rest) = .done () rest :=
  gap_eq_done_iff.2 ⟨gaps, rfl, isGaps, clear⟩

theorem not_sticks_gap : ¬ gap.Sticks text := by
  simp [gap, sticks_bind_iff, not_sticks_run, not_sticks_pure]

theorem gap1_eq_done_iff {nothing : Unit} :
    gap1 text = .done nothing rest ↔
      ∃ gaps, text = gaps ++ rest ∧ gaps ≠ [] ∧ IsGaps gaps ∧ Clear isGap rest := by
  rw [gap1, bind_eq_done_iff]
  constructor
  · rintro ⟨gaps, left, read, finished⟩
    cases finished
    exact ⟨gaps, run1_eq_done_iff.1 read⟩
  · rintro ⟨gaps, read⟩
    exact ⟨gaps, rest, run1_eq_done_iff.2 read, rfl⟩

theorem gap1_done {gaps : List Char} (filled : gaps ≠ []) (isGaps : IsGaps gaps) (clear : Clear isGap rest) :
    gap1 (gaps ++ rest) = .done () rest :=
  gap1_eq_done_iff.2 ⟨gaps, rfl, filled, isGaps, clear⟩

theorem misses_gap1 (clear : Clear isGap text) : gap1.Misses text :=
  (misses_run1 clear).bind

theorem clear_of_misses_gap1 (misses : gap1.Misses text) : Clear isGap text := by
  rcases misses_bind_iff.1 misses with noRun | ⟨_, _, _, _, finished⟩
  · exact clear_of_misses_run1 noRun
  · cases finished

theorem token_eq_done_iff {expected : List Char} {nothing : Unit} :
    token expected text = .done nothing rest ↔ text = expected ++ rest := by
  unfold token
  split
  · rename_i starts
    obtain ⟨after, rfl⟩ := List.isPrefixOf_iff_prefix.1 starts
    simp
  · rename_i other
    constructor
    · intro read
      cases read
    · rintro rfl
      exact absurd (List.isPrefixOf_iff_prefix.2 (List.prefix_append expected rest)) other

theorem misses_token {expected : List Char} (other : ¬ expected <+: text) :
    (token expected).Misses text := by
  refine ⟨text, ?_⟩
  rw [token, if_neg fun starts => other (List.isPrefixOf_iff_prefix.1 starts)]

theorem not_sticks_token {expected : List Char} : ¬ (token expected).Sticks text := by
  rintro ⟨left, stuck⟩
  unfold token at stuck
  split at stuck <;> cases stuck

/-- A comma with spaces and tabs around it, as a text. -/
def IsComma (text : List Char) : Prop :=
  ∃ before after, text = before ++ ',' :: after ∧ IsGaps before ∧ IsGaps after

theorem comma_eq_done_iff {nothing : Unit} :
    comma text = .done nothing rest ↔ ∃ taken, text = taken ++ rest ∧ IsComma taken ∧ Clear isGap rest := by
  simp only [comma, bind_eq_done_iff, gap_eq_done_iff, char_eq_done_iff]
  constructor
  · rintro ⟨_, _, ⟨before, rfl, front, _⟩, _, _, rfl, after, rfl, back, clear⟩
    exact ⟨before ++ ',' :: after, by simp, ⟨before, after, rfl, front, back⟩, clear⟩
  · rintro ⟨_, rfl, ⟨before, after, rfl, front, back⟩, clear⟩
    have stops : Clear isGap (',' :: (after ++ rest)) := clear_cons.2 rfl
    exact ⟨(), _, ⟨before, by simp, front, stops⟩, (), after ++ rest, rfl, after, rfl, back, clear⟩

theorem comma_done {separator : List Char} (isComma : IsComma separator) (clear : Clear isGap rest) :
    comma (separator ++ rest) = .done () rest :=
  comma_eq_done_iff.2 ⟨separator, rfl, isComma, clear⟩

theorem not_sticks_comma : ¬ comma.Sticks text := by
  simp [comma, sticks_bind_iff, not_sticks_gap, not_sticks_char]

end Reader

end RegionFlow.Text
