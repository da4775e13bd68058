/-
Module: RegionFlow.Proofs.Appending
Purpose: What text behind the end of a text does to readers. A reader that looks for no blank comes
  to the same outcome if a text that starts with a blank is appended: words, names and operands end
  where they ended. Readers that pass blanks would go on into the appended text from the end of the
  old one. But what they took before something else they take again, so flags, an operand behind its
  type and the target of a branch are read as before.
Main exports: Text.Outcome.append, Text.StartsBlank, Reader.Unmoved, Reader.KeepsIf,
  Reader.KeepsIf.bind, Reader.KeepsIf.many, Instruction.unmoved_operand, Instruction.EndsFlags,
  Instruction.keepsIf_flags_bind, Instruction.keepsIf_typedOperand, Instruction.keepsIf_blockLabel
-/
import RegionFlow.Proofs.WrittenLines

namespace RegionFlow.Text

/-- An outcome with a text behind what is left. -/
def Outcome.append {α : Type} (more : List Char) : Outcome α → Outcome α
  | .done value rest => .done value (rest ++ more)
  | .miss rest => .miss (rest ++ more)
  | .stuck rest => .stuck (rest ++ more)

/-- A text that starts with a blank. -/
def StartsBlank (text : List Char) : Prop :=
  ∃ c rest, text = c :: rest ∧ isBlank c = true

theorem StartsBlank.clear {accept : Char → Bool} {text : List Char} (blank : StartsBlank text)
    (visible : ∀ c, accept c = true → isBlank c = false) : Clear accept text := by
  obtain ⟨c, rest, rfl, isBlank⟩ := blank
  refine clear_cons.2 (Bool.eq_false_iff.2 fun accepted => ?_)
  exact Bool.noConfusion ((visible c accepted).symm.trans isBlank)

/-- A text that is not empty stops what it stopped, whatever is appended. -/
theorem Clear.append {accept : Char → Bool} {text : List Char} (clear : Clear accept text)
    (filled : text ≠ []) (more : List Char) : Clear accept (text ++ more) := by
  obtain ⟨c, rest, rfl⟩ := List.exists_cons_of_ne_nil filled
  exact clear_cons.2 (clear_cons.1 clear)

/-- A text stops what both it and the text behind it stop. -/
theorem Clear.append_clear {accept : Char → Bool} {text more : List Char} (clear : Clear accept text)
    (behind : Clear accept more) : Clear accept (text ++ more) := by
  by_cases filled : text = []
  · rwa [filled]
  · exact clear.append filled more

namespace Reader

variable {α β : Type} {more text rest : List Char}

/-! ### Readers that do not look into what is appended -/

/-- A reader comes to the same outcome with more text behind, which is then left over. -/
def Unmoved (reader : Reader α) (more : List Char) : Prop :=
  ∀ text, reader (text ++ more) = (reader text).append more

theorem unmoved_pure (value : α) : (pure value : Reader α).Unmoved more :=
  fun _ => rfl

theorem Unmoved.bind {first : Reader α} {next : α → Reader β} (one : first.Unmoved more)
    (two : ∀ value, (next value).Unmoved more) : (first >>= next).Unmoved more := by
  intro text
  change Reader.bind first next (text ++ more) = (Reader.bind first next text).append more
  rw [Reader.bind, Reader.bind, one text]
  cases first text with
  | done value rest => exact two value rest
  | miss rest => rfl
  | stuck rest => rfl

theorem Unmoved.orElse {first second : Reader α} (one : first.Unmoved more) (two : second.Unmoved more) :
    (first <|> second).Unmoved more := by
  intro text
  change Reader.orElse first (fun _ => second) (text ++ more) =
    (Reader.orElse first (fun _ => second) text).append more
  rw [Reader.orElse, Reader.orElse, one text]
  cases first text with
  | done value rest => rfl
  | miss rest => exact two text
  | stuck rest => rfl

theorem Unmoved.optional {item : Reader α} (unmoved : item.Unmoved more) : item.optional.Unmoved more := by
  intro text
  rw [Reader.optional, Reader.optional, unmoved text]
  cases item text with
  | done value rest => rfl
  | miss rest => rfl
  | stuck rest => rfl

theorem Unmoved.filterMap {item : Reader α} (unmoved : item.Unmoved more) (accept : α → Option β) :
    (item.filterMap accept).Unmoved more := by
  intro text
  rw [Reader.filterMap, Reader.filterMap, unmoved text]
  cases item text with
  | done value rest =>
    dsimp only [Outcome.append]
    cases accept value with
    | none => rfl
    | some result => rfl
  | miss rest => rfl
  | stuck rest => rfl

theorem Unmoved.committed {item : Reader α} (unmoved : item.Unmoved more) : item.committed.Unmoved more := by
  intro text
  rw [Reader.committed, Reader.committed, unmoved text]
  cases item text with
  | done value rest => rfl
  | miss rest => rfl
  | stuck rest => rfl

theorem unmoved_char {c : Char} (other : more.head? ≠ some c) : (char c).Unmoved more := by
  intro text
  cases text with
  | nil =>
    cases more with
    | nil => rfl
    | cons first more =>
      have differ : first ≠ c := by simpa using other
      simp [char, differ, Outcome.append]
  | cons first text =>
    by_cases same : first = c
    · simp [char, same, Outcome.append]
    · simp [char, same, Outcome.append]

theorem unmoved_token {expected : List Char} (apart : ∀ c ∈ more.head?, c ∉ expected) :
    (token expected).Unmoved more := by
  intro text
  unfold token
  by_cases starts : expected <+: text
  · have still : expected <+: text ++ more := starts.trans (List.prefix_append text more)
    rw [if_pos (List.isPrefixOf_iff_prefix.2 starts), if_pos (List.isPrefixOf_iff_prefix.2 still),
      List.drop_append_of_le_length starts.length_le]
    rfl
  · have neither : ¬ expected <+: text ++ more := fun still => starts (prefix_of_prefix_append still apart)
    rw [if_neg (mt List.isPrefixOf_iff_prefix.1 starts), if_neg (mt List.isPrefixOf_iff_prefix.1 neither)]
    rfl

theorem unmoved_run {accept : Char → Bool} (clear : Clear accept more) : (run accept).Unmoved more := by
  intro text
  obtain ⟨spelled, chars, ends⟩ := run_eq_done_iff.1 (rfl : run accept text = .done _ _)
  refine run_eq_done_iff.2 ⟨?_, chars, ends.append_clear clear⟩
  rw [← List.append_assoc, ← spelled]

theorem unmoved_run1 {accept : Char → Bool} (clear : Clear accept more) : (run1 accept).Unmoved more := by
  intro text
  rcases (run1 accept).cases_outcome text with ⟨taken, rest, read⟩ | misses | sticks
  · obtain ⟨spelled, filled, chars, ends⟩ := run1_eq_done_iff.1 read
    rw [read]
    exact run1_eq_done_iff.2 ⟨by rw [spelled, List.append_assoc], filled, chars, ends.append_clear clear⟩
  · have stops := clear_of_misses_run1 misses
    rw [run1_of_clear stops, run1_of_clear (stops.append_clear clear)]
    rfl
  · exact absurd sticks not_sticks_run1

theorem unmoved_notFollowedBy {refuse : Char → Bool} (clear : Clear refuse more) :
    (notFollowedBy refuse).Unmoved more := by
  intro text
  cases text with
  | nil =>
    cases more with
    | nil => rfl
    | cons c more => simp [notFollowedBy, clear_cons.1 clear, Outcome.append]
  | cons c text =>
    cases refused : refuse c with
    | true => simp [notFollowedBy, refused, Outcome.append]
    | false => simp [notFollowedBy, refused, Outcome.append]

theorem Unmoved.done {reader : Reader α} {value : α} (unmoved : reader.Unmoved more)
    (read : reader text = .done value rest) : reader (text ++ more) = .done value (rest ++ more) := by
  rw [unmoved text, read]
  rfl

theorem Unmoved.misses {reader : Reader α} (unmoved : reader.Unmoved more) (misses : reader.Misses text) :
    reader.Misses (text ++ more) := by
  obtain ⟨left, missed⟩ := misses
  exact ⟨left ++ more, by rw [unmoved text, missed]; rfl⟩

/-! ### Readers that keep what they took -/

/-- What a reader takes from a text it takes again with more text behind, provided that `Left` holds
    of what it leaves. -/
def KeepsIf (reader : Reader α) (more : List Char) (Left : List Char → Prop) : Prop :=
  ∀ ⦃text value rest⦄, Left rest → reader text = .done value rest →
    reader (text ++ more) = .done value (rest ++ more)

variable {Left End : List Char → Prop} {first : Reader α} {next : α → Reader β}

theorem Unmoved.keepsIf {reader : Reader α} (unmoved : reader.Unmoved more) : reader.KeepsIf more End :=
  fun _ _ _ _ read => unmoved.done read

theorem keepsIf_pure (value : α) : (pure value : Reader α).KeepsIf more End :=
  (unmoved_pure value).keepsIf

/-- A sequence keeps what it took if its second part goes on only from texts that the first may leave. -/
theorem KeepsIf.bind (one : first.KeepsIf more Left)
    (goes : ∀ ⦃value text result rest⦄, End rest → next value text = .done result rest → Left text)
    (two : ∀ value, (next value).KeepsIf more End) : (first >>= next).KeepsIf more End := by
  intro text result rest ends read
  obtain ⟨value, left, readFirst, readNext⟩ := bind_eq_done_iff.1 read
  exact bind_done (one (goes ends readNext) readFirst) (two value ends readNext)

/-- A first part that keeps whatever it took puts no condition on the second. -/
theorem KeepsIf.andThen (one : first.KeepsIf more fun _ => True)
    (two : ∀ value, (next value).KeepsIf more End) : (first >>= next).KeepsIf more End :=
  one.bind (fun _ _ _ _ _ _ => trivial) two

theorem ne_nil_of_misses {reader : Reader α} {value : α} (nothing : reader.Misses [])
    (read : reader text = .done value rest) : text ≠ [] := by
  rintro rfl
  obtain ⟨left, missed⟩ := nothing
  cases missed.symm.trans read

/-- A first part that must leave something goes with a second part that needs something. -/
theorem KeepsIf.bind_filled (one : first.KeepsIf more (· ≠ [])) (needs : ∀ value, (next value).Misses [])
    (two : ∀ value, (next value).KeepsIf more End) : (first >>= next).KeepsIf more End :=
  one.bind (fun value _ _ _ _ read => ne_nil_of_misses (needs value) read) two

theorem KeepsIf.filterMap (keeps : first.KeepsIf more End) (accept : α → Option β) :
    (first.filterMap accept).KeepsIf more End := by
  intro text value rest ends read
  obtain ⟨found, readFirst, accepted⟩ := filterMap_eq_done_iff.1 read
  exact filterMap_eq_done_iff.2 ⟨found, keeps ends readFirst, accepted⟩

theorem keepsIf_gap : gap.KeepsIf more (· ≠ []) := by
  intro text nothing rest filled read
  obtain ⟨gaps, rfl, isGaps, clear⟩ := gap_eq_done_iff.1 read
  rw [List.append_assoc]
  exact gap_done isGaps (clear.append filled more)

theorem keepsIf_gap1 : gap1.KeepsIf more (· ≠ []) := by
  intro text nothing rest filled read
  obtain ⟨gaps, rfl, some, isGaps, clear⟩ := gap1_eq_done_iff.1 read
  rw [List.append_assoc]
  exact gap1_done some isGaps (clear.append filled more)

theorem keepsIf_comma : comma.KeepsIf more (· ≠ []) := by
  intro text nothing rest filled read
  obtain ⟨separator, rfl, isComma, clear⟩ := comma_eq_done_iff.1 read
  rw [List.append_assoc]
  exact comma_done isComma (clear.append filled more)

/-- A repetition takes the same items again if no further item can be read where it ended. -/
theorem KeepsIf.manyUpTo {item : Reader α} (each : item.KeepsIf more fun _ => True) {budget bound : Nat}
    (larger : budget ≤ bound) {values : List α} (ends : item.Misses (rest ++ more))
    (read : item.manyUpTo budget text = .done values rest) :
    item.manyUpTo bound (text ++ more) = .done values (rest ++ more) := by
  have stopped (bound : Nat) : item.manyUpTo bound (rest ++ more) = .done [] (rest ++ more) := by
    obtain ⟨left, missed⟩ := ends
    cases bound with
    | zero => rfl
    | succ bound => simp only [Reader.manyUpTo, missed]
  -- the longer text has a larger budget, so the bound is general
  induction budget generalizing text values bound with
  | zero =>
    cases read
    exact stopped bound
  | succ budget ih =>
    cases bound with
    | zero => exact absurd larger (Nat.not_succ_le_zero budget)
    | succ bound =>
      rw [Reader.manyUpTo] at read
      cases readFirst : item text with
      | done value left =>
        simp only [readFirst] at read
        cases readRest : item.manyUpTo budget left with
        | done others after =>
          rw [readRest] at read
          cases read
          simp only [Reader.manyUpTo, each trivial readFirst, ih (Nat.le_of_succ_le_succ larger) readRest]
        | miss => simp [readRest] at read
        | stuck => simp [readRest] at read
      | miss left =>
        simp only [readFirst] at read
        cases read
        exact stopped (bound + 1)
      | stuck => simp [readFirst] at read

theorem KeepsIf.many {item : Reader α} (each : item.KeepsIf more fun _ => True) :
    item.many.KeepsIf more fun rest => item.Misses (rest ++ more) := by
  intro text values rest ends read
  refine each.manyUpTo ?_ ends read
  rw [List.length_append]
  exact Nat.le_add_right _ _

end Reader

end RegionFlow.Text

namespace RegionFlow.Instruction

open Text Text.Reader

variable {more text rest : List Char}

/-! ### Words and operands -/

theorem isBlank_of_isWordChar {c : Char} (inside : isWordChar c = true) : isBlank c = false :=
  isBlank_of_isNameChar (isNameChar_of_isWordChar inside)

theorem isBlank_of_isDigit {c : Char} (inside : isDigit c = true) : isBlank c = false :=
  isBlank_of_isWordChar (isWordChar_of_isDigit inside)

section Words

variable (blank : StartsBlank more)
include blank

theorem unmoved_visible {c : Char} (visible : isBlank c = false) : (char c).Unmoved more := by
  obtain ⟨first, rest, rfl, isBlank⟩ := blank
  apply unmoved_char
  rintro ⟨⟩
  exact Bool.noConfusion (visible.symm.trans isBlank)

theorem unmoved_chars {expected : List Char} (visible : ∀ c ∈ expected, isBlank c = false) :
    (token expected).Unmoved more := by
  obtain ⟨first, rest, rfl, isBlank⟩ := blank
  apply unmoved_token
  rintro c ⟨⟩ member
  exact Bool.noConfusion ((visible first member).symm.trans isBlank)

theorem unmoved_sigilName {sigil : Char} (visible : isBlank sigil = false) :
    (sigilName sigil).Unmoved more :=
  (unmoved_visible blank visible).bind fun _ =>
    (unmoved_run1 (blank.clear fun _ => isBlank_of_isNameChar)).bind fun _ => unmoved_pure _

theorem unmoved_word : word.Unmoved more :=
  (unmoved_run1 (blank.clear fun _ => isBlank_of_isWordChar)).bind fun _ => unmoved_pure _

theorem unmoved_keyword {expected : String} (spelled : IsWord expected.toList) :
    (keyword expected).Unmoved more :=
  (unmoved_chars blank fun c member => isBlank_of_isWordChar (spelled.2 c member)).bind fun _ =>
    unmoved_notFollowedBy (blank.clear fun _ => isBlank_of_isNameChar)

theorem unmoved_either {left right : Char} (one : isBlank left = false) (two : isBlank right = false) :
    (either left right).Unmoved more :=
  ((unmoved_visible blank one).bind fun _ => unmoved_pure _).orElse
    ((unmoved_visible blank two).bind fun _ => unmoved_pure _)

theorem unmoved_optionalSign : optionalSign.Unmoved more :=
  (unmoved_either blank rfl rfl).optional.bind fun _ => unmoved_pure _

theorem unmoved_mantissa : mantissa.Unmoved more := by
  have digits : Clear isDigit more := blank.clear fun _ => isBlank_of_isDigit
  have point : (char '.').Unmoved more := unmoved_visible blank rfl
  have fraction := (point.bind fun _ => (unmoved_run digits).bind fun chars =>
    unmoved_pure ('.' :: chars)).optional
  have bare := point.bind fun _ => (unmoved_run1 digits).bind fun chars => unmoved_pure ('.' :: chars)
  exact ((unmoved_run1 digits).bind fun _ => fraction.bind fun _ => unmoved_pure _).orElse bare

theorem unmoved_exponent : exponent.Unmoved more := by
  have digits : Clear isDigit more := blank.clear fun _ => isBlank_of_isDigit
  exact (unmoved_either blank rfl rfl).bind fun _ => (unmoved_optionalSign blank).bind fun _ =>
    (unmoved_run1 digits).committed.bind fun _ => unmoved_pure _

theorem unmoved_literal : literal.Unmoved more := by
  have hexDigits : Clear isHexChar more :=
    blank.clear fun _ inside => isBlank_of_isNameChar (isNameChar_of_isHexChar inside)
  have hex : hexLiteral.Unmoved more :=
    (unmoved_chars blank (List.forall_mem_cons.2 ⟨rfl, List.forall_mem_singleton.2 rfl⟩)).bind fun _ =>
      (unmoved_run1 hexDigits).bind fun _ => unmoved_pure _
  have decimal : decimalLiteral.Unmoved more :=
    (unmoved_optionalSign blank).bind fun _ => (unmoved_mantissa blank).bind fun _ =>
      (unmoved_exponent blank).optional.bind fun _ => unmoved_pure _
  exact (hex.bind fun _ => unmoved_pure _).orElse
    ((decimal.bind fun _ => unmoved_pure _).orElse ((unmoved_word blank).filterMap _))

theorem unmoved_operand : operand.Unmoved more :=
  ((unmoved_sigilName blank rfl).bind fun _ => unmoved_pure _).orElse
    (((unmoved_sigilName blank rfl).bind fun _ => unmoved_pure _).orElse
      ((unmoved_literal blank).bind fun _ => unmoved_pure _))

end Words

/-! ### Types -/

theorem isBlank_of_isTypeChar {c : Char} (inside : isTypeChar c = true) : isBlank c = false := by
  rcases Bool.or_eq_true_iff.1 inside with word | star
  · exact isBlank_of_isWordChar word
  · rw [beq_iff_eq.1 star]
    rfl

theorem keepsIf_typeSpelling (blank : StartsBlank more) : typeSpelling.KeepsIf more (Clear isTypeChar) := by
  intro text type rest clear read
  obtain ⟨taken, rfl, isType⟩ := readsOnly_typeSpelling read
  rw [List.append_assoc]
  exact readsAll_typeSpelling isType (clear.append_clear (blank.clear fun _ => isBlank_of_isTypeChar))

theorem clear_isTypeChar_of_gap1 {nothing : Unit} (read : gap1 text = .done nothing rest) :
    Clear isTypeChar text := by
  obtain ⟨gaps, rfl, filled, isGaps, _⟩ := gap1_eq_done_iff.1 read
  exact clear_filled_gaps (fun _ => isTypeChar_of_isGap) filled isGaps rest

theorem clear_isTypeChar_of_comma {nothing : Unit} (read : comma text = .done nothing rest) :
    Clear isTypeChar text := by
  obtain ⟨separator, rfl, isComma, _⟩ := comma_eq_done_iff.1 read
  exact clear_of_isComma isComma (fun _ => isTypeChar_of_isGap) rfl rest

/-- A type is read as before if blanks or a comma stand behind it. -/
theorem keepsIf_type_bind {β : Type} {End : List Char → Prop} {parted : Reader Unit}
    {next : String → Unit → Reader β} (blank : StartsBlank more)
    (parts : ∀ ⦃text nothing rest⦄, parted text = .done nothing rest → Clear isTypeChar text)
    (keeps : parted.KeepsIf more (· ≠ [])) (needs : ∀ type, (next type ()).Misses [])
    (others : ∀ type, (next type ()).KeepsIf more End) :
    (typeSpelling >>= fun type => parted >>= next type).KeepsIf more End := by
  refine (keepsIf_typeSpelling blank).bind ?_ fun type =>
    keeps.bind_filled (fun _ => needs type) fun _ => others type
  intro type text result rest _ read
  obtain ⟨_, left, readFirst, _⟩ := bind_eq_done_iff.1 read
  exact parts readFirst

/-! ### Flags -/

section Flags

variable {α β : Type} {set : List String}

/-- A reader that goes on where flags end: it takes nothing from a text that is empty, that starts
    with a blank, or that is one of the flags with nothing behind. -/
structure EndsFlags (set : List String) (reader : Reader α) : Prop where
  nothing : reader.Misses []
  solid : ∀ ⦃text value rest⦄, reader text = .done value rest → Clear isGap text
  bare : ∀ flag ∈ set, reader.Misses flag.toList

theorem EndsFlags.bind {first : Reader α} (ends : EndsFlags set first) (next : α → Reader β) :
    EndsFlags set (first >>= next) where
  nothing := ends.nothing.bind
  solid := by
    intro text value rest read
    obtain ⟨_, _, readFirst, _⟩ := bind_eq_done_iff.1 read
    exact ends.solid readFirst
  bare := fun flag member => (ends.bare flag member).bind

/-- A type ends flags if something has to follow it: a flag with nothing behind is read as a type. -/
theorem endsFlags_type {next : String → Reader β} (words : areWords set = true)
    (needs : ∀ type, (next type).Misses []) : EndsFlags set (typeSpelling >>= next) where
  nothing := Misses.bind ⟨[], rfl⟩
  solid := by
    intro text value rest read
    obtain ⟨_, left, readFirst, _⟩ := bind_eq_done_iff.1 read
    obtain ⟨taken, rfl, _, isType⟩ := readsOnly_typeSpelling readFirst
    exact isType.clear_isGap left
  bare := by
    intro flag member
    have isType : IsType flag.toList := ⟨_, [], by simp, .word (isWord_of_areWords words member), by simp⟩
    have read := readsAll_typeSpelling ⟨rfl, isType⟩ (clear_nil : Clear isTypeChar [])
    rw [List.append_nil] at read
    exact misses_bind_of_done read (needs _)

/-- What is no flag with nothing behind, and is not read as a flag, is not read as one with more
    text behind. -/
theorem misses_flag_append (blank : StartsBlank more) (misses : (flag set).Misses text)
    (unlisted : set.contains (String.ofList text) = false) : (flag set).Misses (text ++ more) := by
  have unmoved := (unmoved_word blank).filterMap fun found => if set.contains found then some found else none
  rcases misses_bind_iff.1 misses with noFlag | ⟨found, left, read, stops⟩
  · exact (unmoved.misses noFlag).bind
  · -- a flag at the very end of the text would now have blanks behind it
    have filled : left ≠ [] := by
      rintro rfl
      obtain ⟨_, readWord, known⟩ := filterMap_eq_done_iff.1 read
      obtain ⟨chars, rfl, rfl, _⟩ := word_eq_done_iff.1 readWord
      rw [List.append_nil] at unlisted
      exact Bool.noConfusion (unlisted.symm.trans (Option.ite_none_right_eq_some.1 known).1)
    have clear := (clear_of_misses_gap1 stops).append filled more
    exact misses_bind_of_done (unmoved.done read) (misses_gap1 clear)

/-- Flags are passed as before if what goes on behind them ends them. -/
theorem keepsIf_flags_bind {End : List Char → Prop} {next : Unit → Reader β}
    (blank : StartsBlank more) (ends : EndsFlags set (next ()))
    (keeps : (next ()).KeepsIf more End) : (flags set >>= next).KeepsIf more End := by
  intro text result rest isEnd read
  obtain ⟨_, left, readFlags, readNext⟩ := bind_eq_done_iff.1 read
  have solid := ends.solid readNext
  obtain ⟨marks, rfl, isFlags, misses⟩ := (flags_eq_done_iff solid).1 readFlags
  have unlisted : set.contains (String.ofList left) = false := by
    rw [Bool.eq_false_iff]
    intro known
    obtain ⟨after, missed⟩ := ends.bare _ (List.contains_iff_mem.1 known)
    rw [String.toList_ofList] at missed
    cases missed.symm.trans readNext
  have filled := ne_nil_of_misses ends.nothing readNext
  rw [List.append_assoc]
  exact bind_done (flags_done isFlags (solid.append filled more) (misses_flag_append blank misses unlisted))
    (keeps isEnd readNext)

end Flags

/-! ### Typed operands and targets -/

/-- An operand ends the attributes before it. -/
theorem endsFlags_operand : EndsFlags parameterAttributes operand where
  nothing := ⟨[], rfl⟩
  solid := by
    intro text value rest read
    obtain ⟨taken, rfl, written⟩ := readsOnly_operand read
    exact clear_isGap_of_written written rest
  bare := by
    intro flag member
    have table :
        parameterAttributes.all (fun flag => operand flag.toList == .miss flag.toList) = true := by
      decide
    exact ⟨_, beq_iff_eq.1 (List.all_eq_true.1 table flag member)⟩

/-- An operand behind its type is read as before, whatever it left. -/
theorem keepsIf_typedOperand {End : List Char → Prop} (blank : StartsBlank more) :
    typedOperand.KeepsIf more End := by
  refine keepsIf_type_bind blank (fun _ _ _ => clear_isTypeChar_of_gap1) keepsIf_gap1 (fun _ => ⟨[], rfl⟩) ?_
  intro type
  refine keepsIf_flags_bind blank (endsFlags_operand.bind _) ?_
  exact (unmoved_operand blank).keepsIf.andThen fun _ => keepsIf_pure _

theorem endsFlags_typedOperand {set : List String} (words : areWords set = true) :
    EndsFlags set typedOperand :=
  endsFlags_type words fun _ => ⟨[], rfl⟩

theorem isWord_label : IsWord "label".toList :=
  ⟨by decide, List.all_eq_true.1 rfl⟩

theorem keepsIf_blockLabel {End : List Char → Prop} (blank : StartsBlank more) :
    blockLabel.KeepsIf more End := by
  refine (unmoved_keyword blank isWord_label).keepsIf.andThen fun _ => ?_
  exact keepsIf_gap1.bind_filled (fun _ => ⟨[], rfl⟩) fun _ => (unmoved_sigilName blank rfl).keepsIf

end RegionFlow.Instruction
