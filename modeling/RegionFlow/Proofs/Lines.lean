/-
Module: RegionFlow.Proofs.Lines
Purpose: The parts of a line that all instructions share: the reference that a line defines, the
  operation with the marker that may precede it, flags and the spelling of a type. A line is read as
  an instruction exactly if it opens with an operation whose reader takes the instruction from what
  follows and leaves nothing but attributes.
Main exports: Instruction.Opens, Instruction.read_eq_ok_iff, Instruction.IsType,
  Instruction.readsOnly_typeSpelling, Instruction.readsAll_typeSpelling, Instruction.IsFlag,
  Instruction.flags_eq_done_iff
-/
import RegionFlow.Proofs.Nesting
import RegionFlow.Proofs.Operands

namespace RegionFlow.Instruction

open Text Text.Reader

variable {text rest : List Char}

/-! ### The front of a line -/

/-- A text defines a reference; `rest` is what is left behind the equals sign. -/
def StartsAssignment (result : String) (text rest : List Char) : Prop :=
  ∃ name before after, text = name ++ (before ++ '=' :: (after ++ rest)) ∧ result = String.ofList name ∧
    IsName '%' name ∧ IsGaps before ∧ IsGaps after ∧ Clear isGap rest

/-- A text starts with a word and blanks; `rest` is what is left behind them. -/
def StartsWord (found : String) (text rest : List Char) : Prop :=
  ∃ chars gaps, text = chars ++ (gaps ++ rest) ∧ found = String.ofList chars ∧ IsWord chars ∧ IsGaps gaps ∧
    Clear isWordChar (gaps ++ rest) ∧ Clear isGap rest

/-- A text starts with an operation, perhaps behind a marker. -/
inductive StartsOperation (opcode : String) (text rest : List Char) : Prop where
  | plain (named : StartsWord opcode text rest) (unmarked : tailMarkers.contains opcode = false)
  | marked {marker : String} {left : List Char} (first : StartsWord marker text left)
      (known : tailMarkers.contains marker = true) (second : StartsWord opcode left rest)

/-- A line defines a reference or not, and then names an operation; `rest` is what is left for its
    operands. -/
inductive Opens (text : List Char) : Option String → String → List Char → Prop where
  | defining {result opcode : String} {left rest : List Char} (assigned : StartsAssignment result text left)
      (operation : StartsOperation opcode left rest) : Opens text (some result) opcode rest
  | plain {opcode : String} {rest : List Char}
      (unassigned : ∀ result left, ¬ StartsAssignment result text left)
      (operation : StartsOperation opcode text rest) : Opens text none opcode rest

theorem isNameChar_of_isGap {c : Char} (inside : isGap c = true) : isNameChar c = false :=
  either_elim (motive := fun c => isNameChar c = false) inside rfl rfl

/-- Blanks end what a character behind them ends. -/
theorem clear_gaps {accept : Char → Bool} {gaps : List Char} (apart : ∀ c, isGap c = true → accept c = false)
    (isGaps : IsGaps gaps) (clear : Clear accept rest) : Clear accept (gaps ++ rest) := by
  cases gaps with
  | nil => exact clear
  | cons c gaps => exact clear_cons.2 (apart c (isGaps c List.mem_cons_self))

/-- At least one blank ends what has no blanks. -/
theorem clear_filled_gaps {accept : Char → Bool} {gaps : List Char}
    (apart : ∀ c, isGap c = true → accept c = false) (filled : gaps ≠ []) (isGaps : IsGaps gaps)
    (rest : List Char) : Clear accept (gaps ++ rest) := by
  obtain ⟨c, more, rfl⟩ := List.exists_cons_of_ne_nil filled
  exact clear_cons.2 (apart c (isGaps c List.mem_cons_self))

theorem assignment_eq_done_iff {result : String} :
    assignment text = .done result rest ↔ StartsAssignment result text rest := by
  simp only [assignment, reference, bind_eq_done_iff, sigilName_eq_done_iff, gap_eq_done_iff,
    char_eq_done_iff]
  constructor
  · rintro ⟨_, _, ⟨name, rfl, rfl, isName, _⟩, _, _, ⟨before, rfl, front, _⟩, _, _, rfl, _, _,
      ⟨after, rfl, back, clear⟩, finished⟩
    cases finished
    exact ⟨name, before, after, rfl, rfl, isName, front, back, clear⟩
  · rintro ⟨name, before, after, rfl, rfl, isName, front, back, clear⟩
    have ends : Clear isNameChar (before ++ '=' :: (after ++ rest)) :=
      clear_gaps (fun _ => isNameChar_of_isGap) front (clear_cons.2 rfl)
    have stops : Clear isGap ('=' :: (after ++ rest)) := clear_cons.2 rfl
    exact ⟨_, _, ⟨name, rfl, rfl, isName, ends⟩, (), _, ⟨before, rfl, front, stops⟩, (), _, rfl, (), rest,
      ⟨after, rfl, back, clear⟩, rfl⟩

theorem wordAndGap_eq_done_iff {found : String} :
    wordAndGap text = .done found rest ↔ StartsWord found text rest := by
  simp only [wordAndGap, bind_eq_done_iff, word_eq_done_iff, gap_eq_done_iff]
  constructor
  · rintro ⟨_, _, ⟨chars, rfl, rfl, isWord, ends⟩, _, _, ⟨gaps, rfl, isGaps, clear⟩, finished⟩
    cases finished
    exact ⟨chars, gaps, rfl, rfl, isWord, isGaps, ends, clear⟩
  · rintro ⟨chars, gaps, rfl, rfl, isWord, isGaps, ends, clear⟩
    exact ⟨_, _, ⟨chars, rfl, rfl, isWord, ends⟩, (), rest, ⟨gaps, rfl, isGaps, clear⟩, rfl⟩

/-- The operands of an operation are read as an instruction, and only attributes are left. -/
def ReadsAs (result : Option String) (opcode : String) (text : List Char)
    (instruction : Instruction) : Prop :=
  ∃ reader rest, operandReader? result opcode = some reader ∧ reader text = .done instruction rest ∧
    isTrailer rest = true

theorem readOperands_eq_ok_iff {named : List Char} {result : Option String} {opcode : String}
    {instruction : Instruction} :
    readOperands text named result opcode rest = .ok instruction ↔
      ReadsAs result opcode rest instruction := by
  unfold readOperands ReadsAs
  cases operandReader? result opcode with
  | none => simp
  | some reader =>
    cases read : reader rest with
    | done found after =>
      by_cases trailer : isTrailer after = true
      · simp [read, trailer]
      · simp [read, trailer]
    | miss left => simp [read]
    | stuck left => simp [read]

theorem readOperation_eq_ok_iff {named : List Char} {result : Option String} {instruction : Instruction} :
    readOperation text result named = .ok instruction ↔
      ∃ opcode rest, StartsOperation opcode named rest ∧ ReadsAs result opcode rest instruction := by
  unfold readOperation
  constructor
  · intro read
    cases first : wordAndGap named with
    | done word left =>
      have starts := wordAndGap_eq_done_iff.1 first
      simp only [first] at read
      by_cases known : tailMarkers.contains word = true
      · rw [if_pos known] at read
        cases second : wordAndGap left with
        | done opcode rest =>
          simp only [second] at read
          exact ⟨opcode, rest, .marked starts known (wordAndGap_eq_done_iff.1 second),
            readOperands_eq_ok_iff.1 read⟩
        | miss => simp [second] at read
        | stuck => simp [second] at read
      · rw [if_neg known] at read
        exact ⟨word, left, .plain starts (by simpa using known), readOperands_eq_ok_iff.1 read⟩
    | miss => simp [first] at read
    | stuck => simp [first] at read
  · rintro ⟨opcode, rest, starts, reads⟩
    cases starts with
    | plain named unmarked =>
      simp only [wordAndGap_eq_done_iff.2 named, unmarked]
      exact readOperands_eq_ok_iff.2 reads
    | marked first known second =>
      simp only [wordAndGap_eq_done_iff.2 first, known, wordAndGap_eq_done_iff.2 second]
      exact readOperands_eq_ok_iff.2 reads

theorem not_sticks_assignment : ¬ assignment.Sticks text := by
  simp [assignment, reference, sticks_bind_iff, not_sticks_sigilName, not_sticks_gap,
    not_sticks_char, not_sticks_pure]

/-- A line is read as an instruction exactly if the reader of its operation takes the instruction
    from what the line goes on with, and leaves nothing but attributes. -/
theorem read_eq_ok_iff {line : String} {instruction : Instruction} :
    read line = .ok instruction ↔
      ∃ result opcode rest, Opens (trim line.toList) result opcode rest ∧
        ReadsAs result opcode rest instruction := by
  unfold read readTrimmed
  rcases assignment.cases_outcome (trim line.toList) with ⟨result, left, assigned⟩ | ⟨left, missed⟩ | sticks
  · rw [assigned]
    constructor
    · intro ran
      obtain ⟨opcode, rest, operation, reads⟩ := readOperation_eq_ok_iff.1 ran
      exact ⟨some result, opcode, rest, .defining (assignment_eq_done_iff.1 assigned) operation, reads⟩
    · rintro ⟨_, opcode, rest, opens, reads⟩
      cases opens with
      | defining again operation =>
        cases assigned.symm.trans (assignment_eq_done_iff.2 again)
        exact readOperation_eq_ok_iff.2 ⟨opcode, rest, operation, reads⟩
      | plain unassigned _ => exact absurd (assignment_eq_done_iff.1 assigned) (unassigned result left)
  · rw [missed]
    have unassigned : ∀ result left, ¬ StartsAssignment result (trim line.toList) left := by
      intro result left assigned
      cases missed.symm.trans (assignment_eq_done_iff.2 assigned)
    constructor
    · intro ran
      obtain ⟨opcode, rest, operation, reads⟩ := readOperation_eq_ok_iff.1 ran
      exact ⟨none, opcode, rest, .plain unassigned operation, reads⟩
    · rintro ⟨_, opcode, rest, opens, reads⟩
      cases opens with
      | defining again _ => exact absurd again (unassigned _ _)
      | plain _ operation => exact readOperation_eq_ok_iff.2 ⟨opcode, rest, operation, reads⟩
  · exact absurd sticks not_sticks_assignment

/-! ### Types and flags -/

/-- The brackets that a type may stand in. -/
def typeBrackets : List (Char × Char) :=
  [('[', ']'), ('<', '>'), ('\x7b', '\x7d')]

/-- A type without its stars: a bracketed group or a word. -/
inductive IsBaseType : List Char → Prop where
  | group {opening closing : Char} {body : List Char} {left : Nat}
      (pair : typeBrackets.contains (opening, closing) = true)
      (opened : depthAfter? opening closing 1 body = some left) (last : left ≤ 1) :
      IsBaseType (opening :: (body ++ [closing]))
  | word {chars : List Char} (spelled : IsWord chars) : IsBaseType chars

/-- The spelling of a type. -/
def IsType (text : List Char) : Prop :=
  ∃ base stars, text = base ++ stars ∧ IsBaseType base ∧ ∀ c ∈ stars, (c == '*') = true

/-- Characters that go on with the spelling of a type. -/
def isTypeChar (c : Char) : Bool :=
  isWordChar c || c == '*'

theorem misses_bracketed {opening closing : Char} (other : text.head? ≠ some opening) :
    (bracketed opening closing).Misses text := by
  cases text with
  | nil => exact ⟨[], rfl⟩
  | cons c text =>
    have differ : c ≠ opening := by simpa using other
    exact ⟨c :: text, by rw [bracketed, if_neg differ]⟩

/-- A group or a word, read as the front of a type. -/
def baseType : Reader (List Char) :=
  bracketed '[' ']' <|> bracketed '<' '>' <|> bracketed '\x7b' '\x7d' <|> run1 isWordChar

theorem readsOnly_baseType : baseType.ReadsOnly (Verbatim IsBaseType) := by
  intro text base rest read
  have group {opening closing : Char} (pair : typeBrackets.contains (opening, closing) = true)
      (read : bracketed opening closing text = .done base rest) :
      ∃ taken, text = taken ++ rest ∧ Verbatim IsBaseType base taken := by
    obtain ⟨body, left, rfl, rfl, opened, last⟩ := exists_of_bracketed read
    exact ⟨_, by simp, rfl, .group pair opened last⟩
  rcases orElse_eq_done read with square | ⟨_, read⟩
  · exact group rfl square
  rcases orElse_eq_done read with angle | ⟨_, read⟩
  · exact group rfl angle
  rcases orElse_eq_done read with brace | ⟨_, read⟩
  · exact group rfl brace
  · obtain ⟨rfl, filled, run, _⟩ := run1_eq_done_iff.1 read
    exact ⟨base, rfl, rfl, .word ⟨filled, run⟩⟩

theorem readsAll_baseType : baseType.ReadsAll (Verbatim IsBaseType) (Clear isWordChar) := by
  rintro value _ ⟨rfl, isBase⟩ rest clear
  cases isBase with
  | @group opening closing body left pair opened last =>
    have spelled : opening :: (body ++ [closing]) ++ rest = opening :: (body ++ closing :: rest) := by simp
    rw [spelled]
    have cases : (opening, closing) = ('[', ']') ∨ (opening, closing) = ('<', '>') ∨
        (opening, closing) = ('\x7b', '\x7d') := by simpa [typeBrackets] using pair
    rcases cases with square | angle | brace
    · cases square
      exact orElse_of_done (bracketed_group (by decide) opened last rest)
    · cases angle
      refine (orElse_of_misses (misses_bracketed (by simp))).trans ?_
      exact orElse_of_done (bracketed_group (by decide) opened last rest)
    · cases brace
      refine (orElse_of_misses (misses_bracketed (by simp))).trans ?_
      refine (orElse_of_misses (misses_bracketed (by simp))).trans ?_
      exact orElse_of_done (bracketed_group (by decide) opened last rest)
  | word spelled =>
    have noBracket (opening closing : Char) (outside : isWordChar opening = false) :
        (bracketed opening closing).Misses (value ++ rest) := by
      obtain ⟨c, more, rfl⟩ := List.exists_cons_of_ne_nil spelled.1
      refine misses_bracketed fun same => ?_
      have inside := spelled.2 c List.mem_cons_self
      rw [Option.some.inj same, outside] at inside
      cases inside
    refine (orElse_of_misses (noBracket '[' ']' rfl)).trans ?_
    refine (orElse_of_misses (noBracket '<' '>' rfl)).trans ?_
    refine (orElse_of_misses (noBracket '\x7b' '\x7d' rfl)).trans ?_
    exact run1_eq_done_iff.2 ⟨rfl, spelled.1, spelled.2, clear⟩

theorem typeSpelling_eq :
    typeSpelling = do
      let base ← baseType
      let stars ← run (· == '*')
      return String.ofList (base ++ stars) :=
  rfl

theorem readsOnly_typeSpelling :
    typeSpelling.ReadsOnly fun type taken => type = String.ofList taken ∧ IsType taken := by
  intro text type rest read
  rw [typeSpelling_eq] at read
  obtain ⟨base, _, one, read⟩ := bind_eq_done_iff.1 read
  obtain ⟨stars, _, two, finished⟩ := bind_eq_done_iff.1 read
  cases finished
  obtain ⟨_, rfl, rfl, isBase⟩ := readsOnly_baseType one
  obtain ⟨rfl, isStars, _⟩ := run_eq_done_iff.1 two
  exact ⟨base ++ stars, by simp, rfl, base, stars, rfl, isBase, isStars⟩

theorem readsAll_typeSpelling :
    typeSpelling.ReadsAll (fun type taken => type = String.ofList taken ∧ IsType taken)
      (Clear isTypeChar) := by
  rintro _ _ ⟨rfl, base, stars, rfl, isBase, isStars⟩ rest clear
  have ends : Clear isWordChar (stars ++ rest) := by
    cases stars with
    | nil => exact clear.mono fun c inside => by simp [isTypeChar, inside]
    | cons c stars =>
      cases beq_iff_eq.1 (isStars c List.mem_cons_self)
      exact clear_cons.2 rfl
  have noStar : Clear (· == '*') rest := clear.mono fun c star => by simp [isTypeChar, star]
  rw [typeSpelling_eq, List.append_assoc]
  refine bind_eq_done_iff.2 ⟨base, stars ++ rest, readsAll_baseType ⟨rfl, isBase⟩ ends, ?_⟩
  exact bind_eq_done_iff.2 ⟨stars, rest, run_eq_done_iff.2 ⟨rfl, isStars, noStar⟩, rfl⟩

/-- A flag of a set with the blanks behind it. -/
def IsFlag (set : List String) (text : List Char) : Prop :=
  ∃ chars gaps, text = chars ++ gaps ∧ set.contains (String.ofList chars) = true ∧ IsWord chars ∧ gaps ≠ [] ∧
    IsGaps gaps

theorem isTypeChar_of_isGap {c : Char} (inside : isGap c = true) : isTypeChar c = false :=
  either_elim (motive := fun c => isTypeChar c = false) inside rfl rfl

theorem isWordChar_of_isGap {c : Char} (inside : isGap c = true) : isWordChar c = false :=
  either_elim (motive := fun c => isWordChar c = false) inside rfl rfl

theorem IsWord.clear_isGap {chars : List Char} (isWord : IsWord chars) (rest : List Char) :
    Clear isGap (chars ++ rest) := by
  obtain ⟨c, more, rfl⟩ := List.exists_cons_of_ne_nil isWord.1
  refine clear_cons.2 (Bool.eq_false_iff.2 fun blank => ?_)
  exact Bool.eq_false_iff.1 (isWordChar_of_isGap blank) (isWord.2 c List.mem_cons_self)

/-- A type does not start with a blank. -/
theorem IsType.clear_isGap {type : List Char} (isType : IsType type) (rest : List Char) :
    Clear isGap (type ++ rest) := by
  obtain ⟨base, stars, rfl, isBase, _⟩ := isType
  rw [List.append_assoc]
  cases isBase with
  | @group opening closing body left pair _ _ =>
    have table : typeBrackets.all (fun pair => !isGap pair.1) = true := by decide
    exact clear_cons.2 (by simpa using List.all_eq_true.1 table _ (List.contains_iff_mem.1 pair))
  | word isWord => exact isWord.clear_isGap _

section Flags

variable {set : List String}

theorem flag_eq_done_iff {nothing : Unit} :
    flag set text = .done nothing rest ↔
      ∃ taken, text = taken ++ rest ∧ IsFlag set taken ∧ Clear isGap rest := by
  simp only [flag, bind_eq_done_iff, filterMap_eq_done_iff, word_eq_done_iff, gap1_eq_done_iff,
    Option.ite_none_right_eq_some]
  constructor
  · rintro ⟨_, _, ⟨_, ⟨chars, rfl, rfl, isWord, _⟩, known, _⟩, gaps, rfl, filled, isGaps, clear⟩
    exact ⟨chars ++ gaps, by simp, ⟨chars, gaps, rfl, known, isWord, filled, isGaps⟩, clear⟩
  · rintro ⟨_, rfl, ⟨chars, gaps, rfl, known, isWord, filled, isGaps⟩, clear⟩
    have ends := clear_filled_gaps (fun _ => isWordChar_of_isGap) filled isGaps rest
    exact ⟨_, gaps ++ rest, ⟨_, ⟨chars, by simp, rfl, isWord, ends⟩, known, rfl⟩, gaps, rfl, filled,
      isGaps, clear⟩

theorem readsOnly_flag : (flag set).ReadsOnly fun _ => IsFlag set := by
  intro text nothing rest read
  obtain ⟨taken, spelled, isFlag, _⟩ := flag_eq_done_iff.1 read
  exact ⟨taken, spelled, isFlag⟩

theorem readsAll_flag : (flag set).ReadsAll (fun _ => IsFlag set) (Clear isGap) :=
  fun _ taken isFlag _ clear => flag_eq_done_iff.2 ⟨taken, rfl, isFlag, clear⟩

theorem IsFlag.ne_nil (isFlag : IsFlag set text) : text ≠ [] := by
  obtain ⟨chars, gaps, rfl, _, isWord, _⟩ := isFlag
  exact List.append_ne_nil_of_left_ne_nil isWord.1 gaps

theorem IsFlag.clear_isGap (isFlag : IsFlag set text) (rest : List Char) : Clear isGap (text ++ rest) := by
  obtain ⟨chars, gaps, rfl, _, isWord, _⟩ := isFlag
  rw [List.append_assoc]
  exact isWord.clear_isGap _

/-- Any number of flags of a set. -/
def IsFlags (set : List String) (text : List Char) : Prop :=
  ∃ each : List Unit, Series (fun _ => IsFlag set) each text

/-- Flags are read up to the first word that is none. -/
theorem flags_eq_done_iff {nothing : Unit} (clear : Clear isGap rest) :
    flags set text = .done nothing rest ↔
      ∃ taken, text = taken ++ rest ∧ IsFlags set taken ∧ (flag set).Misses rest := by
  rw [flags, bind_eq_done_iff]
  constructor
  · rintro ⟨each, left, read, finished⟩
    cases finished
    obtain ⟨taken, rfl, series⟩ := readsOnly_flag.many read
    have none : (flag set).Misses [] := (misses_filterMap (misses_word clear_nil)).bind
    exact ⟨taken, rfl, ⟨each, series⟩, misses_of_many readsOnly_flag IsFlag.ne_nil none read⟩
  · rintro ⟨taken, rfl, ⟨each, series⟩, ends⟩
    exact ⟨each, rest, readsAll_flag.many IsFlag.clear_isGap IsFlag.ne_nil series ⟨clear, ends⟩, rfl⟩

/-- The spelling of a type ends the flags before it unless it is one of them. -/
theorem misses_flag_iff {type gaps : List Char}
    (words : ∀ flag, set.contains flag = true → IsWord flag.toList) (isType : IsType type)
    (filled : gaps ≠ []) (isGaps : IsGaps gaps) (clear : Clear isGap rest) :
    (flag set).Misses (type ++ (gaps ++ rest)) ↔ set.contains (String.ofList type) = false := by
  constructor
  · rintro ⟨left, missed⟩
    rw [Bool.eq_false_iff]
    intro known
    have isWord : IsWord type := by simpa using words _ known
    have isFlag : IsFlag set (type ++ gaps) := ⟨type, gaps, rfl, known, isWord, filled, isGaps⟩
    have read : flag set (type ++ gaps ++ rest) = .done () rest := readsAll_flag isFlag clear
    rw [List.append_assoc] at read
    cases missed.symm.trans read
  · intro unknown
    obtain ⟨base, stars, rfl, isBase, isStars⟩ := isType
    rw [List.append_assoc]
    cases isBase with
    | @group opening closing body left pair _ _ =>
      have outside : isWordChar opening = false := by
        have table : typeBrackets.all (fun pair => !isWordChar pair.1) = true := by decide
        simpa using List.all_eq_true.1 table _ (List.contains_iff_mem.1 pair)
      exact (misses_filterMap (misses_word (clear_cons.2 outside))).bind
    | word isWord =>
      cases stars with
      | nil =>
        have read : word (base ++ ([] ++ (gaps ++ rest))) = .done (String.ofList base) (gaps ++ rest) :=
          word_eq_done_iff.2
            ⟨base, rfl, rfl, isWord, clear_filled_gaps (fun _ => isWordChar_of_isGap) filled isGaps rest⟩
        rw [List.append_nil] at unknown
        exact (misses_filterMap_of_none read (by rw [unknown]; rfl)).bind
      | cons star stars =>
        cases beq_iff_eq.1 (isStars star List.mem_cons_self)
        have read : word (base ++ ('*' :: stars ++ (gaps ++ rest))) =
            .done (String.ofList base) ('*' :: stars ++ (gaps ++ rest)) :=
          word_eq_done_iff.2 ⟨base, rfl, rfl, isWord, clear_cons.2 rfl⟩
        cases known : set.contains (String.ofList base) with
        | false => exact (misses_filterMap_of_none read (by rw [known]; rfl)).bind
        | true =>
          refine misses_bind_of_done (filterMap_eq_done_iff.2 ⟨_, read, if_pos known⟩) ?_
          exact misses_gap1 (clear_cons.2 rfl)

end Flags

end RegionFlow.Instruction
