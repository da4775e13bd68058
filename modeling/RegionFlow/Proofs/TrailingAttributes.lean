/-
Module: RegionFlow.Proofs.TrailingAttributes
Purpose: Attributes behind a line do not change what it is read as. Attributes start with a mark,
  and a blank stands before it. No operand goes on into them: the arguments of a call end with a
  parenthesis, a list of labels or operands has a fixed length, and the type that a conversion ends
  with stops at a blank. Only a merge has a list that a comma extends. A line that ends with
  attributes already has them followed by more attributes.
Main exports: Instruction.isTrailer_append, Instruction.keepsIf_operandReader,
  Instruction.Opens.append, Instruction.read_append_attributes
-/
import RegionFlow.Proofs.Appending

namespace RegionFlow.Text

/-! ### Trimming -/

theorem trimStart_of_blank {text : List Char} (blank : ∀ c ∈ text, isBlank c = true) : trimStart text = [] :=
  List.dropWhile_eq_nil_iff.2 blank

/-- A text is blank, or its first character that is not blank stands behind blanks. -/
theorem blank_or_visible (text : List Char) :
    (∀ c ∈ text, isBlank c = true) ∨
      ∃ front c tail, text = front ++ c :: tail ∧ (∀ c ∈ front, isBlank c = true) ∧ isBlank c = false := by
  have parts := List.takeWhile_append_dropWhile (p := isBlank) (l := text)
  cases left : text.dropWhile isBlank with
  | nil => exact .inl (List.dropWhile_eq_nil_iff.1 left)
  | cons c tail =>
    have stops := clear_dropWhile isBlank text
    rw [left] at parts stops
    exact .inr ⟨_, c, tail, parts.symm, fun c member => List.mem_takeWhile_imp member, clear_cons.1 stops⟩

/-- A blank and a visible text behind a line that is not blank stay behind it when the line is trimmed. -/
theorem trim_append_visible {line : List Char} {mark : Char} (filled : trim line ≠ [])
    (visible : isBlank mark = false) (tail : List Char) :
    ∃ blanks, trim (line ++ ' ' :: mark :: tail) = trim line ++ (blanks ++ mark :: trimEnd tail) ∧
      blanks ≠ [] ∧ ∀ c ∈ blanks, isBlank c = true := by
  obtain ⟨before, after, spelled, front, back⟩ := exists_trim line
  obtain ⟨c, inner, starts, solid⟩ := (solid_trim filled).starts
  have started : trimStart (line ++ [' ']) = trim line ++ (after ++ [' ']) := by
    have whole : line ++ [' '] = before ++ c :: (inner ++ (after ++ [' '])) := by
      rw [spelled, starts]
      simp
    rw [whole, trimStart_append_cons solid, trimStart_of_blank front, starts]
    rfl
  refine ⟨after ++ [' '], ?_, by simp, List.forall_mem_append.2 ⟨back, List.forall_mem_singleton.2 rfl⟩⟩
  have split : line ++ ' ' :: mark :: tail = (line ++ [' ']) ++ mark :: tail := by simp
  rw [split, trim_append_cons visible, started]
  simp

end RegionFlow.Text

namespace RegionFlow.Instruction

open Text Text.Reader

variable {more text rest : List Char} {End : List Char → Prop}

/-! ### Attributes -/

/-- Characters that attributes start with. -/
def isTrailerMark (c : Char) : Bool :=
  c == ',' || c == '#' || c == '!'

theorem isTrailerMark_elim {motive : Char → Prop} {c : Char} (mark : isTrailerMark c = true)
    (comma : motive ',') (hash : motive '#') (bang : motive '!') : motive c := by
  rcases Bool.or_eq_true_iff.1 mark with commaOrHash | isBang
  · exact either_elim commaOrHash comma hash
  · rwa [beq_iff_eq.1 isBang]

theorem isBlank_of_isTrailerMark {c : Char} (mark : isTrailerMark c = true) : isBlank c = false :=
  isTrailerMark_elim (motive := fun c => isBlank c = false) mark rfl rfl rfl

theorem isTrailer_of_blank (blank : ∀ c ∈ text, isBlank c = true) : isTrailer text = true := by
  rw [isTrailer, trim, trimStart_of_blank blank]
  rfl

theorem isTrailer_append_cons {front : List Char} {c : Char} (blank : ∀ c ∈ front, isBlank c = true)
    (visible : isBlank c = false) (tail : List Char) : isTrailer (front ++ c :: tail) = isTrailerMark c := by
  rw [isTrailer, trim_append_cons visible, trimStart_of_blank blank]
  rfl

/-- Attributes may follow attributes. -/
theorem isTrailer_append (first : isTrailer text = true) (second : isTrailer more = true) :
    isTrailer (text ++ more) = true := by
  rcases blank_or_visible text with blank | ⟨front, c, tail, rfl, blank, visible⟩
  · rcases blank_or_visible more with others | ⟨front, c, tail, rfl, others, visible⟩
    · exact isTrailer_of_blank (List.forall_mem_append.2 ⟨blank, others⟩)
    · rw [isTrailer_append_cons others visible] at second
      rw [← List.append_assoc,
        isTrailer_append_cons (List.forall_mem_append.2 ⟨blank, others⟩) visible, second]
  · rw [isTrailer_append_cons blank visible] at first
    rw [List.append_assoc, List.cons_append, isTrailer_append_cons blank visible, first]

/-- Attributes end the spelling of a type. -/
theorem clear_isTypeChar_of_isTrailer (trailer : isTrailer text = true) : Clear isTypeChar text := by
  cases text with
  | nil => exact clear_nil
  | cons c tail =>
    rw [clear_cons, Bool.eq_false_iff]
    intro inside
    have visible := isBlank_of_isTypeChar inside
    have nothing : ∀ c ∈ ([] : List Char), isBlank c = true := by simp
    have mark : isTrailerMark c = true := (isTrailer_append_cons nothing visible tail).symm.trans trailer
    exact isTrailerMark_elim (motive := fun c => isTypeChar c ≠ true) mark (by decide) (by decide)
      (by decide) inside

/-! ### Operands -/

theorem keepsIf_operandPair (blank : StartsBlank more) : operandPair.KeepsIf more End :=
  (keepsIf_typedOperand blank).andThen fun _ => keepsIf_comma.bind_filled (fun _ => ⟨[], rfl⟩) fun _ =>
    (unmoved_operand blank).keepsIf.andThen fun _ => keepsIf_pure _

theorem endsFlags_operandPair {set : List String} (words : areWords set = true) :
    EndsFlags set operandPair :=
  (endsFlags_typedOperand words).bind _

theorem keepsIf_readLoad (blank : StartsBlank more) (result : String) :
    (readLoad result).KeepsIf more End := by
  refine keepsIf_flags_bind blank (endsFlags_type (by decide) fun _ => ⟨[], rfl⟩) ?_
  refine keepsIf_type_bind blank (fun _ _ _ => clear_isTypeChar_of_comma) keepsIf_comma
    (fun _ => ⟨[], rfl⟩) ?_
  intro type
  exact (keepsIf_typedOperand blank).andThen fun _ => keepsIf_pure _

theorem keepsIf_readStore (blank : StartsBlank more) : readStore.KeepsIf more End := by
  refine keepsIf_flags_bind blank ((endsFlags_typedOperand (by decide)).bind _) ?_
  exact (keepsIf_typedOperand blank).andThen fun _ => keepsIf_comma.bind_filled (fun _ => ⟨[], rfl⟩) fun _ =>
    (keepsIf_typedOperand blank).andThen fun _ => keepsIf_pure _

theorem keepsIf_readArith (blank : StartsBlank more) (result : String) (op : Arith) :
    (readArith result op).KeepsIf more End := by
  refine keepsIf_flags_bind blank ((endsFlags_operandPair (by decide)).bind _) ?_
  exact (keepsIf_operandPair blank).andThen fun _ => keepsIf_pure _

theorem keepsIf_readUnary (blank : StartsBlank more) (result : String) (opcode : Opcode) :
    (readUnary result opcode).KeepsIf more End := by
  refine keepsIf_flags_bind blank ((endsFlags_typedOperand (by decide)).bind _) ?_
  exact (keepsIf_typedOperand blank).andThen fun _ => keepsIf_pure _

theorem keepsIf_readSelect (blank : StartsBlank more) (result : String) :
    (readSelect result).KeepsIf more End := by
  have keeps {End : List Char → Prop} : typedOperand.KeepsIf more End := keepsIf_typedOperand blank
  refine keepsIf_flags_bind blank ((endsFlags_typedOperand (by decide)).bind _) ?_
  exact keeps.andThen fun _ => keepsIf_comma.bind_filled (fun _ => ⟨[], rfl⟩) fun _ =>
    keeps.andThen fun _ => keepsIf_comma.bind_filled (fun _ => ⟨[], rfl⟩) fun _ =>
      keeps.andThen fun _ => keepsIf_pure _

/-- The type that a conversion ends with stops where attributes begin. -/
theorem keepsIf_readCast (blank : StartsBlank more) (result : String) (cast : Cast) :
    (readCast result cast).KeepsIf more (isTrailer · = true) := by
  have toWord : IsWord "to".toList := ⟨by decide, List.all_eq_true.1 rfl⟩
  refine keepsIf_flags_bind blank ((endsFlags_typedOperand (by decide)).bind _) ?_
  refine (keepsIf_typedOperand blank).andThen fun _ =>
    keepsIf_gap1.bind_filled (fun _ => ⟨[], rfl⟩) fun _ => ?_
  refine (unmoved_keyword blank toWord).keepsIf.andThen fun _ => ?_
  refine keepsIf_gap1.bind_filled (fun _ => ⟨[], rfl⟩) fun _ => ?_
  refine (keepsIf_typeSpelling blank).bind ?_ fun _ => keepsIf_pure _
  intro type text result rest trailer read
  cases read
  exact clear_isTypeChar_of_isTrailer trailer

/-! ### Comparisons -/

/-- A word with blanks behind it ends flags: one with nothing behind has no blanks. -/
theorem endsFlags_spacedWord {π : Type} {set : List String} (words : areWords set = true)
    (accept : String → Option π) : EndsFlags set (spacedWord.filterMap accept) where
  nothing := ⟨[], rfl⟩
  solid := by
    intro text value rest read
    obtain ⟨_, spaced, _⟩ := filterMap_eq_done_iff.1 read
    obtain ⟨_, left, readWord, _⟩ := bind_eq_done_iff.1 spaced
    obtain ⟨chars, rfl, _, isWord, _⟩ := word_eq_done_iff.1 readWord
    exact isWord.clear_isGap left
  bare := by
    intro flag member
    have read := word_done (isWord_of_areWords words member) (clear_nil : Clear isWordChar [])
    rw [List.append_nil] at read
    exact misses_filterMap (misses_bind_of_done read ⟨[], rfl⟩)

theorem keepsIf_spacedWord (blank : StartsBlank more) : spacedWord.KeepsIf more (· ≠ []) := by
  intro text found rest filled read
  obtain ⟨_, left, readWord, read⟩ := bind_eq_done_iff.1 read
  obtain ⟨_, _, readGaps, finished⟩ := bind_eq_done_iff.1 read
  cases finished
  exact bind_done ((unmoved_word blank).done readWord) (bind_done (keepsIf_gap1 filled readGaps) rfl)

theorem keepsIf_readComparison {π : Type} {set : List String} (blank : StartsBlank more)
    (words : areWords set = true) (ofMnemonic? : String → Option π) (opcode : π → Opcode) (result : String) :
    (readComparison set ofMnemonic? opcode result).KeepsIf more End := by
  refine keepsIf_flags_bind blank ((endsFlags_spacedWord words ofMnemonic?).bind _) ?_
  refine ((keepsIf_spacedWord blank).filterMap ofMnemonic?).bind_filled (fun _ => ⟨[], rfl⟩) fun _ => ?_
  exact (keepsIf_operandPair blank).andThen fun _ => keepsIf_pure _

/-! ### Branches -/

/-- A word with nothing but blanks behind it is no operand behind its type. -/
theorem misses_typedOperand_of_word {chars gaps : List Char} (isWord : IsWord chars) (blanks : IsGaps gaps) :
    typedOperand.Misses (chars ++ gaps) := by
  have isType : IsType chars := ⟨chars, [], by simp, .word isWord, by simp⟩
  have ends : Clear isTypeChar (gaps ++ []) := clear_gaps (fun _ => isTypeChar_of_isGap) blanks clear_nil
  rw [List.append_nil] at ends
  refine misses_bind_of_done (readsAll_typeSpelling ⟨rfl, isType⟩ ends) ?_
  by_cases filled : gaps = []
  · rw [filled]
    exact ⟨[], rfl⟩
  · have passed := gap1_done filled blanks (clear_nil : Clear isGap [])
    rw [List.append_nil] at passed
    exact misses_bind_of_done passed ⟨[], rfl⟩

/-- What is read as an operand and not as a label is not read as a label with more text behind. -/
theorem misses_blockLabel_append {typed : TypedOperand} (blank : StartsBlank more)
    (misses : blockLabel.Misses text) (read : typedOperand text = .done typed rest) :
    blockLabel.Misses (text ++ more) := by
  -- if blanks were all that follows the word, the appended text could go on with the name of a label
  have operandIn {gaps : List Char} (blanks : IsGaps gaps) : text ≠ "label".toList ++ gaps := by
    rintro rfl
    obtain ⟨left, missed⟩ := misses_typedOperand_of_word isWord_label blanks
    cases missed.symm.trans read
  have unmoved := unmoved_keyword blank isWord_label
  rcases misses_bind_iff.1 misses with unnamed | ⟨_, left, named, behind⟩
  · exact (unmoved.misses unnamed).bind
  obtain ⟨rfl, _⟩ := keyword_eq_done_iff.1 named
  refine misses_bind_of_done (unmoved.done named) ?_
  rcases misses_bind_iff.1 behind with noGap | ⟨_, target, passed, noName⟩
  · have filled : left ≠ [] := by
      rintro rfl
      exact operandIn (by simp [IsGaps] : IsGaps []) rfl
    exact (misses_gap1 ((clear_of_misses_gap1 noGap).append filled more)).bind
  · have filled : target ≠ [] := by
      rintro rfl
      obtain ⟨gaps, rfl, _, blanks, _⟩ := gap1_eq_done_iff.1 passed
      exact operandIn blanks (by rw [List.append_nil])
    exact misses_bind_of_done (keepsIf_gap1 filled passed) ((unmoved_sigilName blank rfl).misses noName)

theorem keepsIf_readBranch (blank : StartsBlank more) : readBranch.KeepsIf more End := by
  have label {End : List Char → Prop} : blockLabel.KeepsIf more End := keepsIf_blockLabel blank
  intro text instruction rest ends read
  rcases orElse_eq_done read with jump | ⟨misses, fork⟩
  · apply orElse_of_done
    exact (label.andThen fun _ => keepsIf_pure _) ends jump
  · have noLabel : blockLabel.Misses text := by
      rcases misses_bind_iff.1 misses with noLabel | ⟨_, _, _, _, finished⟩
      · exact noLabel
      · cases finished
    obtain ⟨_, _, condition, _⟩ := bind_eq_done_iff.1 fork
    refine (orElse_of_misses (misses_blockLabel_append blank noLabel condition).bind).trans ?_
    refine ((keepsIf_typedOperand blank).andThen fun _ => ?_) ends fork
    refine keepsIf_comma.bind_filled (fun _ => ⟨[], rfl⟩) fun _ => label.andThen fun _ => ?_
    exact keepsIf_comma.bind_filled (fun _ => ⟨[], rfl⟩) fun _ => label.andThen fun _ => keepsIf_pure _

/-! ### Calls -/

/-- A text closes a list of arguments. -/
def Closes (text : List Char) : Prop :=
  ∃ gaps after, text = gaps ++ ')' :: after ∧ IsGaps gaps

theorem Closes.append (closes : Closes text) (more : List Char) : Closes (text ++ more) := by
  obtain ⟨gaps, after, rfl, blanks⟩ := closes
  exact ⟨gaps, after ++ more, by simp, blanks⟩

/-- No further argument is read where a list of arguments is closed. -/
theorem Closes.misses_nextArgument (closes : Closes text) : nextArgument.Misses text := by
  obtain ⟨gaps, after, rfl, blanks⟩ := closes
  have skipped : gap (gaps ++ ')' :: after) = .done () (')' :: after) := gap_done blanks (clear_cons.2 rfl)
  have noComma : (char ',').Misses (')' :: after) := misses_char (by simp)
  exact Misses.bind (misses_bind_of_done skipped noComma.bind)

/-- No first argument is read where a list of arguments is closed. -/
theorem Closes.misses_typedOperand (closes : Closes text) : typedOperand.Misses text := by
  obtain ⟨gaps, after, rfl, blanks⟩ := closes
  cases gaps with
  | nil => exact misses_typedOperand_of_head rfl
  | cons c gaps =>
    have outside : isTypeStart c = false :=
      either_elim (motive := fun c => isTypeStart c = false) (blanks c List.mem_cons_self) rfl rfl
    exact misses_typedOperand_of_head outside

theorem keepsIf_arguments (blank : StartsBlank more) : (sepBy comma typedOperand).KeepsIf more Closes := by
  have keeps : nextArgument.KeepsIf more fun _ => True :=
    keepsIf_comma.bind_filled (fun _ => ⟨[], rfl⟩) fun _ => keepsIf_typedOperand blank
  have listed : (sepBy1 comma typedOperand).KeepsIf more Closes := by
    refine (keepsIf_typedOperand blank).andThen fun _ => keeps.many.bind ?_ fun _ => keepsIf_pure _
    intro others text arguments rest closes read
    cases read
    exact (closes.append more).misses_nextArgument
  intro text arguments rest closes read
  rcases orElse_eq_done read with some | ⟨_, none⟩
  · exact orElse_of_done (listed closes some)
  · cases none
    exact orElse_of_misses (closes.append more).misses_typedOperand.bind

theorem keepsIf_readCall (blank : StartsBlank more) (result : Option String) :
    (readCall result).KeepsIf more End := by
  have opened : (char '(').Unmoved more := unmoved_visible blank rfl
  have closed : (char ')').Unmoved more := unmoved_visible blank rfl
  have callee : (globalSymbol <|> reference).Unmoved more :=
    (unmoved_sigilName blank rfl).orElse (unmoved_sigilName blank rfl)
  refine keepsIf_flags_bind blank (endsFlags_type (by decide) fun _ => ⟨[], rfl⟩) ?_
  refine keepsIf_type_bind blank (fun _ _ _ => clear_isTypeChar_of_gap1) keepsIf_gap1 (fun _ => ⟨[], rfl⟩) ?_
  intro type
  refine callee.keepsIf.andThen fun _ => opened.keepsIf.andThen fun _ =>
    keepsIf_gap.bind_filled (fun _ => ⟨[], rfl⟩) ?_
  intro _
  refine (keepsIf_arguments blank).bind ?_ fun _ => keepsIf_gap.bind_filled (fun _ => ⟨[], rfl⟩) fun _ =>
    closed.keepsIf.andThen fun _ => keepsIf_pure _
  intro arguments text instruction rest _ read
  obtain ⟨_, _, passed, read⟩ := bind_eq_done_iff.1 read
  obtain ⟨_, _, close, _⟩ := bind_eq_done_iff.1 read
  obtain ⟨gaps, rfl, blanks, _⟩ := gap_eq_done_iff.1 passed
  rw [char_eq_done_iff.1 close]
  exact ⟨gaps, _, rfl, blanks⟩

/-! ### Operations -/

/-- The operands of every operation but that of merges are read as before, unless the operation does
    not look at what follows it. -/
theorem keepsIf_operandReader {result : Option String} {opcode : String}
    {reader : Reader Instruction} (blank : StartsBlank more)
    (selected : operandReader? result opcode = some reader) (other : opcode ≠ "phi") :
    (∃ instruction, reader = readNothing instruction) ∨
      reader.Misses [] ∧ reader.KeepsIf more (isTrailer · = true) := by
  unfold operandReader? at selected
  split at selected
  · rename_i result
    split at selected
    · exact absurd rfl other
    · cases selected
      exact .inr ⟨⟨[], rfl⟩, keepsIf_readLoad blank result⟩
    -- the five producers of addresses
    iterate 5
      · cases selected
        exact .inl ⟨_, rfl⟩
    · cases selected
      exact .inr ⟨⟨[], rfl⟩, keepsIf_readComparison blank (by decide) IntPredicate.ofMnemonic? .icmp result⟩
    · cases selected
      exact .inr ⟨⟨[], rfl⟩,
        keepsIf_readComparison blank (by decide) FloatPredicate.ofMnemonic? .fcmp result⟩
    · cases selected
      exact .inr ⟨⟨[], rfl⟩, keepsIf_readSelect blank result⟩
    iterate 2
      · cases selected
        exact .inr ⟨⟨[], rfl⟩, keepsIf_readUnary blank result _⟩
    · cases selected
      exact .inr ⟨⟨[], rfl⟩, keepsIf_readCall blank (some result)⟩
    · split at selected
      · rename_i cast _
        cases selected
        exact .inr ⟨⟨[], rfl⟩, keepsIf_readCast blank result cast⟩
      · obtain ⟨op, _, rfl⟩ := Option.map_eq_some_iff.1 selected
        exact .inr ⟨⟨[], rfl⟩, keepsIf_readArith blank result op⟩
  · split at selected
    · cases selected
      exact .inr ⟨⟨[], rfl⟩, keepsIf_readBranch blank⟩
    · cases selected
      exact .inr ⟨⟨[], rfl⟩, keepsIf_readStore blank⟩
    · cases selected
      exact .inr ⟨⟨[], rfl⟩, keepsIf_readCall blank none⟩
    -- the five operations that are an effect and nothing else
    iterate 5
      · cases selected
        exact .inl ⟨_, rfl⟩
    · cases selected

/-- An instruction is read again from its operands with attributes behind them. An operation that
    does not look at them may stand at the end of the line, so the blanks before the attributes may
    already be passed. -/
theorem ReadsAs.append {result : Option String} {opcode : String} {left : List Char}
    {instruction : Instruction} (reads : ReadsAs result opcode rest instruction)
    (blank : StartsBlank more) (trailer : isTrailer more = true) (other : opcode ≠ "phi")
    (goes : rest ≠ [] → left = rest ++ more) : ReadsAs result opcode left instruction := by
  obtain ⟨reader, after, selected, read, attributes⟩ := reads
  rcases keepsIf_operandReader blank selected other with ⟨found, rfl⟩ | ⟨nothing, keeps⟩
  · cases read
    exact ⟨_, [], selected, rfl, rfl⟩
  · rw [goes (ne_nil_of_misses nothing read)]
    exact ⟨reader, after ++ more, selected, keeps attributes read, isTrailer_append attributes trailer⟩

/-! ### The front of a line -/

theorem StartsAssignment.append {result : String} (starts : StartsAssignment result text rest)
    (filled : rest ≠ []) (more : List Char) :
    StartsAssignment result (text ++ more) (rest ++ more) := by
  obtain ⟨name, before, after, rfl, rfl, isName, front, back, clear⟩ := starts
  exact ⟨name, before, after, by simp, rfl, isName, front, back, clear.append filled more⟩

/-- A word is read again with more text behind. What is left of the line is extended, unless nothing
    was left. -/
theorem StartsWord.append {found : String} (starts : StartsWord found text rest) (blank : StartsBlank more) :
    ∃ left, StartsWord found (text ++ more) left ∧ (rest ≠ [] → left = rest ++ more) := by
  obtain ⟨_, behind, readWord, read⟩ := bind_eq_done_iff.1 (wordAndGap_eq_done_iff.2 starts)
  obtain ⟨_, _, passed, finished⟩ := bind_eq_done_iff.1 read
  cases finished
  have again := (unmoved_word blank).done readWord
  have anyway : gap (behind ++ more) = .done () ((behind ++ more).dropWhile isGap) := rfl
  refine ⟨_, wordAndGap_eq_done_iff.1 (bind_done again (bind_done anyway rfl)), fun filled => ?_⟩
  exact (Outcome.done.inj (anyway.symm.trans (keepsIf_gap filled passed))).2

theorem StartsWord.exists_isWord {found : String} (starts : StartsWord found text rest) :
    ∃ chars behind, text = chars ++ behind ∧ IsWord chars := by
  obtain ⟨chars, gaps, spelled, _, isWord, _⟩ := starts
  exact ⟨chars, gaps ++ rest, spelled, isWord⟩

theorem StartsOperation.exists_isWord {opcode : String} (starts : StartsOperation opcode text rest) :
    ∃ chars behind, text = chars ++ behind ∧ IsWord chars := by
  cases starts with
  | plain named _ => exact named.exists_isWord
  | marked first _ _ => exact first.exists_isWord

theorem StartsOperation.append {opcode : String} (starts : StartsOperation opcode text rest)
    (blank : StartsBlank more) :
    ∃ left, StartsOperation opcode (text ++ more) left ∧ (rest ≠ [] → left = rest ++ more) := by
  cases starts with
  | plain named unmarked =>
    obtain ⟨left, again, goes⟩ := named.append blank
    exact ⟨left, .plain again unmarked, goes⟩
  | @marked marker middle first known second =>
    obtain ⟨between, again, passed⟩ := first.append blank
    obtain ⟨left, named, goes⟩ := second.append blank
    have filled : middle ≠ [] := by
      obtain ⟨chars, behind, rfl, isWord⟩ := second.exists_isWord
      exact List.append_ne_nil_of_left_ne_nil isWord.1 behind
    rw [passed filled] at again
    exact ⟨left, .marked again known named, goes⟩

theorem Opens.append {result : Option String} {opcode : String} (opens : Opens text result opcode rest)
    (blank : StartsBlank more) :
    ∃ left, Opens (text ++ more) result opcode left ∧ (rest ≠ [] → left = rest ++ more) := by
  cases opens with
  | defining assigned operation =>
    obtain ⟨left, again, goes⟩ := operation.append blank
    obtain ⟨chars, behind, rfl, isWord⟩ := operation.exists_isWord
    have filled := List.append_ne_nil_of_left_ne_nil isWord.1 behind
    exact ⟨left, .defining (assigned.append filled more) again, goes⟩
  | plain _ operation =>
    obtain ⟨left, again, goes⟩ := operation.append blank
    obtain ⟨chars, behind, rfl, isWord⟩ := operation.exists_isWord
    rw [List.append_assoc] at again ⊢
    exact ⟨left, .plain (not_startsAssignment_of_word isWord) again, goes⟩

theorem Opens.ne_nil {result : Option String} {opcode : String} (opens : Opens text result opcode rest) :
    text ≠ [] := by
  cases opens with
  | defining assigned _ =>
    obtain ⟨_, before, after, rfl, _, ⟨name, rfl, _⟩, _⟩ := assigned
    exact List.cons_ne_nil _ _
  | plain _ operation =>
    obtain ⟨chars, behind, rfl, isWord⟩ := operation.exists_isWord
    exact List.append_ne_nil_of_left_ne_nil isWord.1 behind

theorem StartsWord.unique {found other : String} {left : List Char} (one : StartsWord found text rest)
    (two : StartsWord other text left) : found = other ∧ rest = left :=
  Outcome.done.inj ((wordAndGap_eq_done_iff.2 one).symm.trans (wordAndGap_eq_done_iff.2 two))

theorem StartsOperation.unique {opcode other : String} {left : List Char}
    (one : StartsOperation opcode text rest) (two : StartsOperation other text left) :
    opcode = other := by
  cases one with
  | plain named unmarked => cases two with
    | plain again _ => exact (named.unique again).1
    | marked first known _ =>
      rw [(named.unique first).1, known] at unmarked
      cases unmarked
  | marked first known second => cases two with
    | plain named unmarked =>
      rw [← (first.unique named).1, known] at unmarked
      cases unmarked
    | marked again _ named =>
      rw [(first.unique again).2] at second
      exact (second.unique named).1

/-- A line opens with one operation only. -/
theorem Opens.unique {result found : Option String} {opcode other : String} {left : List Char}
    (one : Opens text result opcode rest) (two : Opens text found other left) : opcode = other := by
  cases one with
  | defining assigned operation => cases two with
    | defining again named =>
      cases (assignment_eq_done_iff.2 assigned).symm.trans (assignment_eq_done_iff.2 again)
      exact operation.unique named
    | plain unassigned _ => exact absurd assigned (unassigned _ _)
  | plain unassigned operation => cases two with
    | defining assigned _ => exact absurd assigned (unassigned _ _)
    | plain _ named => exact operation.unique named

/-! ### Lines -/

/-- A text starts as attributes do. -/
def StartsTrailer (text : String) : Prop :=
  ∃ mark tail, text.toList = mark :: tail ∧ isTrailerMark mark = true

/-- Attributes behind a line do not change the instruction that is read from it, whether or not the
    line ends with attributes already. Only in a merge could a comma go on with the operands. -/
theorem read_append_attributes {line trailer opcode : String} {result : Option String}
    {rest : List Char} {instruction : Instruction} (accepted : read line = .ok instruction)
    (opens : Opens (trim line.toList) result opcode rest) (other : opcode ≠ "phi")
    (marked : StartsTrailer trailer) : read (line ++ " " ++ trailer) = .ok instruction := by
  obtain ⟨found, named, operands, opened, reads⟩ := read_eq_ok_iff.1 accepted
  obtain rfl : opcode = named := opens.unique opened
  obtain ⟨mark, tail, spelled, isMark⟩ := marked
  have visible := isBlank_of_isTrailerMark isMark
  obtain ⟨blanks, trimmed, filled, blank⟩ := trim_append_visible opens.ne_nil visible tail
  have starts : StartsBlank (blanks ++ mark :: trimEnd tail) := by
    obtain ⟨c, others, rfl⟩ := List.exists_cons_of_ne_nil filled
    exact ⟨c, _, rfl, blank c List.mem_cons_self⟩
  have attributes : isTrailer (blanks ++ mark :: trimEnd tail) = true :=
    (isTrailer_append_cons blank visible _).trans isMark
  have whole : (line ++ " " ++ trailer).toList = line.toList ++ ' ' :: mark :: tail := by
    simp [String.toList_append, spelled]
  obtain ⟨left, again, goes⟩ := opened.append starts
  rw [read_eq_ok_iff, whole, trimmed]
  exact ⟨found, opcode, left, again, reads.append starts attributes other goes⟩

/-- A call behind a marker, with attributes and a line break behind it. -/
def attributedCall : String :=
  " %r = tail call fast double @pow(double noundef %x, double 2.0e1) #3\n"

/-- More attributes behind the call do not change it, though they start as another argument would. -/
theorem attributedCall_read :
    Opens (trim attributedCall.toList) (some "%r") "call"
        "fast double @pow(double noundef %x, double 2.0e1) #3".toList ∧
      StartsTrailer ", double %y)" ∧
      read (attributedCall ++ " " ++ ", double %y)") =
        .ok (.compute "%r" "double" (.call "pow")
          [⟨"double", .ref "%x"⟩, ⟨"double", .literal "2.0e1"⟩]) := by
  have accepted : read attributedCall =
      .ok (.compute "%r" "double" (.call "pow") [⟨"double", .ref "%x"⟩, ⟨"double", .literal "2.0e1"⟩]) := by
    decide +kernel
  have assigned : assignment (trim attributedCall.toList) =
      .done "%r" "tail call fast double @pow(double noundef %x, double 2.0e1) #3".toList := by
    decide +kernel
  have marker : wordAndGap "tail call fast double @pow(double noundef %x, double 2.0e1) #3".toList =
      .done "tail" "call fast double @pow(double noundef %x, double 2.0e1) #3".toList := by
    decide +kernel
  have operation : wordAndGap "call fast double @pow(double noundef %x, double 2.0e1) #3".toList =
      .done "call" "fast double @pow(double noundef %x, double 2.0e1) #3".toList := by
    decide +kernel
  have opens := Opens.defining (assignment_eq_done_iff.1 assigned)
    (.marked (wordAndGap_eq_done_iff.1 marker) rfl (wordAndGap_eq_done_iff.1 operation))
  have marked : StartsTrailer ", double %y)" := ⟨',', " double %y)".toList, rfl, rfl⟩
  exact ⟨opens, marked, read_append_attributes accepted opens (by decide) marked⟩

/-- The list of a merge goes on behind a comma. -/
example : read "%r = phi double [ %a, %x ]" = .ok (.phi "%r" "double" [⟨.ref "%a", "%x"⟩]) ∧
    read ("%r = phi double [ %a, %x ]" ++ " " ++ ", [ %b, %y ]") =
      .ok (.phi "%r" "double" [⟨.ref "%a", "%x"⟩, ⟨.ref "%b", "%y"⟩]) := by
  decide +kernel

end RegionFlow.Instruction
