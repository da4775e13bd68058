/-
Module: RegionFlow.Proofs.TypedOperands
Purpose: The words that the operands of instructions share. A scalar type is one word, and none of
  the words that may stand before it; so flags end where the type begins, and attributes end where
  an operand begins. An operand behind its type, the target of a branch and the arguments of a call
  are read as they are written. None of them ends with a blank.
Main exports: Instruction.IsScalar, Instruction.flags_of_word, TypedOperand.Written,
  Instruction.readsAll_typedOperand, Instruction.IsTarget, Instruction.readsAll_blockLabel,
  Instruction.ArgumentsWritten, Instruction.arguments_read, Text.EndsSolid
-/
import RegionFlow.Proofs.MergeLines

namespace RegionFlow

open Text Text.Reader

namespace Text

/-- A text with no blanks at all is solid. -/
theorem solid_of_unbroken {text : List Char} (filled : text ≠ [])
    (unbroken : ∀ c ∈ text, isBlank c = false) : Solid text where
  starts := by
    obtain ⟨c, rest, rfl⟩ := List.exists_cons_of_ne_nil filled
    exact ⟨c, rest, rfl, unbroken c List.mem_cons_self⟩
  ends := by
    refine ⟨text.dropLast, text.getLast filled, (List.dropLast_concat_getLast filled).symm, ?_⟩
    exact unbroken _ (List.getLast_mem filled)

/-- A text that does not end with a blank. -/
def EndsSolid (text : List Char) : Prop :=
  ∃ front last, text = front ++ last ∧ Solid last

theorem Solid.endsSolid {text : List Char} (solid : Solid text) : EndsSolid text :=
  ⟨[], text, rfl, solid⟩

theorem EndsSolid.append {text : List Char} (ends : EndsSolid text) (front : List Char) :
    EndsSolid (front ++ text) := by
  obtain ⟨more, last, rfl, solid⟩ := ends
  exact ⟨front ++ more, last, by simp, solid⟩

theorem Solid.append_ends {left right : List Char} (front : Solid left) (ends : EndsSolid right) :
    Solid (left ++ right) := by
  obtain ⟨middle, last, rfl, back⟩ := ends
  exact front.append middle back

end Text

namespace Instruction

variable {text rest type : List Char}

/-! ### Scalar types -/

/-- The spelling of a scalar type, without blanks. -/
structure IsScalar (type : List Char) : Prop where
  accepted : (ScalarType.ofSpelling? (String.ofList type)).isSome = true
  unbroken : ∀ c ∈ type, isBlank c = false

theorem IsScalar.solid (scalar : IsScalar type) : Solid type := by
  apply solid_of_unbroken _ scalar.unbroken
  rintro rfl
  exact absurd scalar.accepted (by decide)

theorem isDigits_of_digits? {value : Nat} (read : digits? text = some value) : IsDigits text := by
  obtain ⟨digits, _⟩ := Option.ite_none_left_eq_some.1 read
  simp only [Bool.or_eq_true, Bool.not_eq_true', not_or, Bool.not_eq_true, Bool.not_eq_false,
    List.isEmpty_eq_false_iff] at digits
  exact ⟨digits.1, List.all_eq_true.1 digits.2⟩

/-- A scalar type is one word. -/
theorem IsScalar.isWord (scalar : IsScalar type) : IsWord type := by
  have accepted := scalar.accepted
  have named : ∀ name : String, String.ofList type = name →
      name.toList ≠ [] ∧ name.toList.all isWordChar = true → IsWord type := by
    rintro _ rfl ⟨filled, inside⟩
    rw [String.toList_ofList] at filled inside
    exact ⟨filled, List.all_eq_true.1 inside⟩
  rw [ScalarType.ofSpelling?, String.toList_ofList, scalar.solid.trim_eq] at accepted
  unfold ScalarType.ofTrimmed? at accepted
  split at accepted
  case h_9 =>
    split at accepted
    · rename_i width
      rw [Option.isSome_map] at accepted
      obtain ⟨bits, found⟩ := Option.isSome_iff_exists.1 accepted
      have digits := isDigits_of_digits? (Option.eq_some_of_filter_eq_some found)
      refine ⟨List.cons_ne_nil _ _, fun c member => ?_⟩
      rcases List.mem_cons.1 member with rfl | behind
      · rfl
      · exact isWordChar_of_isDigit (digits.2 c behind)
    · cases accepted
  all_goals exact named _ ‹_› (by decide)

/-- A scalar type is none of the words that are no types. -/
theorem IsScalar.not_mem {set : List String} (scalar : IsScalar type)
    (apart : set.all (fun word => (ScalarType.ofSpelling? word).isNone) = true) :
    set.contains (String.ofList type) = false := by
  rw [Bool.eq_false_iff]
  intro known
  have none := List.all_eq_true.1 apart _ (List.contains_iff_mem.1 known)
  rw [Option.isNone_iff_eq_none] at none
  have accepted := scalar.accepted
  rw [none] at accepted
  cases accepted

theorem IsScalar.not_isPointer (scalar : IsScalar type) : isPointer (String.ofList type) = false := by
  have isWord := scalar.isWord
  have other := scalar.not_mem
    (by decide : ["ptr"].all (fun word => (ScalarType.ofSpelling? word).isNone) = true)
  have noPtr : (String.ofList type == "ptr") = false := by simpa using other
  have noStar : type.getLast? ≠ some '*' := by
    intro last
    exact Bool.noConfusion (isWord.2 '*' (List.mem_of_getLast? last))
  have noSpace : "ptr ".toList.isPrefixOf type = false := by
    rw [Bool.eq_false_iff]
    intro starts
    exact Bool.noConfusion (isWord.2 ' ' ((List.isPrefixOf_iff_prefix.1 starts).subset (by simp)))
  unfold isPointer
  simp only [String.toList_ofList, noPtr, noSpace, Bool.false_or]
  simpa using noStar

/-! ### Flags before a word -/

section Flags

variable {set : List String}

theorem word_done {chars : List Char} (isWord : IsWord chars) (ends : Clear isWordChar rest) :
    word (chars ++ rest) = .done (String.ofList chars) rest :=
  word_eq_done_iff.2 ⟨chars, rfl, rfl, isWord, ends⟩

/-- A word that is no flag ends the flags before it. -/
theorem misses_flag_of_word {chars : List Char} (isWord : IsWord chars) (ends : Clear isWordChar rest)
    (unknown : set.contains (String.ofList chars) = false) : (flag set).Misses (chars ++ rest) :=
  (misses_filterMap_of_none (word_done isWord ends) (by rw [unknown]; rfl)).bind

/-- A character that no flag starts with ends the flags before it. -/
theorem misses_flag_of_head {c : Char} (apart : ∀ flag ∈ set, flag.toList.head? ≠ some c) :
    (flag set).Misses (c :: text) := by
  apply Misses.bind
  rcases word.cases_outcome (c :: text) with ⟨found, left, read⟩ | misses | sticks
  · apply misses_filterMap_of_none read
    apply if_neg
    intro known
    obtain ⟨chars, spelled, rfl, isWord, _⟩ := word_eq_done_iff.1 read
    obtain ⟨first, more, rfl⟩ := List.exists_cons_of_ne_nil isWord.1
    obtain ⟨rfl, _⟩ := List.cons.inj spelled
    exact apart _ (List.contains_iff_mem.1 known) (by simp)
  · exact misses_filterMap misses
  · exact absurd sticks not_sticks_word

theorem flags_done {marks : List Char} (isFlags : IsFlags set marks) (clear : Clear isGap rest)
    (ends : (flag set).Misses rest) : flags set (marks ++ rest) = .done () rest :=
  (flags_eq_done_iff clear).2 ⟨marks, rfl, isFlags, ends⟩

/-- Flags are read up to a word that is none of them. -/
theorem flags_of_word {marks chars : List Char} (isFlags : IsFlags set marks) (isWord : IsWord chars)
    (ends : Clear isWordChar rest) (unknown : set.contains (String.ofList chars) = false) :
    flags set (marks ++ (chars ++ rest)) = .done () (chars ++ rest) :=
  flags_done isFlags (isWord.clear_isGap rest) (misses_flag_of_word isWord ends unknown)

/-- Flags before a scalar type are read up to it. -/
theorem flags_of_scalar {marks : List Char} (isFlags : IsFlags set marks) (scalar : IsScalar type)
    (apart : set.all (fun word => (ScalarType.ofSpelling? word).isNone) = true)
    (ends : Clear isWordChar rest) :
    flags set (marks ++ (type ++ rest)) = .done () (type ++ rest) :=
  flags_of_word isFlags scalar.isWord ends (scalar.not_mem apart)

end Flags

/-- Characters that an attribute starts with. -/
def isAttributeStart (c : Char) : Bool :=
  parameterAttributes.any fun flag => flag.toList.head? == some c

theorem misses_attribute_of_head {c : Char} (outside : isAttributeStart c = false) :
    (flag parameterAttributes).Misses (c :: text) := by
  apply misses_flag_of_head
  intro flag known first
  have none := List.any_eq_false.1 outside flag known
  rw [first] at none
  simp at none

theorem isAttributeStart_of_isSignChar {c : Char} (sign : isSignChar c = true) :
    isAttributeStart c = false :=
  either_elim (motive := fun c => isAttributeStart c = false) sign (by decide) (by decide)

theorem isAttributeStart_of_isMantissaChar {c : Char} (inside : isMantissaChar c = true) :
    isAttributeStart c = false := by
  have table : parameterAttributes.all (fun flag =>
      flag.toList.head?.all fun c => !isMantissaChar c) = true := by
    decide
  unfold isAttributeStart
  rw [List.any_eq_false]
  intro flag known
  have judged := List.all_eq_true.1 table flag known
  intro first
  rw [beq_iff_eq.1 first] at judged
  simp [inside] at judged

/-- No attribute is the front of an operand. -/
theorem misses_attribute_of_written {value : Operand} {operand : List Char} (written : value.Written operand)
    (clear : Clear isNameChar rest) : (flag parameterAttributes).Misses (operand ++ rest) := by
  cases written with
  | reference isName =>
    obtain ⟨name, rfl, _⟩ := isName
    exact misses_attribute_of_head (by decide)
  | symbol isName =>
    obtain ⟨name, rfl, _⟩ := isName
    exact misses_attribute_of_head (by decide)
  | literal spelled =>
    cases spelled with
    | hexadecimal number =>
      obtain ⟨body, rfl, _⟩ := number
      exact misses_attribute_of_head (by decide)
    | decimal number =>
      obtain ⟨sign, body, power, rfl, isSign, isMantissa, _⟩ := number
      rcases isSign with rfl | ⟨c, rfl, isSign⟩
      · obtain ⟨c, more, rfl, inside⟩ := isMantissa.head
        exact misses_attribute_of_head (isAttributeStart_of_isMantissaChar inside)
      · exact misses_attribute_of_head (isAttributeStart_of_isSignChar isSign)
    | word known =>
      have isWord : IsWord operand := by
        obtain ⟨run, c, more, rfl, _⟩ := word_of_literalWords known
        exact ⟨List.cons_ne_nil c more, run⟩
      have ends : Clear isWordChar rest := clear.mono fun _ => isNameChar_of_isWordChar
      apply misses_flag_of_word isWord ends
      have table : literalWords.all (fun word => !parameterAttributes.contains word) = true := by decide
      simpa using List.all_eq_true.1 table _ (List.contains_iff_mem.1 known)

end Instruction

/-! ### Typed operands -/

open Instruction in
/-- An operand behind its type, with any attributes between them. -/
inductive TypedOperand.Written : TypedOperand → List Char → Prop where
  | pair {value : Operand} {type gaps marks operand : List Char} (spelled : IsType type)
      (filled : gaps ≠ []) (blanks : IsGaps gaps) (attributes : IsFlags parameterAttributes marks)
      (written : value.Written operand) :
      Written ⟨String.ofList type, value⟩ (type ++ (gaps ++ (marks ++ operand)))

namespace Instruction

variable {text rest type : List Char}

theorem clear_isGap_of_isFlags {set : List String} {marks : List Char} (isFlags : IsFlags set marks)
    (clear : Clear isGap rest) : Clear isGap (marks ++ rest) := by
  obtain ⟨each, series⟩ := isFlags
  cases series with
  | nil => exact clear
  | cons one _ =>
    rw [List.append_assoc]
    exact one.clear_isGap _

theorem readsAll_typedOperand : typedOperand.ReadsAll TypedOperand.Written (Clear isNameChar) := by
  intro typed taken written rest clear
  cases written with
  | @pair value type gaps marks operand isType filled blanks attributes written =>
    have solid : Clear isGap (operand ++ rest) := clear_isGap_of_written written rest
    have marked : Clear isGap (marks ++ (operand ++ rest)) := clear_isGap_of_isFlags attributes solid
    have bounded : Clear isTypeChar (gaps ++ (marks ++ (operand ++ rest))) :=
      clear_filled_gaps (fun _ => isTypeChar_of_isGap) filled blanks _
    have ended := misses_attribute_of_written written clear
    simp only [List.append_assoc]
    apply bind_done (readsAll_typeSpelling ⟨rfl, isType⟩ bounded)
    apply bind_done (gap1_done filled blanks marked)
    apply bind_done (flags_done attributes solid ended)
    exact bind_done (readsAll_operand written clear) rfl

/-! ### Targets of branches -/

/-- The target of a branch, as it stands in a line. -/
def IsTarget (label : String) (text : List Char) : Prop :=
  ∃ gaps name, text = "label".toList ++ (gaps ++ name) ∧ label = String.ofList name ∧
    gaps ≠ [] ∧ IsGaps gaps ∧ IsName '%' name

theorem notFollowedBy_eq_done_iff {refuse : Char → Bool} {nothing : Unit} :
    notFollowedBy refuse text = .done nothing rest ↔ text = rest ∧ Clear refuse rest := by
  unfold notFollowedBy
  cases text with
  | nil =>
    constructor
    · intro read
      cases read
      exact ⟨rfl, clear_nil⟩
    · rintro ⟨rfl, _⟩
      rfl
  | cons c text =>
    cases refused : refuse c with
    | true =>
      simp only [refused, if_true, reduceCtorEq, false_iff]
      rintro ⟨rfl, clear⟩
      exact Bool.noConfusion (refused.symm.trans (clear_cons.1 clear))
    | false =>
      simp only [refused, Bool.false_eq_true, if_false]
      constructor
      · intro read
        cases read
        exact ⟨rfl, clear_cons.2 refused⟩
      · rintro ⟨rfl, _⟩
        rfl

theorem keyword_eq_done_iff {expected : String} {nothing : Unit} :
    keyword expected text = .done nothing rest ↔ text = expected.toList ++ rest ∧ Clear isNameChar rest := by
  simp only [keyword, bind_eq_done_iff, token_eq_done_iff, notFollowedBy_eq_done_iff]
  constructor
  · rintro ⟨_, _, rfl, rfl, clear⟩
    exact ⟨rfl, clear⟩
  · rintro ⟨rfl, clear⟩
    exact ⟨(), rest, rfl, rfl, clear⟩

theorem keyword_done {expected : String} (clear : Clear isNameChar rest) :
    keyword expected (expected.toList ++ rest) = .done () rest :=
  keyword_eq_done_iff.2 ⟨rfl, clear⟩

theorem IsName.clear_isGap {name : List Char} (isName : IsName '%' name) (rest : List Char) :
    Clear isGap (name ++ rest) := by
  obtain ⟨chars, rfl, _⟩ := isName
  exact clear_cons.2 rfl

theorem readsAll_blockLabel : blockLabel.ReadsAll IsTarget (Clear isNameChar) := by
  rintro _ _ ⟨gaps, name, rfl, rfl, filled, blanks, isName⟩ rest clear
  have bounded : Clear isNameChar (gaps ++ (name ++ rest)) :=
    clear_filled_gaps (fun _ => isNameChar_of_isGap) filled blanks _
  simp only [List.append_assoc]
  apply bind_done (keyword_done bounded)
  apply bind_done (gap1_done filled blanks (isName.clear_isGap rest))
  exact sigilName_eq_done_iff.2 ⟨name, rfl, rfl, isName, clear⟩

/-! ### Arguments of calls -/

/-- A comma and the argument behind it. -/
def NextArgument (argument : TypedOperand) (text : List Char) : Prop :=
  ∃ separator typed, text = separator ++ typed ∧ IsComma separator ∧ argument.Written typed

/-- The arguments of a call in their parentheses. -/
inductive ArgumentsWritten : List TypedOperand → List Char → Prop where
  | none {gaps : List Char} (blanks : IsGaps gaps) : ArgumentsWritten [] ('(' :: (gaps ++ [')']))
  | some {first : TypedOperand} {others : List TypedOperand} {before typed more after : List Char}
      (front : IsGaps before) (written : first.Written typed) (series : Series NextArgument others more)
      (back : IsGaps after) :
      ArgumentsWritten (first :: others) ('(' :: (before ++ (typed ++ (more ++ (after ++ [')'])))))

theorem clear_isGap_of_typed {argument : TypedOperand} {typed : List Char} (written : argument.Written typed)
    (rest : List Char) : Clear isGap (typed ++ rest) := by
  cases written with
  | pair isType _ _ _ _ =>
    rw [List.append_assoc]
    exact isType.clear_isGap _

/-- Read a comma and the argument behind it. -/
def nextArgument : Reader TypedOperand := do
  comma
  typedOperand

theorem readsAll_nextArgument : nextArgument.ReadsAll NextArgument (Clear isNameChar) := by
  rintro argument _ ⟨separator, typed, rfl, isComma, written⟩ rest clear
  rw [List.append_assoc]
  apply bind_done (comma_done isComma (clear_isGap_of_typed written rest))
  exact readsAll_typedOperand written clear

theorem NextArgument.ne_nil {argument : TypedOperand} (next : NextArgument argument text) : text ≠ [] := by
  obtain ⟨separator, typed, rfl, ⟨before, after, rfl, _⟩, _⟩ := next
  simp

theorem NextArgument.clear {argument : TypedOperand} (next : NextArgument argument text) (rest : List Char) :
    Clear isNameChar (text ++ rest) := by
  obtain ⟨separator, typed, rfl, isComma, _⟩ := next
  rw [List.append_assoc]
  exact clear_isNameChar_of_isComma isComma _

/-- Characters that a type starts with. -/
def isTypeStart (c : Char) : Bool :=
  isWordChar c || typeBrackets.any fun pair => pair.1 == c

/-- No operand behind its type starts with a character that no type starts with. -/
theorem misses_typedOperand_of_head {c : Char} (outside : isTypeStart c = false) :
    typedOperand.Misses (c :: rest) := by
  obtain ⟨noWord, noBracket⟩ := Bool.or_eq_false_iff.1 outside
  have noGroup {opening closing : Char} (pair : typeBrackets.contains (opening, closing) = true) :
      (bracketed opening closing).Misses (c :: rest) := by
    apply misses_bracketed
    intro same
    refine List.any_eq_false.1 noBracket _ (List.contains_iff_mem.1 pair) ?_
    exact beq_iff_eq.2 (Option.some.inj same).symm
  have noBase : baseType.Misses (c :: rest) :=
    misses_orElse (noGroup rfl) <| misses_orElse (noGroup rfl) <| misses_orElse (noGroup rfl) <|
      misses_run1 (clear_cons.2 noWord)
  have noType : typeSpelling.Misses (c :: rest) := by
    rw [typeSpelling_eq]
    exact noBase.bind
  exact noType.bind

/-- Arguments are read between the parentheses that enclose them. -/
theorem arguments_read {arguments : List TypedOperand} (written : ArgumentsWritten arguments text)
    (rest : List Char) :
    ∃ opened inside closed, text ++ rest = '(' :: opened ∧ gap opened = .done () inside ∧
      sepBy comma typedOperand inside = .done arguments closed ∧ gap closed = .done () (')' :: rest) := by
  have stops : Clear isGap (')' :: rest) := clear_cons.2 rfl
  cases written with
  | @none gaps blanks =>
    refine ⟨gaps ++ ')' :: rest, ')' :: rest, ')' :: rest, by simp, ?_, ?_, ?_⟩
    · exact gap_done blanks stops
    · exact orElse_of_misses (misses_typedOperand_of_head rfl).bind
    · exact gap_done (by simp [IsGaps] : IsGaps []) stops
  | @some first others before typed more after front written series back =>
    have ends : Clear isNameChar (after ++ ')' :: rest) :=
      clear_gaps (fun _ => isNameChar_of_isGap) back (clear_cons.2 rfl)
    have goesOn : Clear isNameChar (more ++ (after ++ ')' :: rest)) := by
      cases series with
      | nil => exact ends
      | cons next _ =>
        rw [List.append_assoc]
        exact next.clear _
    have noComma : nextArgument.Misses (after ++ ')' :: rest) := by
      have noChar : (char ',').Misses (')' :: rest) := misses_char (by simp)
      have skipped : gap (after ++ ')' :: rest) = .done () (')' :: rest) :=
        gap_done back stops
      exact Misses.bind (misses_bind_of_done skipped noChar.bind)
    have many : nextArgument.many (more ++ (after ++ ')' :: rest)) = .done others (after ++ ')' :: rest) :=
      readsAll_nextArgument.many NextArgument.clear NextArgument.ne_nil series ⟨ends, noComma⟩
    refine ⟨before ++ (typed ++ (more ++ (after ++ ')' :: rest))), typed ++ (more ++ (after ++ ')' :: rest)),
      after ++ ')' :: rest, by simp, ?_, ?_, ?_⟩
    · exact gap_done front (clear_isGap_of_typed written _)
    · apply orElse_of_done
      apply bind_done (readsAll_typedOperand written goesOn)
      exact bind_done (many) rfl
    · exact gap_done back stops

/-! ### Ends of operands -/

theorem isBlank_of_isGap {c : Char} (inside : isGap c = true) : isBlank c = true :=
  either_elim (motive := fun c => isBlank c = true) inside rfl rfl

theorem isBlank_of_isNameChar {c : Char} (inside : isNameChar c = true) : isBlank c = false := by
  have range : 36 ≤ c.toNat ∧ c.toNat ≤ 122 := by
    simp only [isNameChar, isAlphanumeric, isDigit, Bool.or_eq_true, Bool.and_eq_true, decide_eq_true_eq,
      beq_iff_eq, Char.le_def, UInt32.le_iff_toNat_le] at inside
    rcases inside with (((((lower | upper) | digit) | rfl) | rfl) | rfl) | rfl
    · exact ⟨Nat.le_trans (by decide) lower.1, Nat.le_trans lower.2 (by decide)⟩
    · exact ⟨Nat.le_trans (by decide) upper.1, Nat.le_trans upper.2 (by decide)⟩
    · exact ⟨Nat.le_trans (by decide) digit.1, Nat.le_trans digit.2 (by decide)⟩
    all_goals decide
  simp only [isBlank, Bool.or_eq_false_iff, Bool.and_eq_false_iff, decide_eq_false_iff_not,
    beq_eq_false_iff_ne]
  omega

theorem IsName.solid {sigil : Char} {name : List Char} (isName : IsName sigil name)
    (visible : isBlank sigil = false) : Solid name := by
  obtain ⟨chars, rfl, _, inside⟩ := isName
  apply solid_of_unbroken (List.cons_ne_nil _ _)
  intro c member
  rcases List.mem_cons.1 member with rfl | later
  · exact visible
  · exact isBlank_of_isNameChar (inside c later)

theorem IsWord.solid {chars : List Char} (isWord : IsWord chars) : Solid chars :=
  solid_of_unbroken isWord.1 fun c member => isBlank_of_isNameChar
    (isNameChar_of_isWordChar (isWord.2 c member))

theorem isBlank_of_isSignChar {c : Char} (sign : isSignChar c = true) : isBlank c = false :=
  either_elim (motive := fun c => isBlank c = false) sign rfl rfl

theorem IsSign.unbroken (isSign : IsSign text) : ∀ c ∈ text, isBlank c = false := by
  rcases isSign with rfl | ⟨sign, rfl, isSign⟩
  · simp
  · simpa using isBlank_of_isSignChar isSign

theorem IsDigits.unbroken (isDigits : IsDigits text) : ∀ c ∈ text, isBlank c = false :=
  fun c member => isBlank_of_isNameChar (isNameChar_of_isWordChar
    (isWordChar_of_isDigit (isDigits.2 c member)))

theorem IsDecimal.solid (number : IsDecimal text) : Solid text := by
  obtain ⟨sign, body, power, rfl, isSign, isMantissa, isPower⟩ := number
  have digits : ∀ c ∈ body, isBlank c = false :=
    fun c member => isBlank_of_isNameChar (isNameChar_of_isMantissaChar (isMantissa.chars c member))
  have scaled : ∀ c ∈ power, isBlank c = false := by
    rcases isPower with rfl | ⟨mark, minus, figures, rfl, isMark, isMinus, isFigures⟩
    · simp
    · intro c member
      rcases List.mem_cons.1 member with rfl | behind
      · exact isBlank_of_isNameChar (isNameChar_of_isExponentMark isMark)
      · rcases List.mem_append.1 behind with one | two
        · exact isMinus.unbroken c one
        · exact isFigures.unbroken c two
  apply solid_of_unbroken (by simp [isMantissa.ne_nil])
  intro c member
  rcases List.mem_append.1 member with one | behind
  · exact isSign.unbroken c one
  · rcases List.mem_append.1 behind with two | three
    · exact digits c two
    · exact scaled c three

theorem solid_of_written {value : Operand} {operand : List Char} (written : value.Written operand) :
    Solid operand := by
  cases written with
  | reference isName => exact isName.solid rfl
  | symbol isName => exact isName.solid rfl
  | literal spelled =>
    cases spelled with
    | hexadecimal number =>
      obtain ⟨body, rfl, filled, inside⟩ := number
      have digits : Solid body :=
        solid_of_unbroken filled fun c member => isBlank_of_isNameChar
          (isNameChar_of_isHexChar (inside c member))
      have starts : Solid ['0', 'x'] := ⟨⟨'0', ['x'], rfl, rfl⟩, ⟨['0'], 'x', rfl, rfl⟩⟩
      exact starts.append_ends digits.endsSolid
    | decimal number => exact number.solid
    | word known =>
      obtain ⟨run, c, more, rfl, _⟩ := word_of_literalWords known
      exact IsWord.solid ⟨List.cons_ne_nil c more, run⟩

theorem endsSolid_of_typed {typed : TypedOperand} (written : typed.Written text) : EndsSolid text := by
  cases written with
  | pair _ _ _ _ written => exact (((solid_of_written written).endsSolid.append _).append _).append _

theorem IsTarget.endsSolid {label : String} (target : IsTarget label text) : EndsSolid text := by
  obtain ⟨gaps, name, rfl, _, _, _, isName⟩ := target
  exact ((isName.solid rfl).endsSolid.append _).append _

theorem endsSolid_singleton {c : Char} (visible : isBlank c = false) (front : List Char) :
    EndsSolid (front ++ [c]) :=
  ⟨front, [c], rfl, ⟨⟨c, [], rfl, visible⟩, ⟨[], c, rfl, visible⟩⟩⟩

theorem endsSolid_of_edge {edge : Incoming} (written : edge.Written text) : EndsSolid text := by
  cases written with
  | @pair value operand before separator label after _ _ _ _ _ =>
    simpa using endsSolid_singleton (c := ']') rfl
      ('[' :: (before ++ (operand ++ (separator ++ (label ++ after)))))

theorem endsSolid_of_nextEdges {edges : List Incoming} {front : List Char}
    (series : Series NextEdge edges text) (ends : EndsSolid front) : EndsSolid (front ++ text) := by
  induction series generalizing front with
  | nil => simpa using ends
  | cons next _ ih =>
    obtain ⟨separator, pair, rfl, _, written⟩ := next
    rw [← List.append_assoc]
    exact ih (((endsSolid_of_edge written).append separator).append front)

theorem endsSolid_of_edges {edges : List Incoming} (written : EdgesWritten edges text) : EndsSolid text := by
  obtain ⟨first, others, pair, more, _, rfl, one, series⟩ := written
  exact endsSolid_of_nextEdges series (endsSolid_of_edge one)

theorem endsSolid_of_arguments {arguments : List TypedOperand} (written : ArgumentsWritten arguments text) :
    EndsSolid text := by
  cases written with
  | @none gaps _ => simpa using endsSolid_singleton (c := ')') rfl ('(' :: gaps)
  | @some _ _ before typed more after _ _ _ _ =>
    simpa using endsSolid_singleton (c := ')') rfl ('(' :: (before ++ (typed ++ (more ++ after))))

end Instruction

end RegionFlow
