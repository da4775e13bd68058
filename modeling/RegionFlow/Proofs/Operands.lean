/-
Module: RegionFlow.Proofs.Operands
Purpose: How operands are written. A reference is a sigil and a name; a literal is a hexadecimal or
  decimal number, or one of a few words. What is read as an operand is written so, and an operand
  that is written so is read if no character of a name follows it. Reading an operand is stuck on
  exactly the numbers that break off behind the mark of an exponent.
Main exports: Instruction.IsName, Instruction.IsLiteral, Operand.Written,
  Instruction.readsOnly_operand, Instruction.readsAll_operand, Instruction.BreaksOff,
  Instruction.sticks_operand_iff
-/
import RegionFlow.Instruction.Reading
import RegionFlow.Proofs.Readers

namespace RegionFlow

namespace Instruction

open Text Text.Reader

variable {text rest taken : List Char}

/-! ### Words and names -/

/-- A sigil with the name behind it. -/
def IsName (sigil : Char) (text : List Char) : Prop :=
  ∃ name, text = sigil :: name ∧ name ≠ [] ∧ ∀ c ∈ name, isNameChar c = true

theorem sigilName_eq_done_iff {sigil : Char} {name : String} :
    sigilName sigil text = .done name rest ↔
      ∃ taken, text = taken ++ rest ∧ name = String.ofList taken ∧ IsName sigil taken ∧
        Clear isNameChar rest := by
  simp only [sigilName, bind_eq_done_iff, char_eq_done_iff, run1_eq_done_iff]
  constructor
  · rintro ⟨_, _, rfl, chars, _, ⟨rfl, filled, run, clear⟩, finished⟩
    cases finished
    exact ⟨sigil :: chars, rfl, rfl, ⟨chars, rfl, filled, run⟩, clear⟩
  · rintro ⟨_, rfl, rfl, ⟨chars, rfl, filled, run⟩, clear⟩
    exact ⟨(), chars ++ rest, rfl, chars, rest, ⟨rfl, filled, run, clear⟩, rfl⟩

theorem misses_sigilName {sigil : Char} (other : text.head? ≠ some sigil) : (sigilName sigil).Misses text :=
  (misses_char other).bind

theorem not_sticks_sigilName {sigil : Char} : ¬ (sigilName sigil).Sticks text := by
  simp [sigilName, sticks_bind_iff, not_sticks_char, not_sticks_run1, not_sticks_pure]

/-- A bare word. -/
def IsWord (text : List Char) : Prop :=
  text ≠ [] ∧ ∀ c ∈ text, isWordChar c = true

theorem word_eq_done_iff {found : String} :
    word text = .done found rest ↔
      ∃ taken, text = taken ++ rest ∧ found = String.ofList taken ∧ IsWord taken ∧
        Clear isWordChar rest := by
  simp only [word, bind_eq_done_iff, run1_eq_done_iff]
  constructor
  · rintro ⟨chars, _, ⟨rfl, filled, run, clear⟩, finished⟩
    cases finished
    exact ⟨chars, rfl, rfl, ⟨filled, run⟩, clear⟩
  · rintro ⟨chars, rfl, rfl, ⟨filled, run⟩, clear⟩
    exact ⟨chars, rest, ⟨rfl, filled, run, clear⟩, rfl⟩

theorem misses_word (clear : Clear isWordChar text) : word.Misses text :=
  (misses_run1 clear).bind

theorem not_sticks_word : ¬ word.Sticks text := by
  simp [word, sticks_bind_iff, not_sticks_run1, not_sticks_pure]

theorem isNameChar_of_isWordChar {c : Char} (inside : isWordChar c = true) : isNameChar c = true := by
  rcases Bool.or_eq_true_iff.1 inside with letter | underscore
  · simp [isNameChar, letter]
  · simp [isNameChar, underscore]

theorem isWordChar_of_isDigit {c : Char} (inside : isDigit c = true) : isWordChar c = true := by
  simp [isWordChar, isAlphanumeric, inside]

/-! ### Numbers -/

/-- A plus or minus sign. -/
def isSignChar (c : Char) : Bool :=
  c == '+' || c == '-'

/-- The mark of an exponent. -/
def isExponentMark (c : Char) : Bool :=
  c == 'e' || c == 'E'

/-- Characters of the digits of a number, with the point. -/
def isMantissaChar (c : Char) : Bool :=
  isDigit c || c == '.'

/-- A sign or nothing. -/
def IsSign (text : List Char) : Prop :=
  text = [] ∨ ∃ c, text = [c] ∧ isSignChar c = true

/-- One or more digits. -/
def IsDigits (text : List Char) : Prop :=
  text ≠ [] ∧ ∀ c ∈ text, isDigit c = true

/-- Digits with an optional fraction, or a fraction alone. -/
inductive IsMantissa : List Char → Prop where
  | whole {digits : List Char} (spelled : IsDigits digits) : IsMantissa digits
  | mixed {digits fraction : List Char} (spelled : IsDigits digits)
      (more : ∀ c ∈ fraction, isDigit c = true) : IsMantissa (digits ++ '.' :: fraction)
  | fraction {digits : List Char} (spelled : IsDigits digits) : IsMantissa ('.' :: digits)

/-- A mark, an optional sign and digits. -/
def IsExponent (text : List Char) : Prop :=
  ∃ mark sign digits, text = mark :: (sign ++ digits) ∧ isExponentMark mark = true ∧ IsSign sign ∧
    IsDigits digits

/-- A decimal number. -/
def IsDecimal (text : List Char) : Prop :=
  ∃ sign body power, text = sign ++ (body ++ power) ∧ IsSign sign ∧ IsMantissa body ∧
    (power = [] ∨ IsExponent power)

/-- A hexadecimal number. -/
def IsHexadecimal (text : List Char) : Prop :=
  ∃ body, text = '0' :: 'x' :: body ∧ body ≠ [] ∧ ∀ c ∈ body, isHexChar c = true

/-- A reader gives back the text it takes. -/
def Verbatim (Is : List Char → Prop) (value taken : List Char) : Prop :=
  value = taken ∧ Is taken

/-- What holds of two characters holds of each one out of them. -/
theorem either_elim {motive : Char → Prop} {left right c : Char} (inside : (c == left || c == right) = true)
    (one : motive left) (two : motive right) : motive c := by
  rcases Bool.or_eq_true_iff.1 inside with first | second
  · rwa [beq_iff_eq.1 first]
  · rwa [beq_iff_eq.1 second]

theorem IsMantissa.chars (mantissa : IsMantissa text) : ∀ c ∈ text, isMantissaChar c = true := by
  cases mantissa with
  | whole spelled =>
    intro c member
    simp [isMantissaChar, spelled.2 c member]
  | mixed spelled more =>
    intro c member
    rcases List.mem_append.1 member with front | back
    · simp [isMantissaChar, spelled.2 c front]
    · rcases List.mem_cons.1 back with rfl | behind
      · rfl
      · simp [isMantissaChar, more c behind]
  | fraction spelled =>
    intro c member
    rcases List.mem_cons.1 member with rfl | behind
    · rfl
    · simp [isMantissaChar, spelled.2 c behind]

theorem IsMantissa.ne_nil (mantissa : IsMantissa text) : text ≠ [] := by
  cases mantissa with
  | whole spelled => exact spelled.1
  | mixed _ _ => simp
  | fraction _ => simp

theorem IsMantissa.head (mantissa : IsMantissa text) :
    ∃ c more, text = c :: more ∧ isMantissaChar c = true := by
  obtain ⟨c, more, rfl⟩ := List.exists_cons_of_ne_nil mantissa.ne_nil
  exact ⟨c, more, rfl, mantissa.chars c List.mem_cons_self⟩

theorem isSignChar_of_isMantissaChar {c : Char} (inside : isMantissaChar c = true) :
    isSignChar c = false := by
  rw [Bool.eq_false_iff]
  intro sign
  exact either_elim (motive := fun c => isMantissaChar c ≠ true) sign (by decide) (by decide) inside

/-- One character out of two. -/
theorem either_eq_done_iff {left right : Char} {chars : List Char} :
    either left right text = .done chars rest ↔
      ∃ c, chars = [c] ∧ text = c :: rest ∧ (c == left || c == right) = true := by
  constructor
  · intro read
    rcases orElse_eq_done read with read | ⟨_, read⟩ <;>
      obtain ⟨_, _, one, finished⟩ := bind_eq_done_iff.1 read <;>
      cases char_eq_done_iff.1 one <;> cases finished
    · exact ⟨left, rfl, rfl, by simp⟩
    · exact ⟨right, rfl, rfl, by simp⟩
  · rintro ⟨c, rfl, rfl, same⟩
    have read (expected : Char) :
        (do char expected; return [expected] : Reader (List Char)) (expected :: rest) =
          .done [expected] rest := bind_eq_done_iff.2 ⟨(), rest, char_eq_done_iff.2 rfl, rfl⟩
    by_cases first : c = left
    · subst first
      exact orElse_of_done (read c)
    · obtain rfl : c = right := by simpa [first] using same
      have misses : (do char left; return [left] : Reader (List Char)).Misses (c :: rest) :=
        (misses_char (by simpa using first)).bind
      exact (orElse_of_misses misses).trans (read c)

theorem not_sticks_either {left right : Char} : ¬ (either left right).Sticks text := by
  simp [either, sticks_orElse_iff, sticks_bind_iff, not_sticks_char, not_sticks_pure]

theorem misses_either {left right : Char} (clear : Clear (fun c => c == left || c == right) text) :
    (either left right).Misses text := by
  rcases (either left right).cases_outcome text with ⟨_, rest, read⟩ | misses | sticks
  · obtain ⟨c, _, rfl, same⟩ := either_eq_done_iff.1 read
    exact absurd same (Bool.eq_false_iff.1 (clear_cons.1 clear))
  · exact misses
  · exact absurd sticks not_sticks_either

theorem readsOnly_optionalSign : optionalSign.ReadsOnly (Verbatim IsSign) := by
  intro text sign rest read
  obtain ⟨found, left, tried, finished⟩ := bind_eq_done_iff.1 read
  cases finished
  rcases optional_eq_done tried with ⟨chars, rfl, one⟩ | ⟨rfl, rfl, _⟩
  · obtain ⟨c, rfl, rfl, isSign⟩ := either_eq_done_iff.1 one
    exact ⟨[c], rfl, rfl, .inr ⟨c, rfl, isSign⟩⟩
  · exact ⟨[], rfl, rfl, .inl rfl⟩

theorem readsAll_optionalSign : optionalSign.ReadsAll (Verbatim IsSign) (Clear isSignChar) := by
  rintro _ taken ⟨rfl, sign⟩ rest clear
  rcases sign with rfl | ⟨c, rfl, isSign⟩
  · exact bind_eq_done_iff.2 ⟨none, rest, optional_of_misses (misses_either clear), rfl⟩
  · exact bind_eq_done_iff.2
      ⟨some [c], rest, optional_of_done (either_eq_done_iff.2 ⟨c, rfl, rfl, isSign⟩), rfl⟩

/-- A sign is read or passed over, whatever the text. -/
theorem exists_optionalSign (text : List Char) : ∃ sign left, optionalSign text = .done sign left := by
  rcases (either '+' '-').cases_outcome text with ⟨chars, rest, read⟩ | misses | sticks
  · exact ⟨chars, rest, bind_eq_done_iff.2 ⟨some chars, rest, optional_of_done read, rfl⟩⟩
  · exact ⟨[], text, bind_eq_done_iff.2 ⟨none, text, optional_of_misses misses, rfl⟩⟩
  · exact absurd sticks not_sticks_either

theorem not_sticks_optionalSign : ¬ optionalSign.Sticks text := by
  simp [optionalSign, sticks_bind_iff, sticks_optional_iff, not_sticks_either, not_sticks_pure]

/-- The point of a number and the digits behind it. -/
theorem fraction_eq_done_iff {chars : List Char} :
    (do char '.'; let digits ← run isDigit; return '.' :: digits : Reader (List Char)) text =
        .done chars rest ↔
      ∃ digits, chars = '.' :: digits ∧ text = '.' :: (digits ++ rest) ∧
        (∀ c ∈ digits, isDigit c = true) ∧ Clear isDigit rest := by
  simp only [bind_eq_done_iff, char_eq_done_iff, run_eq_done_iff]
  constructor
  · rintro ⟨_, _, rfl, digits, _, ⟨rfl, run, clear⟩, finished⟩
    cases finished
    exact ⟨digits, rfl, rfl, run, clear⟩
  · rintro ⟨digits, rfl, rfl, run, clear⟩
    exact ⟨(), _, rfl, digits, rest, ⟨rfl, run, clear⟩, rfl⟩

theorem readsOnly_mantissa : mantissa.ReadsOnly (Verbatim IsMantissa) := by
  intro text body rest read
  rcases orElse_eq_done read with read | ⟨_, read⟩
  · obtain ⟨whole, left, one, read⟩ := bind_eq_done_iff.1 read
    obtain ⟨found, _, tried, finished⟩ := bind_eq_done_iff.1 read
    cases finished
    obtain ⟨rfl, filled, run, _⟩ := run1_eq_done_iff.1 one
    rcases optional_eq_done tried with ⟨chars, rfl, two⟩ | ⟨rfl, rfl, _⟩
    · obtain ⟨digits, rfl, rfl, more, _⟩ := fraction_eq_done_iff.1 two
      exact ⟨whole ++ '.' :: digits, by simp, rfl, .mixed ⟨filled, run⟩ more⟩
    · exact ⟨whole, rfl, by simp, .whole ⟨filled, run⟩⟩
  · obtain ⟨_, left, one, read⟩ := bind_eq_done_iff.1 read
    obtain ⟨digits, _, two, finished⟩ := bind_eq_done_iff.1 read
    cases finished
    cases char_eq_done_iff.1 one
    obtain ⟨rfl, filled, run, _⟩ := run1_eq_done_iff.1 two
    exact ⟨'.' :: digits, rfl, rfl, .fraction ⟨filled, run⟩⟩

theorem readsAll_mantissa : mantissa.ReadsAll (Verbatim IsMantissa) (Clear isMantissaChar) := by
  rintro _ taken ⟨rfl, body⟩ rest clear
  have noDigit : Clear isDigit rest := clear.mono fun c digit => by simp [isMantissaChar, digit]
  cases body with
  | whole spelled =>
    have noPoint : rest.head? ≠ some '.' := by
      intro point
      exact Bool.noConfusion (clear '.' point)
    apply orElse_of_done
    refine bind_eq_done_iff.2 ⟨_, rest, run1_eq_done_iff.2 ⟨rfl, spelled.1, spelled.2, noDigit⟩, ?_⟩
    refine bind_eq_done_iff.2 ⟨none, rest, optional_of_misses (misses_char noPoint).bind, ?_⟩
    simp [pure, Reader.pure]
  | @mixed digits fraction spelled more =>
    have point : Clear isDigit ('.' :: (fraction ++ rest)) := clear_cons.2 rfl
    apply orElse_of_done
    refine bind_eq_done_iff.2 ⟨digits, _, run1_eq_done_iff.2 ⟨by simp, spelled.1, spelled.2, point⟩, ?_⟩
    refine bind_eq_done_iff.2 ⟨_, rest, optional_of_done
      (fraction_eq_done_iff.2 ⟨fraction, rfl, rfl, more, noDigit⟩), rfl⟩
  | @fraction digits spelled =>
    refine (orElse_of_misses (misses_run1 (clear_cons.2 rfl)).bind).trans ?_
    refine bind_eq_done_iff.2 ⟨(), digits ++ rest, char_eq_done_iff.2 rfl, ?_⟩
    exact bind_eq_done_iff.2 ⟨digits, rest, run1_eq_done_iff.2 ⟨rfl, spelled.1, spelled.2, noDigit⟩, rfl⟩

theorem not_sticks_mantissa : ¬ mantissa.Sticks text := by
  simp [mantissa, sticks_orElse_iff, sticks_bind_iff, sticks_optional_iff, not_sticks_run1, not_sticks_run,
    not_sticks_char, not_sticks_pure]

theorem misses_mantissa (clear : Clear isMantissaChar text) : mantissa.Misses text := by
  have noDigit : Clear isDigit text := clear.mono fun c digit => by simp [isMantissaChar, digit]
  have noPoint : text.head? ≠ some '.' := by
    intro point
    exact Bool.noConfusion (clear '.' point)
  exact misses_orElse (misses_run1 noDigit).bind (misses_char noPoint).bind

/-- Digits follow, perhaps behind a sign. -/
def StartsDigits (text : List Char) : Prop :=
  ∃ sign digit rest, text = sign ++ digit :: rest ∧ IsSign sign ∧ isDigit digit = true

theorem readsOnly_exponent : exponent.ReadsOnly (Verbatim IsExponent) := by
  intro text power rest read
  obtain ⟨_, _, one, read⟩ := bind_eq_done_iff.1 read
  obtain ⟨sign, _, two, read⟩ := bind_eq_done_iff.1 read
  obtain ⟨digits, _, three, finished⟩ := bind_eq_done_iff.1 read
  cases finished
  obtain ⟨mark, rfl, rfl, isMark⟩ := either_eq_done_iff.1 one
  obtain ⟨_, rfl, rfl, isSign⟩ := readsOnly_optionalSign two
  obtain ⟨rfl, filled, run, _⟩ := run1_eq_done_iff.1 (committed_eq_done_iff.1 three)
  exact ⟨mark :: (sign ++ digits), by simp, rfl, mark, sign, digits, rfl, isMark, isSign, filled, run⟩

theorem isSignChar_of_isDigit {c : Char} (digit : isDigit c = true) : isSignChar c = false :=
  isSignChar_of_isMantissaChar (by simp [isMantissaChar, digit])

theorem readsAll_exponent : exponent.ReadsAll (Verbatim IsExponent) (Clear isDigit) := by
  rintro _ _ ⟨rfl, mark, sign, digits, rfl, isMark, isSign, filled, run⟩ rest clear
  have unsigned : Clear isSignChar (digits ++ rest) := by
    obtain ⟨c, more, rfl⟩ := List.exists_cons_of_ne_nil filled
    exact clear_cons.2 (isSignChar_of_isDigit (run c List.mem_cons_self))
  rw [List.cons_append, List.append_assoc]
  refine bind_eq_done_iff.2 ⟨[mark], _, either_eq_done_iff.2 ⟨mark, rfl, rfl, isMark⟩, ?_⟩
  refine bind_eq_done_iff.2 ⟨sign, digits ++ rest, readsAll_optionalSign ⟨rfl, isSign⟩ unsigned, ?_⟩
  exact bind_eq_done_iff.2 ⟨digits, rest,
    committed_eq_done_iff.2 (run1_eq_done_iff.2 ⟨rfl, filled, run, clear⟩), rfl⟩

theorem misses_exponent (clear : Clear isExponentMark text) : exponent.Misses text :=
  (misses_either clear).bind

/-- Behind the mark of an exponent, reading is stuck unless digits follow. -/
theorem sticks_exponent_iff :
    exponent.Sticks text ↔ ∃ mark tail, text = mark :: tail ∧ isExponentMark mark = true ∧
      ¬ StartsDigits tail := by
  simp only [exponent, sticks_bind_iff, sticks_committed_iff, not_sticks_either, not_sticks_optionalSign,
    not_sticks_run1, not_sticks_pure, false_or, and_false, exists_false, or_false]
  constructor
  · rintro ⟨_, tail, one, sign, left, two, misses⟩
    obtain ⟨mark, rfl, rfl, isMark⟩ := either_eq_done_iff.1 one
    refine ⟨mark, tail, rfl, isMark, ?_⟩
    rintro ⟨other, digit, rest, rfl, isSign, isDigit⟩
    have again := readsAll_optionalSign ⟨rfl, isSign⟩
      (clear_cons.2 (isSignChar_of_isDigit isDigit) : Clear isSignChar (digit :: rest))
    cases two.symm.trans again
    obtain ⟨_, missed⟩ := misses
    simp [run1, isDigit] at missed
  · rintro ⟨mark, tail, rfl, isMark, broken⟩
    obtain ⟨sign, left, two⟩ := exists_optionalSign tail
    refine ⟨[mark], tail, either_eq_done_iff.2 ⟨mark, rfl, rfl, isMark⟩, sign, left, two, misses_run1 ?_⟩
    obtain ⟨_, rfl, rfl, isSign⟩ := readsOnly_optionalSign two
    intro digit first
    rw [Bool.eq_false_iff]
    intro isDigit
    obtain ⟨rest, rfl⟩ := List.head?_eq_some_iff.1 first
    exact broken ⟨sign, digit, rest, rfl, isSign, isDigit⟩

theorem readsOnly_decimalLiteral : decimalLiteral.ReadsOnly (Verbatim IsDecimal) := by
  intro text number rest read
  obtain ⟨sign, _, one, read⟩ := bind_eq_done_iff.1 read
  obtain ⟨body, _, two, read⟩ := bind_eq_done_iff.1 read
  obtain ⟨found, _, three, finished⟩ := bind_eq_done_iff.1 read
  cases finished
  obtain ⟨_, rfl, rfl, isSign⟩ := readsOnly_optionalSign one
  obtain ⟨_, rfl, rfl, isMantissa⟩ := readsOnly_mantissa two
  rcases optional_eq_done three with ⟨power, rfl, four⟩ | ⟨rfl, rfl, _⟩
  · obtain ⟨_, rfl, rfl, isExponent⟩ := readsOnly_exponent four
    exact ⟨sign ++ (body ++ power), by simp, by simp, sign, body, power, rfl, isSign, isMantissa,
      .inr isExponent⟩
  · exact ⟨sign ++ (body ++ []), by simp, by simp, sign, body, [], rfl, isSign, isMantissa, .inl rfl⟩

theorem IsMantissa.clear (mantissa : IsMantissa text) : Clear isSignChar (text ++ rest) := by
  obtain ⟨c, more, rfl, inside⟩ := mantissa.head
  exact clear_cons.2 (isSignChar_of_isMantissaChar inside)

theorem isMantissaChar_of_isExponentMark {c : Char} (mark : isExponentMark c = true) :
    isMantissaChar c = false :=
  either_elim (motive := fun c => isMantissaChar c = false) mark rfl rfl

theorem isNameChar_of_isMantissaChar {c : Char} (inside : isMantissaChar c = true) :
    isNameChar c = true := by
  rcases Bool.or_eq_true_iff.1 inside with digit | point
  · exact isNameChar_of_isWordChar (isWordChar_of_isDigit digit)
  · cases beq_iff_eq.1 point
    rfl

theorem isNameChar_of_isExponentMark {c : Char} (mark : isExponentMark c = true) : isNameChar c = true :=
  either_elim (motive := fun c => isNameChar c = true) mark rfl rfl

theorem readsAll_decimalLiteral : decimalLiteral.ReadsAll (Verbatim IsDecimal) (Clear isNameChar) := by
  rintro _ _ ⟨rfl, sign, body, power, rfl, isSign, isMantissa, isPower⟩ rest clear
  rw [List.append_assoc, List.append_assoc]
  refine bind_eq_done_iff.2 ⟨sign, _, readsAll_optionalSign ⟨rfl, isSign⟩ isMantissa.clear, ?_⟩
  rcases isPower with rfl | isExponent
  · have ends : Clear isMantissaChar rest := clear.mono fun _ => isNameChar_of_isMantissaChar
    have plain : exponent.Misses rest := misses_exponent (clear.mono fun _ => isNameChar_of_isExponentMark)
    refine bind_eq_done_iff.2 ⟨body, rest, readsAll_mantissa ⟨rfl, isMantissa⟩ ends, ?_⟩
    refine bind_eq_done_iff.2 ⟨none, rest, optional_of_misses plain, ?_⟩
    simp [pure, Reader.pure]
  · have ends : Clear isMantissaChar (power ++ rest) := by
      obtain ⟨mark, _, _, rfl, isMark, _⟩ := isExponent
      exact clear_cons.2 (isMantissaChar_of_isExponentMark isMark)
    have noDigit : Clear isDigit rest := clear.mono fun _ digit =>
      isNameChar_of_isWordChar (isWordChar_of_isDigit digit)
    refine bind_eq_done_iff.2 ⟨body, power ++ rest, readsAll_mantissa ⟨rfl, isMantissa⟩ ends, ?_⟩
    refine bind_eq_done_iff.2
      ⟨some power, rest, optional_of_done (readsAll_exponent ⟨rfl, isExponent⟩ noDigit), ?_⟩
    simp [pure, Reader.pure]

theorem misses_decimalLiteral (unsigned : Clear isSignChar text) (clear : Clear isMantissaChar text) :
    decimalLiteral.Misses text :=
  misses_bind_of_done (readsAll_optionalSign ⟨rfl, .inl rfl⟩ unsigned) (misses_mantissa clear).bind

/-- A number that ends with the mark of an exponent. -/
def BreaksOff (text : List Char) : Prop :=
  ∃ sign body mark tail, text = sign ++ (body ++ mark :: tail) ∧ IsSign sign ∧ IsMantissa body ∧
    isExponentMark mark = true ∧ ¬ StartsDigits tail

theorem sticks_decimalLiteral_iff : decimalLiteral.Sticks text ↔ BreaksOff text := by
  simp only [decimalLiteral, sticks_bind_iff, sticks_optional_iff, not_sticks_optionalSign,
    not_sticks_mantissa, sticks_exponent_iff, not_sticks_pure, false_or, and_false, exists_false,
    or_false]
  constructor
  · rintro ⟨sign, _, one, body, _, two, mark, tail, rfl, isMark, broken⟩
    obtain ⟨_, rfl, rfl, isSign⟩ := readsOnly_optionalSign one
    obtain ⟨_, rfl, rfl, isMantissa⟩ := readsOnly_mantissa two
    exact ⟨sign, body, mark, tail, rfl, isSign, isMantissa, isMark, broken⟩
  · rintro ⟨sign, body, mark, tail, rfl, isSign, isMantissa, isMark, broken⟩
    have ends : Clear isMantissaChar (mark :: tail) := clear_cons.2 (isMantissaChar_of_isExponentMark isMark)
    exact ⟨sign, _, readsAll_optionalSign ⟨rfl, isSign⟩ isMantissa.clear, body, _,
      readsAll_mantissa ⟨rfl, isMantissa⟩ ends, mark, tail, rfl, isMark, broken⟩

theorem hexLiteral_eq_done_iff {chars : List Char} :
    hexLiteral text = .done chars rest ↔
      text = chars ++ rest ∧ IsHexadecimal chars ∧ Clear isHexChar rest := by
  simp only [hexLiteral, bind_eq_done_iff, token_eq_done_iff, run1_eq_done_iff]
  constructor
  · rintro ⟨_, _, rfl, body, _, ⟨rfl, filled, run, clear⟩, finished⟩
    cases finished
    exact ⟨rfl, ⟨body, rfl, filled, run⟩, clear⟩
  · rintro ⟨rfl, ⟨body, rfl, filled, run⟩, clear⟩
    exact ⟨(), body ++ rest, rfl, body, rest, ⟨rfl, filled, run, clear⟩, rfl⟩

theorem not_sticks_hexLiteral : ¬ hexLiteral.Sticks text := by
  simp [hexLiteral, sticks_bind_iff, not_sticks_token, not_sticks_run1, not_sticks_pure]

theorem misses_hexLiteral_of_ne (other : ∀ more, text ≠ '0' :: 'x' :: more) : hexLiteral.Misses text := by
  refine (misses_token ?_).bind
  rintro ⟨more, rfl⟩
  exact other more rfl

/-- A decimal number is not taken for a hexadecimal one. -/
theorem misses_hexLiteral_of_decimal {sign body : List Char} (isSign : IsSign sign)
    (isMantissa : IsMantissa body) (clear : Clear (· == 'x') rest) :
    hexLiteral.Misses (sign ++ (body ++ rest)) := by
  apply misses_hexLiteral_of_ne
  intro more same
  rcases isSign with rfl | ⟨c, rfl, isSign⟩
  · obtain ⟨c, digits, rfl⟩ := List.exists_cons_of_ne_nil isMantissa.ne_nil
    obtain ⟨_, behind⟩ := List.cons.inj same
    cases digits with
    | nil =>
      have starts : rest = 'x' :: more := behind
      rw [starts] at clear
      exact Bool.noConfusion (clear_cons.1 clear)
    | cons digit digits =>
      obtain ⟨rfl, _⟩ := List.cons.inj behind
      exact Bool.noConfusion (isMantissa.chars 'x' (by simp))
  · obtain ⟨rfl, _⟩ := List.cons.inj same
    exact Bool.noConfusion isSign

/-! ### Operands -/

/-- A literal: a number or one of a few words. -/
inductive IsLiteral : List Char → Prop where
  | hexadecimal {text : List Char} (number : IsHexadecimal text) : IsLiteral text
  | decimal {text : List Char} (number : IsDecimal text) : IsLiteral text
  | word {text : List Char} (known : literalWords.contains (String.ofList text) = true) : IsLiteral text

end Instruction

open Instruction in
/-- An operand, as it stands in a line. -/
inductive Operand.Written : Operand → List Char → Prop where
  | reference {text : List Char} (name : IsName '%' text) : Written (.ref (String.ofList text)) text
  | symbol {text : List Char} (name : IsName '@' text) : Written (.ref (String.ofList text)) text
  | literal {text : List Char} (spelled : IsLiteral text) : Written (.literal (String.ofList text)) text

namespace Instruction

open Text Text.Reader

variable {text rest taken : List Char}

theorem readsOnly_literal :
    literal.ReadsOnly fun value taken => value = String.ofList taken ∧ IsLiteral taken := by
  intro text value rest read
  rcases orElse_eq_done read with read | ⟨_, read⟩
  · obtain ⟨chars, _, one, finished⟩ := bind_eq_done_iff.1 read
    cases finished
    obtain ⟨rfl, number, _⟩ := hexLiteral_eq_done_iff.1 one
    exact ⟨chars, rfl, rfl, .hexadecimal number⟩
  rcases orElse_eq_done read with read | ⟨_, read⟩
  · obtain ⟨chars, _, one, finished⟩ := bind_eq_done_iff.1 read
    cases finished
    obtain ⟨_, rfl, rfl, number⟩ := readsOnly_decimalLiteral one
    exact ⟨chars, rfl, rfl, .decimal number⟩
  · obtain ⟨found, one, judged⟩ := filterMap_eq_done_iff.1 read
    obtain ⟨chars, rfl, rfl, _⟩ := word_eq_done_iff.1 one
    obtain ⟨known, same⟩ := Option.ite_none_right_eq_some.1 judged
    cases same
    exact ⟨chars, rfl, rfl, .word known⟩

/-- Characters that a literal may start with. -/
def isLiteralStart (c : Char) : Bool :=
  isSignChar c || isMantissaChar c || isWordChar c

theorem word_of_literalWords (known : literalWords.contains (String.ofList text) = true) :
    (∀ c ∈ text, isWordChar c = true) ∧
      ∃ c more, text = c :: more ∧ isSignChar c = false ∧ isMantissaChar c = false := by
  have table : literalWords.all (fun word => word.toList.all isWordChar &&
      word.toList.head?.any fun c => !isSignChar c && !isMantissaChar c) = true := by decide
  have judged := List.all_eq_true.1 table _ (List.contains_iff_mem.1 known)
  rw [String.toList_ofList, Bool.and_eq_true, Option.any_eq_true] at judged
  obtain ⟨run, c, first, outside⟩ := judged
  obtain ⟨more, rfl⟩ := List.head?_eq_some_iff.1 first
  rw [Bool.and_eq_true, Bool.not_eq_true', Bool.not_eq_true'] at outside
  exact ⟨List.all_eq_true.1 run, c, more, rfl, outside⟩

theorem head_of_number {sign body : List Char} (isSign : IsSign sign) (isMantissa : IsMantissa body)
    (rest : List Char) :
    ∃ c more, sign ++ (body ++ rest) = c :: more ∧ isLiteralStart c = true := by
  rcases isSign with rfl | ⟨c, rfl, isSign⟩
  · obtain ⟨c, more, rfl, inside⟩ := isMantissa.head
    exact ⟨c, more ++ rest, rfl, by simp [isLiteralStart, inside]⟩
  · exact ⟨c, body ++ rest, rfl, by simp [isLiteralStart, isSign]⟩

theorem IsLiteral.head (spelled : IsLiteral text) :
    ∃ c more, text = c :: more ∧ isLiteralStart c = true := by
  cases spelled with
  | hexadecimal number =>
    obtain ⟨body, rfl, _⟩ := number
    exact ⟨'0', _, rfl, rfl⟩
  | decimal number =>
    obtain ⟨sign, body, power, rfl, isSign, isMantissa, _⟩ := number
    exact head_of_number isSign isMantissa power
  | word known =>
    obtain ⟨run, c, more, rfl, _⟩ := word_of_literalWords known
    exact ⟨c, more, rfl, by simp [isLiteralStart, run c List.mem_cons_self]⟩

theorem isNameChar_of_isHexChar {c : Char} (inside : isHexChar c = true) : isNameChar c = true := by
  have small : 'a' ≤ c ∧ c ≤ 'f' → c ≤ 'z' := fun between => Char.le_trans between.2 (by decide)
  have capital : 'A' ≤ c ∧ c ≤ 'F' → c ≤ 'Z' := fun between => Char.le_trans between.2 (by decide)
  simp only [isHexChar, Bool.or_eq_true, Bool.and_eq_true, beq_iff_eq, decide_eq_true_eq] at inside
  rcases inside with (((((((digit | lower) | upper) | rfl) | rfl) | rfl) | rfl) | rfl)
  · exact isNameChar_of_isWordChar (isWordChar_of_isDigit digit)
  · simp [isNameChar, isAlphanumeric, lower.1, small lower]
  · simp [isNameChar, isAlphanumeric, upper.1, capital upper]
  all_goals rfl

theorem readsAll_literal :
    literal.ReadsAll (fun value taken => value = String.ofList taken ∧ IsLiteral taken)
      (Clear isNameChar) := by
  rintro _ taken ⟨rfl, spelled⟩ rest clear
  cases spelled with
  | hexadecimal number =>
    have ends : Clear isHexChar rest := clear.mono fun _ => isNameChar_of_isHexChar
    exact orElse_of_done (bind_eq_done_iff.2
      ⟨taken, rest, hexLiteral_eq_done_iff.2 ⟨rfl, number, ends⟩, rfl⟩)
  | decimal number =>
    have notHex : hexLiteral.Misses (taken ++ rest) := by
      obtain ⟨sign, body, power, rfl, isSign, isMantissa, isPower⟩ := number
      rw [List.append_assoc, List.append_assoc]
      refine misses_hexLiteral_of_decimal isSign isMantissa ?_
      rcases isPower with rfl | ⟨mark, _, _, rfl, isMark, _⟩
      · exact clear.mono fun c same => by cases beq_iff_eq.1 same; rfl
      · refine clear_cons.2 (Bool.eq_false_iff.2 fun same => ?_)
        cases beq_iff_eq.1 same
        exact Bool.noConfusion isMark
    refine (orElse_of_misses notHex.bind).trans (orElse_of_done ?_)
    exact bind_eq_done_iff.2 ⟨taken, rest, readsAll_decimalLiteral ⟨rfl, number⟩ clear, rfl⟩
  | word known =>
    obtain ⟨run, c, more, rfl, unsigned, noNumber⟩ := word_of_literalWords known
    have notHex : hexLiteral.Misses (c :: more ++ rest) := by
      apply misses_hexLiteral_of_ne
      rintro behind same
      obtain ⟨rfl, _⟩ := List.cons.inj same
      exact Bool.noConfusion noNumber
    have notDecimal : decimalLiteral.Misses (c :: more ++ rest) :=
      misses_decimalLiteral (clear_cons.2 unsigned) (clear_cons.2 noNumber)
    refine (orElse_of_misses notHex.bind).trans ((orElse_of_misses notDecimal.bind).trans ?_)
    have isWord : IsWord (c :: more) := ⟨List.cons_ne_nil c more, run⟩
    have ends : Clear isWordChar rest := clear.mono fun _ => isNameChar_of_isWordChar
    exact filterMap_eq_done_iff.2 ⟨_, word_eq_done_iff.2 ⟨c :: more, rfl, rfl, isWord, ends⟩, if_pos known⟩

theorem sticks_literal_iff : literal.Sticks text ↔ BreaksOff text := by
  simp only [literal, sticks_orElse_iff, sticks_bind_iff, not_sticks_hexLiteral, sticks_decimalLiteral_iff,
    sticks_filterMap_iff, not_sticks_word, not_sticks_pure, false_or, and_false, exists_false, or_false]
  constructor
  · exact And.right
  · intro broken
    refine ⟨Misses.bind ?_, broken⟩
    obtain ⟨sign, body, mark, tail, rfl, isSign, isMantissa, isMark, _⟩ := broken
    refine misses_hexLiteral_of_decimal isSign isMantissa (clear_cons.2 (Bool.eq_false_iff.2 fun same => ?_))
    cases beq_iff_eq.1 same
    exact Bool.noConfusion isMark

theorem readsOnly_operand : operand.ReadsOnly Operand.Written := by
  intro text value rest read
  rcases orElse_eq_done read with read | ⟨_, read⟩
  · obtain ⟨_, _, one, finished⟩ := bind_eq_done_iff.1 read
    cases finished
    obtain ⟨name, rfl, rfl, isName, _⟩ := sigilName_eq_done_iff.1 one
    exact ⟨name, rfl, .reference isName⟩
  rcases orElse_eq_done read with read | ⟨_, read⟩
  · obtain ⟨_, _, one, finished⟩ := bind_eq_done_iff.1 read
    cases finished
    obtain ⟨name, rfl, rfl, isName, _⟩ := sigilName_eq_done_iff.1 one
    exact ⟨name, rfl, .symbol isName⟩
  · obtain ⟨_, _, one, finished⟩ := bind_eq_done_iff.1 read
    cases finished
    obtain ⟨chars, rfl, rfl, spelled⟩ := readsOnly_literal one
    exact ⟨chars, rfl, .literal spelled⟩

/-- What starts as a literal does is no name. -/
theorem misses_sigils {c : Char} (text : List Char) (starts : isLiteralStart c = true) :
    reference.Misses (c :: text) ∧ globalSymbol.Misses (c :: text) := by
  constructor
  · refine misses_sigilName fun same => ?_
    cases Option.some.inj same
    exact Bool.noConfusion starts
  · refine misses_sigilName fun same => ?_
    cases Option.some.inj same
    exact Bool.noConfusion starts

theorem readsAll_operand : operand.ReadsAll Operand.Written (Clear isNameChar) := by
  intro value taken written rest clear
  cases written with
  | reference isName =>
    exact orElse_of_done
      (bind_eq_done_iff.2 ⟨_, rest, sigilName_eq_done_iff.2 ⟨taken, rfl, rfl, isName, clear⟩, rfl⟩)
  | symbol isName =>
    have other : reference.Misses (taken ++ rest) := by
      obtain ⟨name, rfl, _⟩ := isName
      exact misses_sigilName (by simp)
    refine (orElse_of_misses other.bind).trans (orElse_of_done ?_)
    exact bind_eq_done_iff.2 ⟨_, rest, sigilName_eq_done_iff.2 ⟨taken, rfl, rfl, isName, clear⟩, rfl⟩
  | literal spelled =>
    have read : literal (taken ++ rest) = .done (String.ofList taken) rest :=
      readsAll_literal ⟨rfl, spelled⟩ clear
    obtain ⟨c, more, rfl, starts⟩ := spelled.head
    obtain ⟨noReference, noSymbol⟩ := misses_sigils (more ++ rest) starts
    refine (orElse_of_misses noReference.bind).trans ((orElse_of_misses noSymbol.bind).trans ?_)
    exact bind_eq_done_iff.2 ⟨_, rest, read, rfl⟩

theorem sticks_operand_iff : operand.Sticks text ↔ BreaksOff text := by
  simp only [operand, reference, globalSymbol, sticks_orElse_iff, sticks_bind_iff, not_sticks_sigilName,
    sticks_literal_iff, not_sticks_pure, false_or, and_false, exists_false, or_false]
  constructor
  · rintro ⟨_, _, broken⟩
    exact broken
  · intro broken
    obtain ⟨sign, body, mark, tail, same, isSign, isMantissa, _⟩ := id broken
    obtain ⟨c, more, starts, inside⟩ := head_of_number isSign isMantissa (mark :: tail)
    rw [← same] at starts
    subst starts
    obtain ⟨noReference, noSymbol⟩ := misses_sigils more inside
    exact ⟨noReference.bind, noSymbol.bind, broken⟩

end Instruction

end RegionFlow
