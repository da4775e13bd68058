/-
Module: RegionFlow.Proofs.Cutting
Purpose: What becomes of a text that is cut. Trimming drops blanks only, and trimming before and
  after a cut comes to the same; the parts between separators, and the terms between the signs of a
  chain, make the text again when they are put together; an equation between two terms without signs
  and brackets is cut at its sign alone.
Main exports: Text.exists_trim, Text.trim_append_cons, Text.splitOnce_eq_some,
  Text.join_splitAtLevel, Polyhedral.chainText_cutChain, Polyhedral.isPlain,
  Polyhedral.chain?_equation
-/
import Mathlib.Data.List.DropRight
import RegionFlow.Polyhedral.Bounds

namespace RegionFlow

namespace Text

/-! ### Trimming -/

/-- A text is its trimmed form with blanks around it. -/
theorem exists_trim (text : List Char) :
    ∃ before after, text = before ++ trim text ++ after ∧ (∀ c ∈ before, isBlank c = true) ∧
      ∀ c ∈ after, isBlank c = true := by
  refine ⟨text.takeWhile isBlank, ((trimStart text).reverse.takeWhile isBlank).reverse, ?_, ?_, ?_⟩
  · have ended : trimStart text =
        trim text ++ ((trimStart text).reverse.takeWhile isBlank).reverse := by
      rw [trim, trimEnd, ← List.reverse_append, List.takeWhile_append_dropWhile, List.reverse_reverse]
    rw [List.append_assoc, ← ended, trimStart, List.takeWhile_append_dropWhile]
  · intro c member
    exact List.mem_takeWhile_imp member
  · intro c member
    exact List.mem_takeWhile_imp (List.mem_reverse.1 member)

theorem mem_of_mem_trimStart {text : List Char} {c : Char} (member : c ∈ trimStart text) :
    c ∈ text :=
  (List.dropWhile_sublist isBlank).subset member

theorem mem_of_mem_trimEnd {text : List Char} {c : Char} (member : c ∈ trimEnd text) : c ∈ text :=
  List.mem_reverse.1 ((List.dropWhile_sublist isBlank).subset (List.mem_reverse.1 member))

theorem mem_of_mem_trim {text : List Char} {c : Char} (member : c ∈ trim text) : c ∈ text :=
  mem_of_mem_trimStart (mem_of_mem_trimEnd member)

theorem trimStart_append_cons {c : Char} (solid : isBlank c = false) (left right : List Char) :
    trimStart (left ++ c :: right) = trimStart left ++ c :: right := by
  have stays : (c :: right).dropWhile isBlank = c :: right := by simp [solid]
  rw [trimStart, List.dropWhile_append, stays]
  split
  · rename_i nothing
    rw [trimStart, List.isEmpty_iff.1 nothing, List.nil_append]
  · rfl

theorem trimEnd_append_cons {c : Char} (solid : isBlank c = false) (left right : List Char) :
    trimEnd (left ++ c :: right) = left ++ c :: trimEnd right := by
  have turned : (left ++ c :: right).reverse = right.reverse ++ c :: left.reverse := by simp
  have dropped := trimStart_append_cons solid right.reverse left.reverse
  rw [trimEnd, turned]
  rw [trimStart] at dropped
  rw [dropped, trimEnd]
  simp [trimStart]

/-- Where a text has a character that is not blank, each end is trimmed by itself. -/
theorem trim_append_cons {c : Char} (solid : isBlank c = false) (left right : List Char) :
    trim (left ++ c :: right) = trimStart left ++ c :: trimEnd right := by
  rw [trim, trimStart_append_cons solid, trimEnd_append_cons solid]

theorem trim_trimStart (text : List Char) : trim (trimStart text) = trim text := by
  rw [trim, trimStart, trimStart, List.dropWhile_idempotent, trim, trimStart]

theorem trimEnd_trimEnd (text : List Char) : trimEnd (trimEnd text) = trimEnd text :=
  List.rdropWhile_idempotent isBlank text

theorem trim_trimEnd (text : List Char) : trim (trimEnd text) = trim text := by
  have parts := List.takeWhile_append_dropWhile (p := isBlank) (l := text)
  cases rest : text.dropWhile isBlank with
  | nil =>
    have blank : ∀ c ∈ text, isBlank c = true := List.dropWhile_eq_nil_iff.1 rest
    have nothing : trimEnd text = [] := List.rdropWhile_eq_nil_iff.2 blank
    rw [nothing, trim, trim, trimStart, trimStart, rest]
    rfl
  | cons c right =>
    have solid : isBlank c = false := by
      have first := List.head?_dropWhile_not isBlank text
      rw [rest] at first
      simpa using first
    rw [rest] at parts
    rw [← parts, trimEnd_append_cons solid, trim_append_cons solid, trim_append_cons solid,
      trimEnd_trimEnd]

/-! ### Separators -/

/-- The mark of a cut is the first one in the text. -/
theorem splitOnce_eq_some {mark : Char} {text left right : List Char}
    (cut : splitOnce mark text = some (left, right)) :
    text = left ++ mark :: right ∧ mark ∉ left := by
  induction text generalizing left with
  | nil => cases cut
  | cons c rest ih =>
    rw [splitOnce] at cut
    split at cut
    · rename_i found
      cases cut
      rw [beq_iff_eq.1 found]
      exact ⟨rfl, List.not_mem_nil⟩
    · rename_i other
      obtain ⟨⟨front, back⟩, cutRest, same⟩ := Option.map_eq_some_iff.1 cut
      cases same
      obtain ⟨rfl, absent⟩ := ih cutRest
      refine ⟨rfl, fun member => ?_⟩
      rcases List.mem_cons.1 member with rfl | later
      · exact other (beq_self_eq_true _)
      · exact absent later

theorem splitOnce_append {mark : Char} {left : List Char} (absent : mark ∉ left)
    (right : List Char) : splitOnce mark (left ++ mark :: right) = some (left, right) := by
  induction left with
  | nil => simp [splitOnce]
  | cons c left ih =>
    rw [List.mem_cons, not_or] at absent
    have other : (c == mark) = false := by simpa using Ne.symm absent.1
    rw [List.cons_append, splitOnce, other, if_neg Bool.false_ne_true, ih absent.2]
    rfl

theorem splitOnce_eq_none_iff {mark : Char} {text : List Char} :
    splitOnce mark text = none ↔ mark ∉ text := by
  constructor
  · intro uncut member
    obtain ⟨left, right, rfl, absent⟩ := List.eq_append_cons_of_mem member
    rw [splitOnce_append absent] at uncut
    cases uncut
  · intro absent
    cases cut : splitOnce mark text with
    | none => rfl
    | some parts =>
      obtain ⟨spelled, -⟩ := splitOnce_eq_some cut
      exact absurd (spelled ▸ List.mem_append_right _ List.mem_cons_self) absent

theorem join_cons (separator part : List Char) {parts : List (List Char)} (some : parts ≠ []) :
    join separator (part :: parts) = part ++ separator ++ join separator parts := by
  cases parts with
  | nil => exact absurd rfl some
  | cons next parts => rfl

theorem join_consHead (separator : List Char) (c : Char) {parts : List (List Char)}
    (some : parts ≠ []) : join separator (consHead c parts) = c :: join separator parts := by
  cases parts with
  | nil => exact absurd rfl some
  | cons part parts => cases parts <;> rfl

theorem splitAtLevel_ne_nil {weight : Char → Int} {separator : List Char} (level : Int) (skip : Nat)
    (text : List Char) : splitAtLevel weight separator level skip text ≠ [] := by
  induction text generalizing level skip with
  | nil => exact List.cons_ne_nil _ _
  | cons c rest ih =>
    cases skip with
    | succ skip => exact ih level skip
    | zero =>
      rw [splitAtLevel]
      split
      · exact List.cons_ne_nil _ _
      · unfold consHead
        split <;> exact List.cons_ne_nil _ _

/-- Parts that are joined with the separator make the text again, except for what is skipped. -/
theorem join_splitAtLevel {weight : Char → Int} {separator : List Char} (solid : separator ≠ [])
    (level : Int) (skip : Nat) (text : List Char) :
    join separator (splitAtLevel weight separator level skip text) = text.drop skip := by
  induction text generalizing level skip with
  | nil => simp [splitAtLevel, join]
  | cons c rest ih =>
    cases skip with
    | succ skip => exact ih level skip
    | zero =>
      rw [splitAtLevel]
      split
      · rename_i cut
        -- the separator is the front of the text, and the rest of it is skipped
        obtain ⟨tail, text⟩ := List.isPrefixOf_iff_prefix.1 (Bool.and_eq_true_iff.1 cut).2
        rw [join_cons _ _ (splitAtLevel_ne_nil _ _ _), ih]
        cases separator with
        | nil => exact absurd rfl solid
        | cons d more =>
          cases text
          simp
      · rw [join_consHead _ _ (splitAtLevel_ne_nil _ _ _), ih]
        rfl

/-- A text without the first character of another does not hold that other. -/
theorem occurs_eq_false {c : Char} {part text : List Char} (absent : c ∉ text) :
    occurs (c :: part) text = false := by
  induction text with
  | nil => rfl
  | cons d rest ih =>
    rw [List.mem_cons, not_or] at absent
    simp [occurs, ih absent.2, List.isPrefixOf, absent.1]

end Text

namespace Polyhedral

open Text

/-! ### Chains -/

/-- The text of a chain: its first term, then each sign with the term behind it. -/
def chainText (chain : List Char × List (Comparison × List Char)) : List Char :=
  chain.1 ++ chain.2.flatMap fun entry => entry.1.sign.toList ++ entry.2

theorem chainText_cons (comparison : Comparison) (term : List Char)
    (more : List (Comparison × List Char)) :
    chainText ([], (comparison, term) :: more) =
      comparison.sign.toList ++ chainText (term, more) := by
  simp [chainText]

theorem cutChain_eq (rest : List Char) :
    cutChain 0 ('=' :: rest) = ([], (.eq, (cutChain 0 rest).1) :: (cutChain 0 rest).2) := by
  conv_lhs => unfold cutChain
  rw [if_neg (by decide), if_neg (by decide), if_pos (by decide)]

/-- A character starts a sign, behind which the chain goes on, or it belongs to the first term. -/
theorem cutChain_cases (level : Int) (c : Char) (rest : List Char) :
    (∃ comparison tail, c :: rest = comparison.sign.toList ++ tail ∧
      cutChain level (c :: rest) =
        ([], (comparison, (cutChain level tail).1) :: (cutChain level tail).2)) ∨
    ∃ inner, cutChain level (c :: rest) =
      (c :: (cutChain inner rest).1, (cutChain inner rest).2) := by
  by_cases lt : level = 0 ∧ c = '<'
  · obtain ⟨rfl, rfl⟩ := lt
    left
    rcases rest with _ | ⟨d, rest⟩
    · exact ⟨.lt, [], rfl, by simp [cutChain]⟩
    · by_cases same : d = '='
      · subst same
        exact ⟨.le, rest, rfl, by simp [cutChain]⟩
      · exact ⟨.lt, d :: rest, rfl, by simp [cutChain, same]⟩
  by_cases gt : level = 0 ∧ c = '>'
  · obtain ⟨rfl, rfl⟩ := gt
    left
    rcases rest with _ | ⟨d, rest⟩
    · exact ⟨.gt, [], rfl, by simp [cutChain]⟩
    · by_cases same : d = '='
      · subst same
        exact ⟨.ge, rest, rfl, by simp [cutChain]⟩
      · exact ⟨.gt, d :: rest, rfl, by simp [cutChain, same]⟩
  by_cases eq : level = 0 ∧ c = '='
  · obtain ⟨rfl, rfl⟩ := eq
    exact .inl ⟨.eq, rest, rfl, cutChain_eq rest⟩
  · right
    conv in cutChain level (c :: rest) => unfold cutChain
    rw [if_neg lt, if_neg gt, if_neg eq]
    exact ⟨_, rfl⟩

/-- Nothing is lost when a text is cut at its signs. -/
theorem chainText_cutChain (level : Int) (text : List Char) :
    chainText (cutChain level text) = text := by
  -- a sign may have two characters, so the induction is on the length of the text
  induction counted : text.length using Nat.strong_induction_on generalizing level text with
  | _ size ih =>
    cases text with
    | nil => rfl
    | cons c rest =>
      rcases cutChain_cases level c rest with ⟨comparison, tail, spelled, cut⟩ | ⟨inner, cut⟩
      · have shorter : tail.length < size := by
          rw [← counted, spelled, List.length_append]
          cases comparison <;> simp [Comparison.sign]
        rw [cut, chainText_cons, ih tail.length shorter level tail rfl, ← spelled]
      · have shorter : rest.length < size := by
          rw [← counted, List.length_cons]
          exact Nat.lt_succ_self _
        have behind := ih rest.length shorter inner rest rfl
        rw [cut]
        rw [chainText] at behind ⊢
        rw [List.cons_append, behind]

/-- The characters that take part in cutting a chain: signs and brackets. -/
def chainMarks : List Char := ['<', '>', '=', '(', ')', '[', ']']

/-- A character that neither compares nor opens or closes a bracket. -/
def isPlain (c : Char) : Bool :=
  !chainMarks.contains c

theorem isPlain_iff {c : Char} : isPlain c = true ↔ c ∉ chainMarks := by
  simp [isPlain]

/-- Characters of a class without marks are plain. -/
theorem isPlain_of_class {test : Char → Bool} (fails : chainMarks.any test = false) {c : Char}
    (passes : test c = true) : isPlain c = true := by
  rw [isPlain_iff]
  intro member
  exact Bool.false_ne_true (fails.symm.trans (List.any_eq_true.2 ⟨c, member, passes⟩))

theorem cutChain_cons {c : Char} (plain : isPlain c = true) (rest : List Char) :
    cutChain 0 (c :: rest) = (c :: (cutChain 0 rest).1, (cutChain 0 rest).2) := by
  simp only [isPlain_iff, chainMarks, List.mem_cons, List.not_mem_nil, or_false, not_or] at plain
  obtain ⟨lt, gt, eq, opening, closing, bracket, unbracket⟩ := plain
  conv_lhs => unfold cutChain
  rw [if_neg fun both => lt both.2, if_neg fun both => gt both.2, if_neg fun both => eq both.2]
  split
  · exact absurd rfl opening
  · exact absurd rfl bracket
  · exact absurd rfl closing
  · exact absurd rfl unbracket
  · rfl

/-- Plain characters at the front belong to the first term of a chain. -/
theorem cutChain_append {front : List Char} (plain : ∀ c ∈ front, isPlain c = true)
    (rest : List Char) :
    cutChain 0 (front ++ rest) = (front ++ (cutChain 0 rest).1, (cutChain 0 rest).2) := by
  induction front with
  | nil => rfl
  | cons c front ih =>
    have later := ih fun d member => plain d (List.mem_cons_of_mem c member)
    rw [List.cons_append, cutChain_cons (plain c List.mem_cons_self), later]
    rfl

/-- A text with one sign of equality and plain characters around it is a chain of two terms. -/
theorem cutChain_equation {left right : List Char} (plainLeft : ∀ c ∈ left, isPlain c = true)
    (plainRight : ∀ c ∈ right, isPlain c = true) :
    cutChain 0 (left ++ '=' :: right) = (left, [(.eq, right)]) := by
  have behind : cutChain 0 right = (right, []) := by
    simpa [cutChain] using cutChain_append plainRight []
  rw [cutChain_append plainLeft, cutChain_eq, behind, List.append_nil]

/-- An equation between plain terms is a chain of one link, trimmed or not. -/
theorem chain?_equation {left right : List Char} (plainLeft : ∀ c ∈ left, isPlain c = true)
    (plainRight : ∀ c ∈ right, isPlain c = true) (solidLeft : trim left ≠ [])
    (solidRight : trim right ≠ []) (equation : '!' ∉ left ++ '=' :: right) :
    chain? (trim (left ++ '=' :: right)) =
      some [⟨String.ofList (trim left), .eq, String.ofList (trim right)⟩] := by
  have cut : trim (left ++ '=' :: right) = trimStart left ++ '=' :: trimEnd right :=
    trim_append_cons (by decide) left right
  have start := fun c member => plainLeft c (mem_of_mem_trimStart member)
  have ending := fun c member => plainRight c (mem_of_mem_trimEnd member)
  have absent : occurs ['!', '='] (trim (left ++ '=' :: right)) = false :=
    occurs_eq_false fun member => equation (mem_of_mem_trim member)
  rw [chain?, absent, if_neg Bool.false_ne_true, cut, cutChain_equation start ending]
  simp [linksFrom, trim_trimStart, trim_trimEnd, solidLeft, solidRight]

end Polyhedral

end RegionFlow
