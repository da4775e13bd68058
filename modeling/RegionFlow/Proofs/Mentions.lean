/-
Module: RegionFlow.Proofs.Mentions
Purpose: Which names a text mentions. The names are what stands between blanks, brackets, signs and
  punctuation, without the digits of a factor in front, unless it is a word of the notation. The
  terms of the links that constraints are taken apart into mention names of the constraints only,
  also after tightening by one.
Main exports: Text.mentions, Text.MentionsOnly, Polyhedral.linksOf, Polyhedral.mentions_of_linksOf,
  Polyhedral.mentions_shift
-/
import RegionFlow.Proofs.Cutting

namespace RegionFlow

namespace Text

/-- Brackets, signs and punctuation. -/
def nameMarks : List Char := "()[]\x7b\x7d<>=!+-*/%,:;".toList

/-- A character that belongs to no name. -/
def separatesNames (c : Char) : Bool :=
  isBlank c || nameMarks.contains c

theorem separatesNames_of_isDigit {c : Char} (digit : isDigit c = true) :
    separatesNames c = false := by
  have range : 48 ≤ c.toNat ∧ c.toNat ≤ 57 := by
    simpa [isDigit, Char.le_def, UInt32.le_iff_toNat_le] using digit
  have marks : nameMarks.any isDigit = false := by decide
  rw [separatesNames, Bool.or_eq_false_iff]
  constructor
  · simp [isBlank]
    omega
  · apply Bool.eq_false_iff.2
    intro member
    exact Bool.false_ne_true
      (marks.symm.trans (List.any_eq_true.2 ⟨c, List.contains_iff_mem.1 member, digit⟩))

/-- The words of polyhedral text that are no names. -/
def reservedWords : List String :=
  ["and", "or", "not", "exists", "implies", "true", "false", "mod", "floor", "ceil", "floord",
    "ceild", "min", "max"]

/-- The name that a stretch of other characters is, if it is one; `2i` is twice `i`. -/
def nameOf (stretch : List Char) : Option String :=
  let name := String.ofList (stretch.dropWhile isDigit)
  if name.isEmpty || reservedWords.contains name then none else some name

/-- The names that a text mentions, in order. -/
def mentions (text : List Char) : List String :=
  (text.splitOnP separatesNames).filterMap nameOf

/-- A text mentions only the given names. -/
def MentionsOnly (names : List String) (text : String) : Prop :=
  ∀ name ∈ mentions text.toList, name ∈ names

instance (names : List String) (text : String) : Decidable (MentionsOnly names text) :=
  inferInstanceAs (Decidable (∀ name ∈ mentions text.toList, name ∈ names))

@[simp] theorem mentions_nil : mentions [] = [] := by decide

/-- Names end where a separating character stands. -/
theorem mentions_append_cons {c : Char} (separates : separatesNames c = true)
    (left right : List Char) :
    mentions (left ++ c :: right) = mentions left ++ mentions right := by
  rw [mentions, List.splitOnP_append_cons left right separates, List.filterMap_append]
  rfl

theorem mentions_cons {c : Char} (separates : separatesNames c = true) (text : List Char) :
    mentions (c :: text) = mentions text := by
  simpa using mentions_append_cons separates [] text

theorem mentions_append_left {front : List Char}
    (separate : ∀ c ∈ front, separatesNames c = true) (text : List Char) :
    mentions (front ++ text) = mentions text := by
  induction front with
  | nil => rfl
  | cons c front ih =>
    rw [List.cons_append, mentions_cons (separate c List.mem_cons_self)]
    exact ih fun d member => separate d (List.mem_cons_of_mem c member)

theorem mentions_append_right {back : List Char} (separate : ∀ c ∈ back, separatesNames c = true)
    (text : List Char) : mentions (text ++ back) = mentions text := by
  cases back with
  | nil => rw [List.append_nil]
  | cons c back =>
    rw [mentions_append_cons (separate c List.mem_cons_self)]
    have nothing := mentions_append_left
      (fun d member => separate d (List.mem_cons_of_mem c member)) []
    rw [List.append_nil] at nothing
    rw [nothing, mentions_nil, List.append_nil]

theorem mentions_trim (text : List Char) : mentions (trim text) = mentions text := by
  obtain ⟨before, after, parts, blankBefore, blankAfter⟩ := exists_trim text
  have separates : ∀ {c}, isBlank c = true → separatesNames c = true := by
    intro c blank
    rw [separatesNames, blank, Bool.true_or]
  conv_rhs => rw [parts]
  rw [mentions_append_right fun c member => separates (blankAfter c member),
    mentions_append_left fun c member => separates (blankBefore c member)]

/-- Names end where separating characters stand. -/
theorem mentions_append_append {middle : List Char} (some : middle ≠ [])
    (separate : middle.all separatesNames = true) (left right : List Char) :
    mentions (left ++ (middle ++ right)) = mentions left ++ mentions right := by
  rw [List.all_eq_true] at separate
  cases middle with
  | nil => exact absurd rfl some
  | cons c middle =>
    rw [List.cons_append, mentions_append_cons (separate c List.mem_cons_self),
      mentions_append_left fun d member => separate d (List.mem_cons_of_mem c member)]

/-- A conjunction mentions what its conjuncts mention: the word between them is no name. -/
theorem mentions_join (parts : List (List Char)) :
    mentions (join " and ".toList parts) = parts.flatMap mentions := by
  induction parts with
  | nil => rfl
  | cons part parts ih =>
    cases parts with
    | nil => simp [join]
    | cons next parts =>
      have word : mentions "and".toList = [] := by decide
      have spelled : join " and ".toList (part :: next :: parts) =
          part ++ ' ' :: ("and".toList ++ ' ' :: join " and ".toList (next :: parts)) := by
        simp [join]
      rw [spelled, mentions_append_cons (by decide), mentions_append_cons (by decide), word, ih]
      rfl

/-- Digits are no name. -/
theorem mentions_digits {text : List Char} (digits : ∀ c ∈ text, isDigit c = true) :
    mentions text = [] := by
  have whole : text.splitOnP separatesNames = [text] := by
    apply List.splitOnP_eq_singleton
    intro c member
    exact separatesNames_of_isDigit (digits c member)
  have dropped : text.dropWhile isDigit = [] := List.dropWhile_eq_nil_iff.2 digits
  rw [mentions, whole]
  simp [nameOf, dropped]

/-- A number is written with digits. -/
theorem isDigit_of_mem_toString {number : Nat} {c : Char} (member : c ∈ (toString number).toList) :
    isDigit c = true := by
  rw [Nat.toString_eq_repr, Nat.toList_repr] at member
  simpa [isDigit, Char.isDigit, Char.le_def] using
    Nat.isDigit_of_mem_toDigits (by decide) (by decide) member

theorem mentions_intText (value : Int) : mentions (intText value).toList = [] := by
  have digits : ∀ (number : Nat), mentions (toString number).toList = [] := by
    intro number
    apply mentions_digits
    intro c member
    exact isDigit_of_mem_toString member
  cases value with
  | ofNat number => exact digits number
  | negSucc number =>
    have spelled : (intText (.negSucc number)).toList = '-' :: (toString (number + 1)).toList := by
      simp [intText]
    rw [spelled, mentions_cons (by decide), digits]

end Text

namespace Polyhedral

open Text

theorem mentions_chainText (first : List Char) (more : List (Comparison × List Char)) :
    mentions (chainText (first, more)) =
      mentions first ++ more.flatMap fun entry => mentions entry.2 := by
  induction more generalizing first with
  | nil => simp [chainText]
  | cons entry more ih =>
    obtain ⟨comparison, term⟩ := entry
    have sign : comparison.sign.toList ≠ [] ∧ comparison.sign.toList.all separatesNames = true := by
      cases comparison <;> decide
    have spelled : chainText (first, (comparison, term) :: more) =
        first ++ (comparison.sign.toList ++ chainText (term, more)) := by
      simp [chainText]
    rw [spelled, mentions_append_append sign.1 sign.2, ih, List.flatMap_cons]

/-- The names that the terms of a link mention. -/
def Link.mentions (link : Link) : List String :=
  Text.mentions link.left.toList ++ Text.mentions link.right.toList

theorem mentions_of_linksFrom {left : String} {more : List (Comparison × List Char)} {link : Link}
    (member : link ∈ linksFrom left more) {name : String} (mentioned : name ∈ link.mentions) :
    name ∈ Text.mentions left.toList ++ more.flatMap fun entry => Text.mentions entry.2 := by
  induction more generalizing left with
  | nil => cases member
  | cons entry more ih =>
    obtain ⟨comparison, term⟩ := entry
    have right : Text.mentions (String.ofList (trim term)).toList = Text.mentions term := by
      rw [String.toList_ofList, mentions_trim]
    rw [List.flatMap_cons, List.mem_append, List.mem_append]
    rcases List.mem_cons.1 member with rfl | later
    · rw [Link.mentions, right, List.mem_append] at mentioned
      exact mentioned.imp_right .inl
    · have found := ih later
      rw [right, List.mem_append] at found
      exact .inr found

/-- The links of the chains that a conjunction is made of. -/
def linksOf (conjunction : List Char) : List Link :=
  (splitTop " and ".toList conjunction).flatMap fun conjunct => (chain? (trim conjunct)).getD []

/-- The terms of the links mention names of the conjunction only. -/
theorem mentions_of_linksOf {conjunction : List Char} {link : Link}
    (member : link ∈ linksOf conjunction) {name : String} (mentioned : name ∈ link.mentions) :
    name ∈ Text.mentions conjunction := by
  obtain ⟨conjunct, part, listed⟩ := List.mem_flatMap.1 member
  have inConjunct : name ∈ Text.mentions conjunct := by
    rw [← mentions_trim, ← chainText_cutChain 0 (trim conjunct)]
    unfold chain? at listed
    split at listed
    · cases listed
    · dsimp only at listed
      split at listed
      · cases listed
      · have found := mentions_of_linksFrom listed mentioned
        rw [String.toList_ofList, mentions_trim] at found
        rw [← mentions_chainText] at found
        exact found
  have joined : join " and ".toList (splitTop " and ".toList conjunction) = conjunction :=
    join_splitAtLevel (by decide) 0 0 conjunction
  rw [← joined, mentions_join]
  exact List.mem_flatMap.2 ⟨conjunct, part, inConjunct⟩

/-- Moving a term brings in no name. -/
theorem mentions_shift {term : String} {delta : Int} {name : String}
    (mentioned : name ∈ Text.mentions (Bounds.shift term delta).toList) :
    name ∈ Text.mentions term.toList := by
  unfold Bounds.shift at mentioned
  split at mentioned
  · rw [mentions_intText] at mentioned
    cases mentioned
  · have behind : ∀ (sign : List Char) (number : Int), sign ≠ [] →
        sign.all separatesNames = true →
        Text.mentions (term.toList ++ (sign ++ (intText number).toList)) =
          Text.mentions term.toList := by
      intro sign number some separate
      rw [mentions_append_append some separate, mentions_intText, List.append_nil]
    split at mentioned <;>
      · rw [String.toList_append, String.toList_append, List.append_assoc,
          behind _ _ (by decide) (by decide)] at mentioned
        exact mentioned

end Polyhedral

end RegionFlow
