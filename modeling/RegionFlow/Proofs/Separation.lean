/-
Module: RegionFlow.Proofs.Separation
Purpose: Cutting a text and joining parts are inverse to each other. A separator is seen at level
  zero only; parts in none of which it is seen, and after each of which but the last the level is
  zero again, are found again when they are joined, and those that are found are such parts. Another
  separator that is not seen in the text is not seen in its parts, nor in what is put together from
  them. With brackets as weights, cuts are made at level zero and nowhere else, also where brackets
  do not match.
Main exports: Text.weigh, Text.Uncut, Text.Separated, Text.splitAtLevel_eq_iff, Text.Solid,
  Text.splitTop_exact
-/
import Mathlib.Algebra.Ring.Int.Defs
import RegionFlow.Proofs.Cutting

namespace RegionFlow.Text

/-! ### Levels -/

/-- How much a text raises the level. -/
def weigh (weight : Char → Int) (text : List Char) : Int :=
  (text.map weight).sum

section

variable {weight : Char → Int} {left right text : List Char} {c : Char}

@[simp] theorem weigh_nil : weigh weight [] = 0 := rfl

@[simp] theorem weigh_cons : weigh weight (c :: text) = weight c + weigh weight text := by
  simp [weigh]

@[simp] theorem weigh_append :
    weigh weight (left ++ right) = weigh weight left + weigh weight right := by
  simp [weigh]

theorem weigh_eq_zero (weightless : ∀ c ∈ text, weight c = 0) : weigh weight text = 0 := by
  induction text with
  | nil => rfl
  | cons c text ih =>
    rw [List.forall_mem_cons] at weightless
    rw [weigh_cons, weightless.1, ih weightless.2, Int.add_zero]

/-- Characters without weight do not count. -/
theorem weigh_filter {keep : Char → Bool} (others : ∀ c, keep c = false → weight c = 0)
    (text : List Char) : weigh weight (text.filter keep) = weigh weight text := by
  induction text with
  | nil => rfl
  | cons c text ih =>
    cases kept : keep c with
    | true => rw [List.filter_cons_of_pos kept, weigh_cons, weigh_cons, ih]
    | false =>
      rw [List.filter_cons_of_neg (by simp [kept]), ih, weigh_cons, others c kept, Int.zero_add]

end

/-! ### Texts in which a separator is not seen -/

/-- No separator starts in the text where the level is zero; `level` is the level before the text. -/
def Uncut (weight : Char → Int) (separator : List Char) (level : Int) : List Char → Prop
  | [] => True
  | c :: rest =>
    ¬(level + weight c = 0 ∧ separator <+: c :: rest) ∧
      Uncut weight separator (level + weight c) rest

section

variable {weight : Char → Int} {mark : Char} {tail : List Char} {level : Int} {text : List Char}

theorem Uncut.of_append {left right : List Char}
    (uncut : Uncut weight (mark :: tail) level (left ++ right)) :
    Uncut weight (mark :: tail) level left ∧
      Uncut weight (mark :: tail) (level + weigh weight left) right := by
  induction left generalizing level with
  | nil => simpa [Uncut] using uncut
  | cons c left ih =>
    obtain ⟨first, later⟩ := uncut
    obtain ⟨front, back⟩ := ih later
    refine ⟨⟨fun both => first ⟨both.1, ?_⟩, front⟩, ?_⟩
    · exact both.2.trans (List.prefix_append (c :: left) right)
    · rw [weigh_cons, ← Int.add_assoc]
      exact back

/-- What is the front of two texts, and has nothing of the second, is the front of the first. -/
theorem prefix_of_prefix_append {front left right : List Char}
    (starts : front <+: left ++ right) (apart : ∀ c ∈ right.head?, c ∉ front) : front <+: left := by
  induction left generalizing front with
  | nil =>
    cases front with
    | nil => exact List.prefix_rfl
    | cons c front =>
      obtain ⟨rest, rfl⟩ := starts
      exact absurd List.mem_cons_self (apart c rfl)
  | cons d left ih =>
    cases front with
    | nil => exact List.nil_prefix
    | cons c front =>
      obtain ⟨same, behind⟩ := List.cons_prefix_cons.1 starts
      refine List.cons_prefix_cons.2 ⟨same, ih behind fun e first member => ?_⟩
      exact apart e first (List.mem_cons_of_mem c member)

/-- Two texts can be put together if the second does not go on with the separator. -/
theorem Uncut.append {left right : List Char} (front : Uncut weight (mark :: tail) level left)
    (back : Uncut weight (mark :: tail) (level + weigh weight left) right)
    (apart : ∀ c ∈ right.head?, c ∉ tail) : Uncut weight (mark :: tail) level (left ++ right) := by
  induction left generalizing level with
  | nil => simpa using back
  | cons c left ih =>
    obtain ⟨first, later⟩ := front
    rw [weigh_cons, ← Int.add_assoc] at back
    refine ⟨fun both => first ⟨both.1, ?_⟩, ih later back⟩
    obtain ⟨same, behind⟩ := List.cons_prefix_cons.1 both.2
    exact List.cons_prefix_cons.2 ⟨same, prefix_of_prefix_append behind apart⟩

theorem Uncut.cons {c : Char} (other : c ≠ mark)
    (behind : Uncut weight (mark :: tail) (level + weight c) text) :
    Uncut weight (mark :: tail) level (c :: text) :=
  ⟨fun both => other (List.cons_prefix_cons.1 both.2).1.symm, behind⟩

theorem Uncut.prepend {front : List Char} (absent : mark ∉ front)
    (behind : Uncut weight (mark :: tail) (level + weigh weight front) text) :
    Uncut weight (mark :: tail) level (front ++ text) := by
  induction front generalizing level with
  | nil => simpa using behind
  | cons c front ih =>
    rw [List.mem_cons, not_or] at absent
    rw [weigh_cons, ← Int.add_assoc] at behind
    exact .cons (Ne.symm absent.1) (ih absent.2 behind)

theorem uncut_of_not_mem (absent : mark ∉ text) : Uncut weight (mark :: tail) level text := by
  rw [← List.append_nil text]
  exact .prepend absent trivial

/-- A text can be followed by one that has nothing of the separator. -/
theorem Uncut.append_of_not_mem {back : List Char} (uncut : Uncut weight (mark :: tail) level text)
    (absent : ∀ c ∈ mark :: tail, c ∉ back) : Uncut weight (mark :: tail) level (text ++ back) := by
  apply uncut.append (uncut_of_not_mem (absent mark List.mem_cons_self))
  intro c first member
  exact absent c (List.mem_cons_of_mem mark member) (List.mem_of_mem_head? first)

end

/-! ### Parts -/

/-- Parts as a cut makes them: in none is the separator seen, and after each but the last the level
    is zero. -/
structure Separated (weight : Char → Int) (separator : List Char) (parts : List (List Char)) :
    Prop where
  uncut : ∀ part ∈ parts, Uncut weight separator 0 part
  level : parts.Pairwise fun part _ => weigh weight part = 0

section

variable {weight : Char → Int} {mark : Char} {tail : List Char} {parts : List (List Char)}

theorem separated_singleton {separator part : List Char} (uncut : Uncut weight separator 0 part) :
    Separated weight separator [part] :=
  ⟨by simpa using uncut, by simp⟩

theorem separated_cons_cons {separator part next : List Char} :
    Separated weight separator (part :: next :: parts) ↔
      (Uncut weight separator 0 part ∧ weigh weight part = 0) ∧
        Separated weight separator (next :: parts) := by
  constructor
  · intro separated
    obtain ⟨first, later⟩ := List.forall_mem_cons.1 separated.uncut
    obtain ⟨flat, level⟩ := List.pairwise_cons.1 separated.level
    exact ⟨⟨first, flat next List.mem_cons_self⟩, later, level⟩
  · rintro ⟨⟨first, flat⟩, later, level⟩
    exact ⟨List.forall_mem_cons.2 ⟨first, later⟩, List.pairwise_cons.2 ⟨fun _ _ => flat, level⟩⟩

theorem Separated.sublist {separator : List Char} {some : List (List Char)}
    (separated : Separated weight separator parts) (sub : some.Sublist parts) :
    Separated weight separator some :=
  ⟨fun part member => separated.uncut part (sub.subset member), separated.level.sublist sub⟩

/-- Parts stay separated if each is changed without effect on the level and without bringing a
    separator in. -/
theorem Separated.map {separator : List Char} {change : List Char → List Char}
    (separated : Separated weight separator parts)
    (uncut : ∀ {part}, Uncut weight separator 0 part → Uncut weight separator 0 (change part))
    (flat : ∀ part, weigh weight (change part) = weigh weight part) :
    Separated weight separator (parts.map change) := by
  constructor
  · intro part member
    obtain ⟨old, listed, rfl⟩ := List.mem_map.1 member
    exact uncut (separated.uncut old listed)
  · rw [List.pairwise_map]
    exact separated.level.imp fun level => (flat _).trans level

/-- Skipping is dropping. -/
theorem splitAtLevel_skip {separator : List Char} (level : Int) (skip : Nat) (text : List Char) :
    splitAtLevel weight separator level skip text =
      splitAtLevel weight separator level 0 (text.drop skip) := by
  induction text generalizing skip with
  | nil => simp [splitAtLevel]
  | cons c text ih =>
    cases skip with
    | zero => rfl
    | succ skip => exact ih skip

/-- Where a separator is seen, the text is cut. -/
theorem splitAtLevel_seen (weightless : weight mark = 0) (right : List Char) :
    splitAtLevel weight (mark :: tail) 0 0 (mark :: (tail ++ right)) =
      [] :: splitAtLevel weight (mark :: tail) 0 0 right := by
  have seen : (mark :: tail).isPrefixOf (mark :: (tail ++ right)) = true :=
    List.isPrefixOf_iff_prefix.2 ⟨right, rfl⟩
  have skipped : (tail ++ right).drop tail.length = right := List.drop_left
  rw [splitAtLevel, weightless, Int.add_zero, seen, splitAtLevel_skip, List.length_cons,
    Nat.add_sub_cancel, skipped]
  rfl

/-- Where no separator is seen, the character goes to the first part. -/
theorem splitAtLevel_unseen {level : Int} {c : Char} {text : List Char}
    (unseen : ¬(level + weight c = 0 ∧ mark :: tail <+: c :: text)) :
    splitAtLevel weight (mark :: tail) level 0 (c :: text) =
      consHead c (splitAtLevel weight (mark :: tail) (level + weight c) 0 text) := by
  have fails : ((level + weight c == 0) && (mark :: tail).isPrefixOf (c :: text)) = false := by
    rw [Bool.eq_false_iff]
    intro both
    rw [Bool.and_eq_true, beq_iff_eq, List.isPrefixOf_iff_prefix] at both
    exact unseen both
  rw [splitAtLevel, fails, if_neg Bool.false_ne_true]

/-- Where the separator is not seen, nothing is cut. -/
theorem splitAtLevel_of_uncut {level : Int} {text : List Char}
    (uncut : Uncut weight (mark :: tail) level text) :
    splitAtLevel weight (mark :: tail) level 0 text = [text] := by
  induction text generalizing level with
  | nil => rfl
  | cons c text ih =>
    rw [splitAtLevel_unseen uncut.1, ih uncut.2]
    rfl

/-- A cut is made at the first separator that is seen. -/
theorem splitAtLevel_append {level : Int} {left : List Char} (apart : mark ∉ tail)
    (weightless : weight mark = 0) (uncut : Uncut weight (mark :: tail) level left)
    (flat : level + weigh weight left = 0) (right : List Char) :
    splitAtLevel weight (mark :: tail) level 0 (left ++ (mark :: tail ++ right)) =
      left :: splitAtLevel weight (mark :: tail) 0 0 right := by
  induction left generalizing level with
  | nil =>
    rw [weigh_nil, Int.add_zero] at flat
    subst flat
    exact splitAtLevel_seen weightless right
  | cons c left ih =>
    obtain ⟨first, later⟩ := uncut
    rw [weigh_cons, ← Int.add_assoc] at flat
    have unseen : ¬(level + weight c = 0 ∧
        mark :: tail <+: c :: (left ++ (mark :: tail ++ right))) := by
      intro both
      obtain ⟨same, behind⟩ := List.cons_prefix_cons.1 both.2
      have inside : tail <+: left := prefix_of_prefix_append behind (by simpa using apart)
      exact first ⟨both.1, List.cons_prefix_cons.2 ⟨same, inside⟩⟩
    rw [List.cons_append, splitAtLevel_unseen unseen, ih later flat]
    rfl

/-- Joined parts are found again. -/
theorem splitAtLevel_join (apart : mark ∉ tail) (weightless : weight mark = 0)
    (separated : Separated weight (mark :: tail) parts) (some : parts ≠ []) :
    splitAtLevel weight (mark :: tail) 0 0 (join (mark :: tail) parts) = parts := by
  induction parts with
  | nil => exact absurd rfl some
  | cons part parts ih =>
    cases parts with
    | nil => exact splitAtLevel_of_uncut (separated.uncut part List.mem_cons_self)
    | cons next parts =>
      obtain ⟨⟨first, flat⟩, later⟩ := separated_cons_cons.1 separated
      rw [join_cons _ _ (List.cons_ne_nil _ _), List.append_assoc,
        splitAtLevel_append apart weightless first (by rw [flat, Int.add_zero]),
        ih later (List.cons_ne_nil _ _)]

/-- What a cut makes: one part with the whole text, or a first part that the level zero and a
    separator follow. -/
theorem splitAtLevel_cases (weightless : weight mark = 0) (tail : List Char) (level : Int)
    (text : List Char) :
    (Uncut weight (mark :: tail) level text ∧
      splitAtLevel weight (mark :: tail) level 0 text = [text]) ∨
    ∃ left right, text = left ++ (mark :: tail ++ right) ∧
      Uncut weight (mark :: tail) level left ∧ level + weigh weight left = 0 ∧
      splitAtLevel weight (mark :: tail) level 0 text =
        left :: splitAtLevel weight (mark :: tail) 0 0 right := by
  induction text generalizing level with
  | nil => exact .inl ⟨trivial, rfl⟩
  | cons c text ih =>
    by_cases seen : level + weight c = 0 ∧ mark :: tail <+: c :: text
    · obtain ⟨flat, right, spelled⟩ := seen
      obtain ⟨rfl, rfl⟩ := List.cons.inj spelled
      rw [weightless, Int.add_zero] at flat
      subst flat
      exact .inr ⟨[], right, rfl, trivial, rfl, splitAtLevel_seen weightless right⟩
    · rw [splitAtLevel_unseen seen]
      rcases ih (level + weight c) with ⟨uncut, whole⟩ | ⟨left, right, rfl, uncut, flat, cut⟩
      · exact .inl ⟨⟨seen, uncut⟩, by rw [whole]; rfl⟩
      · refine .inr ⟨c :: left, right, rfl, ⟨fun both => seen ⟨both.1, ?_⟩, uncut⟩, ?_, ?_⟩
        · exact both.2.trans (List.prefix_append (c :: left) _)
        · rw [weigh_cons, ← Int.add_assoc]
          exact flat
        · rw [cut]
          rfl

/-- The parts that a cut makes are separated. -/
theorem separated_splitAtLevel (weightless : weight mark = 0) (text : List Char) :
    Separated weight (mark :: tail) (splitAtLevel weight (mark :: tail) 0 0 text) := by
  induction counted : text.length using Nat.strong_induction_on generalizing text with
  | _ size ih =>
    rcases splitAtLevel_cases weightless tail 0 text with
      ⟨uncut, whole⟩ | ⟨left, right, rfl, uncut, flat, cut⟩
    · rw [whole]
      exact separated_singleton uncut
    · have shorter : right.length < size := by
        rw [← counted]
        simp
        omega
      have later := ih right.length shorter right rfl
      rw [cut]
      cases parts : splitAtLevel weight (mark :: tail) 0 0 right with
      | nil => exact absurd parts (splitAtLevel_ne_nil _ _ _)
      | cons next parts =>
        rw [parts] at later
        exact separated_cons_cons.2 ⟨⟨uncut, by simpa using flat⟩, later⟩

/-- Cutting is the inverse of joining separated parts. -/
theorem splitAtLevel_eq_iff (apart : mark ∉ tail) (weightless : weight mark = 0) {text : List Char} :
    splitAtLevel weight (mark :: tail) 0 0 text = parts ↔
      parts ≠ [] ∧ Separated weight (mark :: tail) parts ∧ join (mark :: tail) parts = text := by
  constructor
  · rintro rfl
    exact ⟨splitAtLevel_ne_nil _ _ _, separated_splitAtLevel weightless text,
      join_splitAtLevel (List.cons_ne_nil _ _) 0 0 text⟩
  · rintro ⟨some, separated, rfl⟩
    exact splitAtLevel_join apart weightless separated some

/-- What is not seen in joined parts is seen in none of them. -/
theorem uncut_of_join {glue : List Char} {level : Int}
    (flat : parts.Pairwise fun part _ => weigh weight part = 0) (weightless : weigh weight glue = 0)
    (uncut : Uncut weight (mark :: tail) level (join glue parts)) :
    ∀ part ∈ parts, Uncut weight (mark :: tail) level part := by
  induction parts with
  | nil => simp
  | cons part parts ih =>
    cases parts with
    | nil => simpa [join] using uncut
    | cons next parts =>
      obtain ⟨level, later⟩ := List.pairwise_cons.1 flat
      rw [join_cons _ _ (List.cons_ne_nil _ _), List.append_assoc] at uncut
      obtain ⟨front, rest⟩ := uncut.of_append
      have back := rest.of_append.2
      rw [weightless, level next List.mem_cons_self, Int.add_zero, Int.add_zero] at back
      exact List.forall_mem_cons.2 ⟨front, ih later back⟩

/-- What is seen in no part is not seen in the parts with something else between them. -/
theorem uncut_join {glue : List Char} {level : Int}
    (flat : parts.Pairwise fun part _ => weigh weight part = 0) (weightless : weigh weight glue = 0)
    (absent : ∀ c ∈ mark :: tail, c ∉ glue) (some : glue ≠ [])
    (uncut : ∀ part ∈ parts, Uncut weight (mark :: tail) level part) :
    Uncut weight (mark :: tail) level (join glue parts) := by
  induction parts with
  | nil => trivial
  | cons part parts ih =>
    cases parts with
    | nil => simpa [join] using uncut
    | cons next parts =>
      obtain ⟨here, later⟩ := List.forall_mem_cons.1 uncut
      obtain ⟨flatHere, flatLater⟩ := List.pairwise_cons.1 flat
      have level := flatHere next List.mem_cons_self
      rw [join_cons _ _ (List.cons_ne_nil _ _), List.append_assoc]
      apply here.append
      · apply Uncut.prepend (absent mark List.mem_cons_self)
        rw [weightless, level, Int.add_zero, Int.add_zero]
        exact ih flatLater later
      · intro c first member
        rw [List.head?_append_of_ne_nil _ some] at first
        exact absent c (List.mem_cons_of_mem mark member) (List.mem_of_mem_head? first)

/-- What a filter leaves of joined parts, if it leaves nothing of what is between them. -/
theorem filter_join {glue : List Char} {keep : Char → Bool} (dropped : ∀ c ∈ glue, keep c = false)
    (parts : List (List Char)) : (join glue parts).filter keep = parts.flatMap (List.filter keep) := by
  induction parts with
  | nil => rfl
  | cons part parts ih =>
    cases parts with
    | nil => simp [join]
    | cons next parts =>
      have nothing : glue.filter keep = [] := List.filter_eq_nil_iff.2 (by simpa using dropped)
      rw [join_cons _ _ (List.cons_ne_nil _ _), List.filter_append, List.filter_append, nothing, ih,
        List.append_nil]
      rfl

end

/-! ### Texts without blanks at their ends -/

/-- A text that neither starts nor ends with a blank. -/
structure Solid (text : List Char) : Prop where
  starts : ∃ c rest, text = c :: rest ∧ isBlank c = false
  ends : ∃ rest c, text = rest ++ [c] ∧ isBlank c = false

section

variable {text : List Char}

theorem Solid.ne_nil (solid : Solid text) : text ≠ [] := by
  obtain ⟨c, rest, rfl, _⟩ := solid.starts
  exact List.cons_ne_nil c rest

theorem Solid.append {left right : List Char} (front : Solid left) (middle : List Char)
    (back : Solid right) : Solid (left ++ (middle ++ right)) := by
  obtain ⟨c, rest, spelled, first⟩ := front.starts
  obtain ⟨start, d, ending, last⟩ := back.ends
  exact ⟨⟨c, rest ++ (middle ++ right), by simp [spelled], first⟩,
    ⟨left ++ (middle ++ start), d, by simp [ending], last⟩⟩

theorem solid_join {parts : List (List Char)} (glue : List Char) (some : parts ≠ [])
    (solid : ∀ part ∈ parts, Solid part) : Solid (join glue parts) := by
  induction parts with
  | nil => exact absurd rfl some
  | cons part parts ih =>
    obtain ⟨first, later⟩ := List.forall_mem_cons.1 solid
    cases parts with
    | nil => exact first
    | cons next parts =>
      rw [join_cons _ _ (List.cons_ne_nil _ _), List.append_assoc]
      exact first.append glue (ih (List.cons_ne_nil _ _) later)

/-- Blanks around a solid text are trimmed, and nothing else. -/
theorem Solid.trim_between (solid : Solid text) {front back : List Char}
    (before : ∀ c ∈ front, isBlank c = true) (after : ∀ c ∈ back, isBlank c = true) :
    trim (front ++ text ++ back) = text := by
  obtain ⟨c, rest, spelled, first⟩ := solid.starts
  obtain ⟨start, d, ending, last⟩ := solid.ends
  have noFront : trimStart front = [] := List.dropWhile_eq_nil_iff.2 before
  have noBack : trimEnd back = [] := List.rdropWhile_eq_nil_iff.2 after
  calc trim (front ++ text ++ back)
      = trimEnd (text ++ back) := by
        rw [trim, List.append_assoc, spelled, List.cons_append, trimStart_append_cons first, noFront,
          List.nil_append]
    _ = start ++ d :: trimEnd back := by
        rw [ending, List.append_assoc, List.singleton_append, trimEnd_append_cons last]
    _ = text := by rw [noBack, ending]

theorem Solid.trim_eq (solid : Solid text) : trim text = text := by
  have nothing : ∀ c ∈ ([] : List Char), isBlank c = true := by simp
  simpa using solid.trim_between nothing nothing

/-- What is left of a text that is not blank is solid. -/
theorem solid_trim (some : trim text ≠ []) : Solid (trim text) := by
  constructor
  · cases spelled : trim text with
    | nil => exact absurd spelled some
    | cons c rest =>
      refine ⟨c, rest, rfl, ?_⟩
      obtain ⟨back, whole⟩ : trim text <+: trimStart text := List.rdropWhile_prefix isBlank _
      have first := List.head?_dropWhile_not isBlank text
      rw [← trimStart, ← whole, spelled] at first
      simpa using first
  · have turned : (trim text).reverse = (trimStart text).reverse.dropWhile isBlank := by
      rw [trim, trimEnd, List.reverse_reverse]
    cases spelled : (trim text).reverse with
    | nil => exact absurd (List.reverse_eq_nil_iff.1 spelled) some
    | cons c rest =>
      refine ⟨rest.reverse, c, ?_, ?_⟩
      · rw [← List.reverse_reverse (trim text), spelled, List.reverse_cons]
      · have first := List.head?_dropWhile_not isBlank (trimStart text).reverse
        rw [← turned, spelled] at first
        simpa using first

end

/-! ### Brackets and blanks -/

theorem bracketWeight_of_isBlank {c : Char} (blank : isBlank c = true) : bracketWeight c = 0 := by
  unfold bracketWeight
  split <;> first | rfl | exact absurd blank (by decide)

theorem weigh_blank {text : List Char} (blank : ∀ c ∈ text, isBlank c = true) :
    weigh bracketWeight text = 0 :=
  weigh_eq_zero fun c member => bracketWeight_of_isBlank (blank c member)

theorem weigh_trim (text : List Char) :
    weigh bracketWeight (trim text) = weigh bracketWeight text := by
  obtain ⟨front, back, spelled, before, after⟩ := exists_trim text
  conv_rhs => rw [spelled]
  simp [weigh_blank before, weigh_blank after]

theorem filter_trim {keep : Char → Bool} (dropped : ∀ c, isBlank c = true → keep c = false)
    (text : List Char) : (trim text).filter keep = text.filter keep := by
  obtain ⟨front, back, spelled, before, after⟩ := exists_trim text
  have noFront : front.filter keep = [] := by
    simpa using fun c member => dropped c (before c member)
  have noBack : back.filter keep = [] := by
    simpa using fun c member => dropped c (after c member)
  conv_rhs => rw [spelled]
  simp [noFront, noBack]

theorem Uncut.trim {mark : Char} {tail : List Char} {level : Int} {text : List Char}
    (uncut : Uncut bracketWeight (mark :: tail) level text) :
    Uncut bracketWeight (mark :: tail) level (Text.trim text) := by
  obtain ⟨front, back, spelled, before, -⟩ := exists_trim text
  rw [spelled, List.append_assoc] at uncut
  have behind := uncut.of_append.2
  rw [weigh_blank before, Int.add_zero] at behind
  exact behind.of_append.1

/-- Blanks around a text bring no separator in. -/
theorem Uncut.between {mark : Char} {tail : List Char} {level : Int} {text front back : List Char}
    (uncut : Uncut bracketWeight (mark :: tail) level text)
    (solid : ∀ c ∈ mark :: tail, isBlank c = false) (before : ∀ c ∈ front, isBlank c = true)
    (after : ∀ c ∈ back, isBlank c = true) :
    Uncut bracketWeight (mark :: tail) level (front ++ text ++ back) := by
  have apart : ∀ {blanks : List Char}, (∀ c ∈ blanks, isBlank c = true) →
      ∀ c ∈ mark :: tail, c ∉ blanks := by
    intro blanks blank c member inside
    exact Bool.false_ne_true ((solid c member).symm.trans (blank c inside))
  rw [List.append_assoc]
  apply Uncut.prepend (apart before mark List.mem_cons_self)
  rw [weigh_blank before, Int.add_zero]
  exact uncut.append_of_not_mem (apart after)

/-! ### Cuts outside brackets -/

section

variable {weight : Char → Int} {mark : Char} {tail : List Char} {level : Int} {text : List Char}

/-- A separator is not seen exactly if the level is not zero before any of its occurrences. -/
theorem uncut_iff (weightless : weight mark = 0) :
    Uncut weight (mark :: tail) level text ↔
      ∀ before after, text = before ++ (mark :: tail ++ after) → level + weigh weight before ≠ 0 := by
  constructor
  · rintro uncut before after rfl flat
    have seen : mark :: tail <+: mark :: (tail ++ after) := List.prefix_append (mark :: tail) after
    exact uncut.of_append.2.1 ⟨by rw [flat, weightless, Int.add_zero], seen⟩
  · intro apart
    induction text generalizing level with
    | nil => trivial
    | cons c text ih =>
      constructor
      · rintro ⟨flat, after, spelled⟩
        obtain ⟨rfl, rest⟩ := List.cons.inj spelled
        rw [weightless] at flat
        exact apart [] after spelled.symm flat
      · refine ih fun before after spelled => ?_
        have later := apart (c :: before) after (by rw [spelled]; rfl)
        rwa [weigh_cons, ← Int.add_assoc] at later

/-- Parts that are joined in two steps. -/
theorem join_append (separator : List Char) {left right : List (List Char)}
    (some : left ≠ []) (others : right ≠ []) :
    join separator (left ++ right) = join separator left ++ (separator ++ join separator right) := by
  induction left with
  | nil => exact absurd rfl some
  | cons part left ih =>
    cases left with
    | nil =>
      rw [List.singleton_append, join_cons separator part others, List.append_assoc]
      rfl
    | cons next left =>
      have later := ih (List.cons_ne_nil next left)
      have more : next :: left ++ right ≠ [] := List.cons_ne_nil next (left ++ right)
      rw [List.cons_append, join_cons separator part more, later,
        join_cons separator part (List.cons_ne_nil next left)]
      simp only [List.append_assoc]

/-- Joined parts that do not raise the level do not raise it together. -/
theorem weigh_join {separator : List Char} {parts : List (List Char)}
    (weightless : weigh weight separator = 0) (flat : ∀ part ∈ parts, weigh weight part = 0) :
    weigh weight (join separator parts) = 0 := by
  induction parts with
  | nil => rfl
  | cons part parts ih =>
    obtain ⟨here, later⟩ := List.forall_mem_cons.1 flat
    cases parts with
    | nil => exact here
    | cons next parts =>
      rw [join_cons separator part (List.cons_ne_nil next parts), weigh_append, weigh_append, here,
        weightless, ih later]
      rfl

/-- The level is zero after each part that another part follows. -/
theorem Separated.flat {separator : List Char} {left right : List (List Char)}
    (separated : Separated weight separator (left ++ right)) (others : right ≠ []) :
    ∀ part ∈ left, weigh weight part = 0 := by
  intro part member
  obtain ⟨next, later⟩ := List.exists_mem_of_ne_nil right others
  exact (List.pairwise_append.1 separated.level).2.2 part member next later

end

/-- The characters that raise or lower the level. -/
def brackets : List Char :=
  ['(', ')', '[', ']', '\x7b', '\x7d']

theorem bracketWeight_eq_zero {c : Char} (plain : c ∉ brackets) : bracketWeight c = 0 := by
  unfold bracketWeight
  split
  case h_7 => rfl
  all_goals exact absurd (by simp [brackets]) plain

/-- A text is cut outside brackets without loss and completely, whether its brackets match or not.
    The parts joined again are the text. Between two neighbours stands a separator, and the level
    that the text has reached before it is zero. Where a part contains the separator, the level that
    the part has reached before it is not zero. -/
theorem splitTop_exact (separator text : List Char) (filled : separator ≠ [])
    (plain : ∀ c ∈ separator, c ∉ brackets) :
    join separator (splitTop separator text) = text ∧
      (∀ left right, left ≠ [] → right ≠ [] → splitTop separator text = left ++ right →
        text = join separator left ++ (separator ++ join separator right) ∧
          weigh bracketWeight (join separator left) = 0) ∧
      ∀ part ∈ splitTop separator text, ∀ before after, part = before ++ (separator ++ after) →
        weigh bracketWeight before ≠ 0 := by
  have lossless : join separator (splitTop separator text) = text := join_splitAtLevel filled 0 0 text
  have flat : weigh bracketWeight separator = 0 :=
    weigh_eq_zero fun c member => bracketWeight_eq_zero (plain c member)
  cases separator with
  | nil => exact absurd rfl filled
  | cons mark tail =>
    have weightless : bracketWeight mark = 0 := bracketWeight_eq_zero (plain mark List.mem_cons_self)
    have separated : Separated bracketWeight (mark :: tail) (splitTop (mark :: tail) text) :=
      separated_splitAtLevel weightless text
    refine ⟨lossless, ?_, ?_⟩
    · intro left right some others cut
      rw [cut] at lossless separated
      rw [join_append (mark :: tail) some others] at lossless
      exact ⟨lossless.symm, weigh_join flat (separated.flat others)⟩
    · intro part member before after spelled
      have apart := (uncut_iff weightless).1 (separated.uncut part member) before after spelled
      rwa [Int.zero_add] at apart

/-- A text whose brackets do not match: a bracket is closed before it is opened, and another is
    never opened. -/
def unbalanced : List Char :=
  "a), b(, c, d)".toList

theorem unbalanced_splitTop_exact :
    splitTop [','] unbalanced = ["a), b(".toList, " c".toList, " d)".toList] ∧
      join [','] (splitTop [','] unbalanced) = unbalanced ∧ weigh bracketWeight "a), b(, c".toList = 0 ∧
      weigh bracketWeight "a)".toList ≠ 0 := by
  have parts : splitTop [','] unbalanced = ["a), b(".toList, " c".toList, " d)".toList] := by decide
  have plain : ∀ c ∈ [','], c ∉ brackets := List.forall_mem_singleton.2 (by decide)
  obtain ⟨lossless, cuts, uncut⟩ := splitTop_exact [','] unbalanced (List.cons_ne_nil _ _) plain
  have second := cuts ["a), b(".toList, " c".toList] [" d)".toList] (by decide) (by decide) parts
  have first := uncut "a), b(".toList (by rw [parts]; exact List.mem_cons_self) "a)".toList
    " b(".toList (by decide)
  exact ⟨parts, lossless, second.2, first⟩

end RegionFlow.Text
