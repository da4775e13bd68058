/-
Module: RegionFlow.Proofs.MergeLines
Purpose: Which lines are read as merges, and with which edges. The edges of a merge are the
  bracketed pairs at the front of its list, in order, up to the first that cannot be read. What is
  left there only has to look like attributes, which every text behind a comma does, so a pair that
  is written wrongly ends the list and is passed over with all that follows. The one mistake in a
  pair that makes the line unreadable is a number without the digits of its exponent.
Main exports: Incoming.Written, Instruction.EdgesWritten, Instruction.incomingList_eq_done_iff,
  Instruction.readPhi_eq_phi_iff, Instruction.read_eq_phi_iff
-/
import RegionFlow.Proofs.References

namespace RegionFlow

open Text Text.Reader Instruction

/-- An edge of a merge, as it stands in a line: a value and a label in brackets. -/
inductive Incoming.Written : Incoming → List Char → Prop where
  | pair {value : Operand} {operand before separator label after : List Char}
      (written : value.Written operand) (name : IsName '%' label) (front : IsGaps before)
      (comma : IsComma separator) (back : IsGaps after) :
      Written ⟨value, String.ofList label⟩
        ('[' :: (before ++ (operand ++ (separator ++ (label ++ (after ++ [']']))))))

namespace Instruction

variable {text rest taken : List Char}

/-! ### Edges -/

theorem clear_isNameChar_of_isComma {separator : List Char} (isComma : IsComma separator)
    (rest : List Char) : Clear isNameChar (separator ++ rest) := by
  obtain ⟨before, after, rfl, front, _⟩ := isComma
  rw [List.append_assoc]
  exact clear_gaps (fun _ => isNameChar_of_isGap) front (clear_cons.2 rfl)

theorem isGap_of_isLiteralStart {c : Char} (starts : isLiteralStart c = true) : isGap c = false := by
  rw [Bool.eq_false_iff]
  intro blank
  exact either_elim (motive := fun c => isLiteralStart c ≠ true) blank (by decide) (by decide) starts

/-- An operand does not start with a blank. -/
theorem clear_isGap_of_written {value : Operand} {operand : List Char} (written : value.Written operand)
    (rest : List Char) : Clear isGap (operand ++ rest) := by
  cases written with
  | reference name =>
    obtain ⟨chars, rfl, _⟩ := name
    exact clear_cons.2 rfl
  | symbol name =>
    obtain ⟨chars, rfl, _⟩ := name
    exact clear_cons.2 rfl
  | literal spelled =>
    obtain ⟨c, more, rfl, starts⟩ := spelled.head
    exact clear_cons.2 (isGap_of_isLiteralStart starts)

theorem incomingEdge_eq_done_iff {edge : Incoming} :
    incomingEdge text = .done edge rest ↔ ∃ taken, text = taken ++ rest ∧ edge.Written taken := by
  constructor
  · intro read
    simp only [incomingEdge, reference, bind_eq_done_iff, char_eq_done_iff, gap_eq_done_iff,
      comma_eq_done_iff, sigilName_eq_done_iff] at read
    obtain ⟨_, _, rfl, _, _, ⟨before, rfl, front, _⟩, value, _, one, _, _,
      ⟨separator, rfl, isComma, _⟩, _, _, ⟨label, rfl, rfl, isName, _⟩, _, _,
      ⟨after, rfl, back, _⟩, _, _, rfl, finished⟩ := read
    cases finished
    obtain ⟨operand, rfl, written⟩ := readsOnly_operand one
    exact ⟨_, by simp, .pair written isName front isComma back⟩
  · rintro ⟨_, rfl, written⟩
    cases written with
    | @pair value operand before separator label after written isName front isComma back =>
      have spelled : '[' :: (before ++ (operand ++ (separator ++ (label ++ (after ++ [']']))))) ++ rest =
          '[' :: (before ++ (operand ++ (separator ++ (label ++ (after ++ ']' :: rest))))) := by simp
      have labelled : Clear isGap (label ++ (after ++ ']' :: rest)) := by
        obtain ⟨chars, rfl, _⟩ := id isName
        exact clear_cons.2 rfl
      have closed : Clear isNameChar (after ++ ']' :: rest) :=
        clear_gaps (fun _ => isNameChar_of_isGap) back (clear_cons.2 rfl)
      rw [spelled]
      simp only [incomingEdge, reference, bind_eq_done_iff, char_eq_done_iff, gap_eq_done_iff,
        comma_eq_done_iff, sigilName_eq_done_iff]
      exact ⟨(), _, rfl, (), _, ⟨before, rfl, front, clear_isGap_of_written written _⟩, value, _,
        readsAll_operand written (clear_isNameChar_of_isComma isComma _), (), _,
        ⟨separator, rfl, isComma, labelled⟩, _, _, ⟨label, rfl, rfl, isName, closed⟩, (), _,
        ⟨after, rfl, back, clear_cons.2 rfl⟩, (), rest, rfl, rfl⟩

/-- An edge whose number breaks off. -/
def EdgeBreaksOff (text : List Char) : Prop :=
  ∃ before tail, text = '[' :: (before ++ tail) ∧ IsGaps before ∧ BreaksOff tail

theorem BreaksOff.clear_isGap (broken : BreaksOff text) : Clear isGap text := by
  obtain ⟨sign, body, mark, tail, rfl, isSign, isMantissa, _⟩ := broken
  obtain ⟨c, more, spelled, starts⟩ := head_of_number isSign isMantissa (mark :: tail)
  rw [spelled]
  exact clear_cons.2 (isGap_of_isLiteralStart starts)

theorem sticks_incomingEdge_iff : incomingEdge.Sticks text ↔ EdgeBreaksOff text := by
  simp only [incomingEdge, reference, sticks_bind_iff, not_sticks_char, not_sticks_gap, sticks_operand_iff,
    not_sticks_comma, not_sticks_sigilName, not_sticks_pure, false_or, and_false, exists_false, or_false,
    char_eq_done_iff, gap_eq_done_iff]
  constructor
  · rintro ⟨_, _, rfl, _, tail, ⟨before, rfl, front, _⟩, broken⟩
    exact ⟨before, tail, rfl, front, broken⟩
  · rintro ⟨before, tail, rfl, front, broken⟩
    exact ⟨(), _, rfl, (), tail, ⟨before, rfl, front, broken.clear_isGap⟩, broken⟩

/-! ### Lists of edges -/

/-- A comma and the edge behind it. -/
def NextEdge (edge : Incoming) (text : List Char) : Prop :=
  ∃ separator pair, text = separator ++ pair ∧ IsComma separator ∧ edge.Written pair

/-- The edges of a merge, as they stand in a line. -/
def EdgesWritten (edges : List Incoming) (text : List Char) : Prop :=
  ∃ first others pair more, edges = first :: others ∧ text = pair ++ more ∧ first.Written pair ∧
    Series NextEdge others more

/-- A text goes on with an edge. -/
def HasNext (text : List Char) : Prop :=
  ∃ edge taken rest, text = taken ++ rest ∧ NextEdge edge taken

/-- A text goes on with an edge whose number breaks off. -/
def NextBreaksOff (text : List Char) : Prop :=
  ∃ separator tail, text = separator ++ tail ∧ IsComma separator ∧ EdgeBreaksOff tail

theorem clear_isGap_of_edge {edge : Incoming} (written : edge.Written taken) (rest : List Char) :
    Clear isGap (taken ++ rest) := by
  cases written with
  | pair => exact clear_cons.2 rfl

/-- Read a comma and the edge behind it. -/
def nextEdge : Reader Incoming := do
  comma
  incomingEdge

theorem nextEdge_eq_done_iff {edge : Incoming} :
    nextEdge text = .done edge rest ↔ ∃ taken, text = taken ++ rest ∧ NextEdge edge taken := by
  simp only [nextEdge, bind_eq_done_iff, comma_eq_done_iff, incomingEdge_eq_done_iff]
  constructor
  · rintro ⟨_, _, ⟨separator, rfl, isComma, _⟩, pair, rfl, written⟩
    exact ⟨separator ++ pair, by simp, separator, pair, rfl, isComma, written⟩
  · rintro ⟨_, rfl, separator, pair, rfl, isComma, written⟩
    have clear := clear_isGap_of_edge written rest
    exact ⟨(), pair ++ rest, ⟨separator, by simp, isComma, clear⟩, pair, rfl, written⟩

theorem sticks_nextEdge_iff : nextEdge.Sticks text ↔ NextBreaksOff text := by
  simp only [nextEdge, sticks_bind_iff, not_sticks_comma, sticks_incomingEdge_iff, false_or,
    comma_eq_done_iff]
  constructor
  · rintro ⟨_, tail, ⟨separator, rfl, isComma, _⟩, broken⟩
    exact ⟨separator, tail, rfl, isComma, broken⟩
  · rintro ⟨separator, tail, rfl, isComma, broken⟩
    have clear : Clear isGap tail := by
      obtain ⟨before, behind, rfl, _⟩ := broken
      exact clear_cons.2 rfl
    exact ⟨(), tail, ⟨separator, rfl, isComma, clear⟩, broken⟩

/-- No edge is read from a text exactly if it does not go on with one, nor with one that breaks off. -/
theorem misses_nextEdge_iff : nextEdge.Misses text ↔ ¬ HasNext text ∧ ¬ NextBreaksOff text := by
  constructor
  · rintro ⟨left, missed⟩
    constructor
    · rintro ⟨edge, taken, rest, spelled, next⟩
      cases missed.symm.trans (nextEdge_eq_done_iff.2 ⟨taken, spelled, next⟩)
    · intro broken
      obtain ⟨left, stuck⟩ := sticks_nextEdge_iff.2 broken
      cases missed.symm.trans stuck
  · rintro ⟨noNext, sound⟩
    rcases nextEdge.cases_outcome text with ⟨edge, rest, read⟩ | misses | sticks
    · obtain ⟨taken, spelled, next⟩ := nextEdge_eq_done_iff.1 read
      exact absurd ⟨edge, taken, rest, spelled, next⟩ noNext
    · exact misses
    · exact absurd (sticks_nextEdge_iff.1 sticks) sound

theorem readsOnly_nextEdge : nextEdge.ReadsOnly NextEdge :=
  fun _ _ _ read => nextEdge_eq_done_iff.1 read

theorem readsAll_nextEdge : nextEdge.ReadsAll NextEdge fun _ => True :=
  fun _ taken next _ _ => nextEdge_eq_done_iff.2 ⟨taken, rfl, next⟩

theorem NextEdge.ne_nil {edge : Incoming} (next : NextEdge edge text) : text ≠ [] := by
  obtain ⟨separator, pair, rfl, ⟨before, after, rfl, _⟩, _⟩ := next
  simp

/-- A list of edges is read up to the first that cannot be read. -/
theorem incomingList_eq_done_iff {edges : List Incoming} :
    sepBy1 comma incomingEdge text = .done edges rest ↔
      ∃ taken, text = taken ++ rest ∧ EdgesWritten edges taken ∧ ¬ HasNext rest ∧ ¬ NextBreaksOff rest := by
  rw [sepBy1, bind_eq_done_iff]
  constructor
  · rintro ⟨first, left, one, read⟩
    obtain ⟨others, _, many, finished⟩ := bind_eq_done_iff.1 read
    cases finished
    obtain ⟨pair, rfl, written⟩ := incomingEdge_eq_done_iff.1 one
    obtain ⟨more, rfl, series⟩ := readsOnly_nextEdge.many many
    have nothing : nextEdge.Misses [] := ⟨[], rfl⟩
    have ends := misses_of_many readsOnly_nextEdge NextEdge.ne_nil nothing many
    exact ⟨pair ++ more, by simp, ⟨first, others, pair, more, rfl, rfl, written, series⟩,
      misses_nextEdge_iff.1 ends⟩
  · rintro ⟨_, rfl, ⟨first, others, pair, more, rfl, rfl, written, series⟩, ends⟩
    have many := readsAll_nextEdge.many (fun _ _ => trivial) NextEdge.ne_nil series
      ⟨trivial, misses_nextEdge_iff.2 ends⟩
    rw [List.append_assoc]
    refine ⟨first, more ++ rest, incomingEdge_eq_done_iff.2 ⟨pair, rfl, written⟩, ?_⟩
    exact bind_eq_done_iff.2 ⟨others, rest, many, rfl⟩

/-! ### Merges -/

/-- What stands before the edges of a merge: flags, and the spelling of its type. -/
def MergeHead (type : String) (text : List Char) : Prop :=
  ∃ marks spelling gaps, text = marks ++ (spelling ++ gaps) ∧ type = String.ofList spelling ∧
    IsFlags fastMathFlags marks ∧ IsType spelling ∧ fastMathFlags.contains type = false ∧
    gaps ≠ [] ∧ IsGaps gaps

theorem isWord_of_fastMathFlags (flag : String) (known : fastMathFlags.contains flag = true) :
    IsWord flag.toList := by
  have table :
      fastMathFlags.all (fun flag => flag.toList ≠ [] && flag.toList.all isWordChar) = true := by
    decide
  have judged := List.all_eq_true.1 table _ (List.contains_iff_mem.1 known)
  rw [Bool.and_eq_true, decide_eq_true_eq] at judged
  exact ⟨judged.1, List.all_eq_true.1 judged.2⟩

theorem clear_isGap_of_edges {edges : List Incoming} (written : EdgesWritten edges taken)
    (rest : List Char) : Clear isGap (taken ++ rest) := by
  obtain ⟨first, others, pair, more, _, rfl, one, _⟩ := written
  rw [List.append_assoc]
  exact clear_isGap_of_edge one _

/-- The operands of a merge are read as flags, a type that is no flag, and the edges up to the first
    that cannot be read. -/
theorem readPhi_eq_phi_iff {result name type : String} {incoming : List Incoming} :
    readPhi result text = .done (.phi name type incoming) rest ↔
      name = result ∧ ∃ head edges, text = head ++ (edges ++ rest) ∧ MergeHead type head ∧
        isPointer type = false ∧ EdgesWritten incoming edges ∧ ¬ HasNext rest ∧
        ¬ NextBreaksOff rest := by
  constructor
  · intro read
    obtain ⟨_, left, one, read⟩ := bind_eq_done_iff.1 read
    obtain ⟨found, _, two, read⟩ := bind_eq_done_iff.1 read
    obtain ⟨_, _, three, read⟩ := bind_eq_done_iff.1 read
    obtain ⟨edges, _, four, finished⟩ := bind_eq_done_iff.1 read
    obtain ⟨made, rfl⟩ := Outcome.done.inj finished
    have valued : isPointer found = false := by
      rw [Bool.eq_false_iff]
      intro pointer
      rw [if_pos pointer] at made
      cases made
    rw [if_neg (by simp [valued])] at made
    cases made
    obtain ⟨spelling, rfl, rfl, isType⟩ := readsOnly_typeSpelling two
    obtain ⟨gaps, rfl, filled, isGaps, clear⟩ := gap1_eq_done_iff.1 three
    obtain ⟨marks, rfl, isFlags, ends⟩ := (flags_eq_done_iff (isType.clear_isGap _)).1 one
    obtain ⟨listed, rfl, written, stops⟩ := incomingList_eq_done_iff.1 four
    have unknown := (misses_flag_iff isWord_of_fastMathFlags isType filled isGaps clear).1 ends
    exact ⟨rfl, marks ++ (spelling ++ gaps), listed, by simp,
      ⟨marks, spelling, gaps, rfl, rfl, isFlags, isType, unknown, filled, isGaps⟩, valued, written, stops⟩
  · rintro ⟨rfl, _, listed, rfl,
      ⟨marks, spelling, gaps, rfl, rfl, isFlags, isType, unknown, filled, isGaps⟩,
      valued, written, stops⟩
    have clear := clear_isGap_of_edges written rest
    have ends := (misses_flag_iff isWord_of_fastMathFlags isType filled isGaps clear).2 unknown
    have spelled : marks ++ (spelling ++ gaps) ++ (listed ++ rest) =
        marks ++ (spelling ++ (gaps ++ (listed ++ rest))) := by simp
    rw [spelled]
    refine bind_eq_done_iff.2 ⟨(), _,
      (flags_eq_done_iff (isType.clear_isGap _)).2 ⟨marks, rfl, isFlags, ends⟩, ?_⟩
    have bounded := clear_filled_gaps (fun _ => isTypeChar_of_isGap) filled isGaps (listed ++ rest)
    refine bind_eq_done_iff.2 ⟨_, _, readsAll_typeSpelling ⟨rfl, isType⟩ bounded, ?_⟩
    refine bind_eq_done_iff.2 ⟨(), _, gap1_eq_done_iff.2 ⟨gaps, rfl, filled, isGaps, clear⟩, ?_⟩
    refine bind_eq_done_iff.2 ⟨incoming, rest, incomingList_eq_done_iff.2 ⟨listed, rfl, written, stops⟩, ?_⟩
    simp [valued, pure, Reader.pure]

/-- Only a line that defines a reference by the operation of merges is read as a merge. -/
theorem readsAs_phi_iff {result : Option String} {opcode name type : String} {incoming : List Incoming} :
    ReadsAs result opcode text (.phi name type incoming) ↔
      ∃ rest, result = some name ∧ opcode = "phi" ∧
        readPhi name text = .done (.phi name type incoming) rest ∧ isTrailer rest = true := by
  constructor
  · rintro ⟨reader, rest, selected, read, trailer⟩
    obtain rfl : opcode = "phi" := (yields_operandReader selected read).2 rfl
    cases result with
    | none => cases selected
    | some result =>
      cases selected
      obtain ⟨rfl, _⟩ := readPhi_eq_phi_iff.1 read
      exact ⟨rest, rfl, rfl, read, trailer⟩
  · rintro ⟨rest, rfl, rfl, read, trailer⟩
    exact ⟨readPhi name, rest, rfl, read, trailer⟩

/-- A line is read as a merge exactly if it defines a reference by that operation, with flags and a
    type that is no pointer, and the edges are those written at the front of its list. What follows
    them only has to look like attributes: it does not go on with an edge, but it may go on with a
    pair that is no edge, unless the number in that pair breaks off. -/
theorem read_eq_phi_iff {line result type : String} {incoming : List Incoming} :
    read line = .ok (.phi result type incoming) ↔
      ∃ head edges rest, Opens (trim line.toList) (some result) "phi" (head ++ (edges ++ rest)) ∧
        MergeHead type head ∧ isPointer type = false ∧ EdgesWritten incoming edges ∧ isTrailer rest = true ∧
          ¬ HasNext rest ∧ ¬ NextBreaksOff rest := by
  rw [read_eq_ok_iff]
  constructor
  · rintro ⟨_, _, _, opens, reads⟩
    obtain ⟨rest, rfl, rfl, read, trailer⟩ := readsAs_phi_iff.1 reads
    obtain ⟨_, head, edges, rfl, isHead, valued, written, stops⟩ := readPhi_eq_phi_iff.1 read
    exact ⟨head, edges, rest, opens, isHead, valued, written, trailer, stops⟩
  · rintro ⟨head, edges, rest, opens, isHead, valued, written, trailer, stops⟩
    have read : readPhi result _ = .done (.phi result type incoming) rest :=
      readPhi_eq_phi_iff.2 ⟨rfl, head, edges, rfl, isHead, valued, written, stops⟩
    exact ⟨some result, "phi", _, opens, readsAs_phi_iff.2 ⟨rest, rfl, rfl, read, trailer⟩⟩

/-- A line whose second pair has a label in quotes, which no reference may have. -/
def quotingLine : String :=
  "%r = phi double [ %a, %x ], [ %b, %\"y z\" ]"

/-- The second pair of the line is passed over as if it were an attribute. -/
theorem quotingLine_loses_edge :
    read quotingLine = .ok (.phi "%r" "double" [⟨.ref "%a", "%x"⟩]) ∧
      readPhi "%r" "double [ %a, %x ], [ %b, %\"y z\" ]".toList =
        .done (.phi "%r" "double" [⟨.ref "%a", "%x"⟩]) ", [ %b, %\"y z\" ]".toList := by
  decide +kernel

end Instruction

end RegionFlow
