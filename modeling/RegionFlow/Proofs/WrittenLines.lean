/-
Module: RegionFlow.Proofs.WrittenLines
Purpose: Instructions as they are written, and what is read from their lines. Each operation has a
  form for its operands: flags that may stand at that place, scalar types, operands, labels, with
  blanks between them. A line of one of these forms is read as the instruction it is a form of,
  whatever its names and literals are, however many flags and blanks it has, and whatever attributes
  follow.
Main exports: Instruction.OperandsWritten, Instruction.IsAttributes, Instruction.Written,
  Instruction.OperandsWritten.reads, Instruction.read_of_written
-/
import RegionFlow.Proofs.TypedOperands

namespace RegionFlow

open Text Text.Reader

/-! ### Words of operations -/

namespace Instruction

/-- All of some texts are words. -/
def areWords (texts : List String) : Bool :=
  texts.all fun text => !text.toList.isEmpty && text.toList.all isWordChar

theorem isWord_of_areWords {texts : List String} {text : String} (words : areWords texts = true)
    (member : text ∈ texts) : IsWord text.toList := by
  have judged := List.all_eq_true.1 words text member
  rw [Bool.and_eq_true, Bool.not_eq_true', List.isEmpty_eq_false_iff] at judged
  exact ⟨judged.1, List.all_eq_true.1 judged.2⟩

end Instruction

theorem IntPredicate.isWord_mnemonic (predicate : IntPredicate) :
    Instruction.IsWord predicate.mnemonic.toList := by
  have member : predicate ∈ all := by cases predicate <;> decide
  exact Instruction.isWord_of_areWords (by decide : Instruction.areWords (all.map mnemonic) = true)
    (List.mem_map_of_mem member)

theorem FloatPredicate.isWord_mnemonic (predicate : FloatPredicate) :
    Instruction.IsWord predicate.mnemonic.toList := by
  have member : predicate ∈ all := by cases predicate <;> decide
  exact Instruction.isWord_of_areWords (by decide : Instruction.areWords (all.map mnemonic) = true)
    (List.mem_map_of_mem member)

namespace Instruction

variable {text rest type : List Char}

/-! ### Forms -/

/-- An operand behind a scalar type. -/
structure ScalarWritten (typed : TypedOperand) (text : List Char) : Prop where
  written : typed.Written text
  scalar : IsScalar typed.type.toList

/-- Two operands of the scalar type that is written before the first. -/
inductive PairWritten : String → List TypedOperand → List Char → Prop where
  | pair {left : TypedOperand} {right : Operand} {first separator second : List Char}
      (one : ScalarWritten left first) (comma : IsComma separator) (two : right.Written second) :
      PairWritten left.type [left, ⟨left.type, right⟩] (first ++ (separator ++ second))

/-- Flags, the word of a comparison, and the two operands that are compared. -/
inductive ComparisonWritten (set : List String) (mnemonic : String) :
    List TypedOperand → List Char → Prop where
  | compared {marks gaps pair : List Char} {type : String} {operands : List TypedOperand}
      (flags : IsFlags set marks) (filled : gaps ≠ []) (blanks : IsGaps gaps)
      (written : PairWritten type operands pair) :
      ComparisonWritten set mnemonic operands (marks ++ (mnemonic.toList ++ (gaps ++ pair)))

/-- The operands of an operation, as they stand in a line, and the instruction they make. -/
inductive OperandsWritten : Option String → String → Instruction → List Char → Prop where
  | phi {result : String} {marks type gaps edges : List Char} {incoming : List Incoming}
      (flags : IsFlags fastMathFlags marks) (scalar : IsScalar type) (filled : gaps ≠ [])
      (blanks : IsGaps gaps) (written : EdgesWritten incoming edges) :
      OperandsWritten (some result) "phi" (.phi result (String.ofList type) incoming)
        (marks ++ (type ++ (gaps ++ edges)))
  | jump {label : String} {target : List Char} (written : IsTarget label target) :
      OperandsWritten none "br" (.branch label) target
  | fork {condition : TypedOperand} {ifTrue ifFalse : String} {tested one first two second : List Char}
      (test : ScalarWritten condition tested) (comma : IsComma one) (yes : IsTarget ifTrue first)
      (again : IsComma two) (no : IsTarget ifFalse second) :
      OperandsWritten none "br" (.branchIf condition.value ifTrue ifFalse)
        (tested ++ (one ++ (first ++ (two ++ second))))
  | load {result : String} {address : TypedOperand} {marks type separator pointer : List Char}
      (flags : IsFlags memoryFlags marks) (scalar : IsScalar type) (comma : IsComma separator)
      (written : address.Written pointer) :
      OperandsWritten (some result) "load" (.load result (String.ofList type) address.value)
        (marks ++ (type ++ (separator ++ pointer)))
  | store {stored address : TypedOperand} {marks value separator pointer : List Char}
      (flags : IsFlags memoryFlags marks) (written : ScalarWritten stored value) (comma : IsComma separator)
      (target : address.Written pointer) :
      OperandsWritten none "store" (.store stored.type stored.value address.value)
        (marks ++ (value ++ (separator ++ pointer)))
  | arith {result type : String} {op : Arith} {operands : List TypedOperand} {marks pair : List Char}
      (flags : IsFlags arithmeticFlags marks) (written : PairWritten type operands pair) :
      OperandsWritten (some result) op.mnemonic (.compute result type (.arith op) operands) (marks ++ pair)
  | icmp {result : String} {predicate : IntPredicate} {operands : List TypedOperand} {compared : List Char}
      (written : ComparisonWritten integerFlags predicate.mnemonic operands compared) :
      OperandsWritten (some result) "icmp" (.compute result "i1" (.icmp predicate) operands) compared
  | fcmp {result : String} {predicate : FloatPredicate} {operands : List TypedOperand} {compared : List Char}
      (written : ComparisonWritten fastMathFlags predicate.mnemonic operands compared) :
      OperandsWritten (some result) "fcmp" (.compute result "i1" (.fcmp predicate) operands) compared
  | select {result : String} {condition ifTrue ifFalse : TypedOperand}
      {marks tested one first two second : List Char} (flags : IsFlags fastMathFlags marks)
      (test : ScalarWritten condition tested) (comma : IsComma one)
      (yes : ScalarWritten ifTrue first) (again : IsComma two) (no : ifFalse.Written second)
      (same : ifFalse.type = ifTrue.type) :
      OperandsWritten (some result) "select"
        (.compute result ifTrue.type .select [condition, ifTrue, ifFalse])
        (marks ++ (tested ++ (one ++ (first ++ (two ++ second)))))
  | cast {result : String} {op : Cast} {source : TypedOperand}
      {marks operand before after target : List Char} (flags : IsFlags integerFlags marks)
      (written : ScalarWritten source operand) (parted : before ≠ []) (front : IsGaps before)
      (filled : after ≠ []) (back : IsGaps after) (scalar : IsScalar target) :
      OperandsWritten (some result) op.mnemonic
        (.compute result (String.ofList target) (.cast op) [source])
        (marks ++ (operand ++ (before ++ ("to".toList ++ (after ++ target)))))
  | unary {result : String} {opcode : Opcode} {source : TypedOperand} {marks operand : List Char}
      (known : opcode = .fneg ∨ opcode = .freeze) (flags : IsFlags fastMathFlags marks)
      (written : ScalarWritten source operand) :
      OperandsWritten (some result) opcode.name (.compute result source.type opcode [source])
        (marks ++ operand)
  | call {result : String} {arguments : List TypedOperand} {sigil : Char}
      {marks type gaps callee listed : List Char} (flags : IsFlags callAttributes marks)
      (scalar : IsScalar type) (filled : gaps ≠ []) (blanks : IsGaps gaps)
      (known : sigil = '@' ∨ sigil = '%') (named : IsName sigil (sigil :: callee))
      (written : ArgumentsWritten arguments listed) :
      OperandsWritten (some result) "call"
        (.compute result (String.ofList type) (.call (String.ofList callee)) arguments)
        (marks ++ (type ++ (gaps ++ (sigil :: callee ++ listed))))

/-- The word of an operation with the blanks behind it, or that of a call behind a marker. -/
inductive IsOperation : String → List Char → Prop where
  | bare {opcode : String} {gaps : List Char} (filled : gaps ≠ []) (blanks : IsGaps gaps) :
      IsOperation opcode (opcode.toList ++ gaps)
  | marked {marker : String} {between gaps : List Char} (known : tailMarkers.contains marker = true)
      (parted : between ≠ []) (front : IsGaps between) (filled : gaps ≠ []) (back : IsGaps gaps) :
      IsOperation "call" (marker.toList ++ (between ++ ("call".toList ++ gaps)))

/-- An instruction as it stands in a line. -/
inductive Written : Instruction → List Char → Prop where
  | defining {instruction : Instruction} {opcode : String} {name before after operation operands : List Char}
      (isName : IsName '%' name) (front : IsGaps before) (back : IsGaps after)
      (named : IsOperation opcode operation)
      (written : OperandsWritten (some (String.ofList name)) opcode instruction operands) :
      Written instruction (name ++ (before ++ '=' :: (after ++ (operation ++ operands))))
  | plain {instruction : Instruction} {opcode : String} {operation operands : List Char}
      (named : IsOperation opcode operation) (written : OperandsWritten none opcode instruction operands) :
      Written instruction (operation ++ operands)

/-- Attributes behind the operands of an instruction. The first behind a comma does not look like an
    edge of a merge. -/
inductive IsAttributes : List Char → Prop where
  | none : IsAttributes []
  | listed {separator body : List Char} (comma : IsComma separator) (solid : Solid body)
      (noEdge : body.head? ≠ some '[') : IsAttributes (separator ++ body)
  | marked {gaps body : List Char} {mark : Char} (blanks : IsGaps gaps) (solid : Solid (mark :: body))
      (known : mark = '#' ∨ mark = '!') : IsAttributes (gaps ++ mark :: body)

/-! ### What follows the operands -/

theorem clear_isGap_of_solid (solid : Solid text) : Clear isGap text := by
  obtain ⟨c, more, rfl, visible⟩ := solid.starts
  refine clear_cons.2 (Bool.eq_false_iff.2 fun blank => ?_)
  exact Bool.noConfusion (visible.symm.trans (isBlank_of_isGap blank))

/-- A comma with blanks around it ends what has neither in it. -/
theorem clear_of_isComma {accept : Char → Bool} {separator : List Char} (isComma : IsComma separator)
    (apart : ∀ c, isGap c = true → accept c = false) (comma : accept ',' = false) (rest : List Char) :
    Clear accept (separator ++ rest) := by
  obtain ⟨before, after, rfl, front, _⟩ := isComma
  rw [List.append_assoc]
  exact clear_gaps apart front (clear_cons.2 comma)

theorem IsAttributes.clear {accept : Char → Bool} (attributes : IsAttributes text)
    (apart : ∀ c, isGap c = true → accept c = false)
    (marks : [',', '#', '!'].all (fun c => !accept c) = true) : Clear accept text := by
  have comma : accept ',' = false := by simpa using List.all_eq_true.1 marks ',' (by simp)
  have hash : accept '#' = false := by simpa using List.all_eq_true.1 marks '#' (by simp)
  have bang : accept '!' = false := by simpa using List.all_eq_true.1 marks '!' (by simp)
  cases attributes with
  | none => exact clear_nil
  | listed isComma _ _ => exact clear_of_isComma isComma apart comma _
  | marked blanks _ known =>
    apply clear_gaps apart blanks
    rcases known with rfl | rfl
    · exact clear_cons.2 hash
    · exact clear_cons.2 bang

theorem IsAttributes.clear_isNameChar (attributes : IsAttributes text) : Clear isNameChar text :=
  attributes.clear (fun _ => isNameChar_of_isGap) (by decide)

/-- Attributes are not read as an edge of a merge. -/
theorem IsAttributes.misses_nextEdge (attributes : IsAttributes text) : nextEdge.Misses text := by
  cases attributes with
  | none => exact ⟨[], rfl⟩
  | @listed separator body isComma solid noEdge =>
    have read : comma (separator ++ body) = .done () body := comma_done isComma (clear_isGap_of_solid solid)
    exact misses_bind_of_done read (misses_char noEdge).bind
  | @marked gaps body mark blanks solid known =>
    have read : gap (gaps ++ mark :: body) = .done () (mark :: body) :=
      gap_done blanks (clear_isGap_of_solid solid)
    have noComma : (char ',').Misses (mark :: body) := by
      apply misses_char
      rcases known with rfl | rfl
      · simp
      · simp
    exact Misses.bind (misses_bind_of_done read noComma.bind)

theorem IsAttributes.isTrailer (attributes : IsAttributes text) : isTrailer text = true := by
  have nothing : ∀ c ∈ ([] : List Char), isBlank c = true := by simp
  cases attributes with
  | none => rfl
  | @listed separator body isComma solid noEdge =>
    obtain ⟨before, after, rfl, front, _⟩ := isComma
    have comma : Solid [','] := ⟨⟨',', [], rfl, rfl⟩, ⟨[], ',', rfl, rfl⟩⟩
    have trimmed := (comma.append after solid).trim_between
      (fun c member => isBlank_of_isGap (front c member)) nothing
    unfold Instruction.isTrailer
    rw [show before ++ ',' :: after ++ body = before ++ ([','] ++ (after ++ body)) ++ [] by simp, trimmed]
    rfl
  | @marked gaps body mark blanks solid known =>
    have trimmed := solid.trim_between (fun c member => isBlank_of_isGap (blanks c member)) nothing
    rw [List.append_nil] at trimmed
    unfold Instruction.isTrailer
    rw [trimmed]
    rcases known with rfl | rfl
    · rfl
    · rfl

theorem IsAttributes.solid_append {front : List Char} (attributes : IsAttributes text)
    (solid : Solid front) : Solid (front ++ text) := by
  cases attributes with
  | none => simpa using solid
  | listed _ back _ => exact solid.append _ back
  | marked _ back _ => exact solid.append _ back

/-! ### Readers of operands -/

theorem IsScalar.isType (scalar : IsScalar type) : IsType type :=
  ⟨type, [], by simp, .word scalar.isWord, by simp⟩

/-- Flags before a typed operand are read up to its type. -/
theorem flags_of_operand {set : List String} {typed : TypedOperand} {marks : List Char}
    (isFlags : IsFlags set marks) (operand : ScalarWritten typed text)
    (apart : set.all (fun word => (ScalarType.ofSpelling? word).isNone) = true) (rest : List Char) :
    flags set (marks ++ (text ++ rest)) = .done () (text ++ rest) := by
  obtain ⟨written, scalar⟩ := operand
  cases written with
  | @pair value type gaps attributes operand _ filled blanks _ _ =>
    rw [String.toList_ofList] at scalar
    simp only [List.append_assoc]
    exact flags_of_scalar isFlags scalar apart (clear_filled_gaps (fun _ => isWordChar_of_isGap)
      filled blanks _)

/-- A typed operand in front of a comma. -/
theorem typedOperand_of_comma {typed : TypedOperand} {separator : List Char} (written : typed.Written text)
    (isComma : IsComma separator) (rest : List Char) :
    typedOperand (text ++ (separator ++ rest)) = .done typed (separator ++ rest) :=
  readsAll_typedOperand written (clear_isNameChar_of_isComma isComma rest)

theorem computing_of_scalar {result type : String} {opcode : Opcode} {operands : List TypedOperand}
    (scalar : IsScalar type.toList) :
    computing result type opcode operands = .compute result type opcode operands := by
  have valued := scalar.not_isPointer
  rw [String.ofList_toList] at valued
  rw [computing, if_neg (by simp [valued])]

theorem return_computing {result type : String} {opcode : Opcode} {operands : List TypedOperand}
    (scalar : IsScalar type.toList) (rest : List Char) :
    (pure (computing result type opcode operands) : Reader Instruction) rest =
      .done (.compute result type opcode operands) rest := by
  rw [computing_of_scalar scalar]
  rfl

theorem operandPair_done {type : String} {operands : List TypedOperand}
    (written : PairWritten type operands text) (clear : Clear isNameChar rest) :
    operandPair (text ++ rest) = .done (type, operands) rest := by
  cases written with
  | @pair left right first separator second one isComma two =>
    simp only [List.append_assoc]
    apply bind_done (typedOperand_of_comma one.written isComma _)
    apply bind_done (comma_done isComma (clear_isGap_of_written two rest))
    exact bind_done (readsAll_operand two clear) rfl

theorem PairWritten.clear_isGap {type : String} {operands : List TypedOperand}
    (written : PairWritten type operands text) (rest : List Char) : Clear isGap (text ++ rest) := by
  cases written with
  | pair one _ _ =>
    rw [List.append_assoc]
    exact clear_isGap_of_typed one.written _

theorem PairWritten.endsSolid {type : String} {operands : List TypedOperand}
    (written : PairWritten type operands text) : EndsSolid text := by
  cases written with
  | pair _ _ two => exact ((solid_of_written two).endsSolid.append _).append _

theorem PairWritten.scalar {type : String} {operands : List TypedOperand}
    (written : PairWritten type operands text) : IsScalar type.toList := by
  cases written with
  | pair one _ _ => exact one.scalar

/-- A comparison with the words of its family. Both families of comparisons are read by it. -/
def readComparison {π : Type} (set : List String) (ofMnemonic? : String → Option π) (opcode : π → Opcode)
    (result : String) : Reader Instruction := do
  flags set
  let predicate ← filterMap spacedWord ofMnemonic?
  let (_, operands) ← operandPair
  return computing result "i1" (opcode predicate) operands

theorem readComparison_of_written {π : Type} {set : List String} {ofMnemonic? : String → Option π}
    {opcode : π → Opcode} {predicate : π} {mnemonic result : String} {operands : List TypedOperand}
    (named : ofMnemonic? mnemonic = some predicate) (isWord : IsWord mnemonic.toList)
    (unknown : set.contains mnemonic = false) (written : ComparisonWritten set mnemonic operands text)
    (clear : Clear isNameChar rest) :
    readComparison set ofMnemonic? opcode result (text ++ rest) =
      .done (.compute result "i1" (opcode predicate) operands) rest := by
  cases written with
  | @compared marks gaps pair type operands isFlags filled blanks written =>
    have ends : Clear isWordChar (gaps ++ (pair ++ rest)) :=
      clear_filled_gaps (fun _ => isWordChar_of_isGap) filled blanks _
    have starts : Clear isGap (pair ++ rest) := written.clear_isGap rest
    have first : word (mnemonic.toList ++ (gaps ++ (pair ++ rest))) =
        .done mnemonic (gaps ++ (pair ++ rest)) := by
      simpa using word_done isWord ends
    have spaced : spacedWord (mnemonic.toList ++ (gaps ++ (pair ++ rest))) = .done mnemonic (pair ++ rest) :=
      bind_done first (bind_done (gap1_done filled blanks starts) rfl)
    simp only [List.append_assoc]
    apply bind_done (flags_of_word isFlags isWord ends (by simpa using unknown))
    apply bind_done (filterMap_eq_done_iff.2 ⟨mnemonic, spaced, named⟩)
    exact bind_done (operandPair_done written clear) rfl

theorem ComparisonWritten.clear_isGap {set : List String} {mnemonic : String}
    {operands : List TypedOperand} (written : ComparisonWritten set mnemonic operands text)
    (isWord : IsWord mnemonic.toList) (rest : List Char) : Clear isGap (text ++ rest) := by
  cases written with
  | compared isFlags _ _ _ =>
    simp only [List.append_assoc]
    exact clear_isGap_of_isFlags isFlags (isWord.clear_isGap _)

theorem ComparisonWritten.endsSolid {set : List String} {mnemonic : String} {operands : List TypedOperand}
    (written : ComparisonWritten set mnemonic operands text) : EndsSolid text := by
  cases written with
  | compared _ _ _ pair => exact ((pair.endsSolid.append _).append _).append _

theorem readBranch_of_target {label : String} (written : IsTarget label text)
    (clear : Clear isNameChar rest) : readBranch (text ++ rest) = .done (.branch label) rest := by
  apply orElse_of_done
  exact bind_done (readsAll_blockLabel written clear) rfl

/-- A word other than a keyword is not read as the keyword. -/
theorem misses_keyword_of_word {expected : String} {chars : List Char} (isWord : IsWord chars)
    (ends : Clear isNameChar rest) (spelled : IsWord expected.toList)
    (other : String.ofList chars ≠ expected) : (keyword expected).Misses (chars ++ rest) := by
  rcases (keyword expected).cases_outcome (chars ++ rest) with ⟨_, left, read⟩ | misses | sticks
  · obtain ⟨same, clear⟩ := keyword_eq_done_iff.1 read
    have one : word (chars ++ rest) = .done (String.ofList chars) rest :=
      word_done isWord (ends.mono fun _ => isNameChar_of_isWordChar)
    have two : word (chars ++ rest) = .done expected left :=
      word_eq_done_iff.2 ⟨_, same, by simp, spelled, clear.mono fun _ => isNameChar_of_isWordChar⟩
    exact absurd (Outcome.done.inj (one.symm.trans two)).1 other
  · exact misses
  · obtain ⟨left, stuck⟩ := sticks
    rcases sticks_bind_iff.1 ⟨left, stuck⟩ with first | ⟨_, left, _, second⟩
    · exact absurd first not_sticks_token
    · obtain ⟨_, stuck⟩ := second
      unfold notFollowedBy at stuck
      split at stuck
      · split at stuck <;> cases stuck
      · cases stuck

/-- A typed operand is not read as the target of a branch. -/
theorem misses_blockLabel {typed : TypedOperand} (operand : ScalarWritten typed text) (rest : List Char) :
    blockLabel.Misses (text ++ rest) := by
  obtain ⟨written, scalar⟩ := operand
  cases written with
  | @pair value type gaps marks operand _ filled blanks _ _ =>
    rw [String.toList_ofList] at scalar
    have other : String.ofList type ≠ "label" := by
      intro same
      have accepted := scalar.accepted
      rw [same] at accepted
      exact absurd accepted (by decide)
    simp only [List.append_assoc]
    have ends : Clear isNameChar (gaps ++ (marks ++ (operand ++ rest))) :=
      clear_filled_gaps (fun _ => isNameChar_of_isGap) filled blanks _
    have spelled : IsWord "label".toList := ⟨by decide, List.all_eq_true.1 rfl⟩
    exact (misses_keyword_of_word scalar.isWord ends spelled other).bind

theorem IsTarget.clear_isGap {label : String} (target : IsTarget label text) (rest : List Char) :
    Clear isGap (text ++ rest) := by
  obtain ⟨gaps, name, rfl, _⟩ := target
  exact clear_cons.2 rfl

theorem blockLabel_of_comma {label : String} {separator : List Char} (target : IsTarget label text)
    (isComma : IsComma separator) (rest : List Char) :
    blockLabel (text ++ (separator ++ rest)) = .done label (separator ++ rest) :=
  readsAll_blockLabel target (clear_isNameChar_of_isComma isComma rest)

section Readers

variable {result : String} {marks separator : List Char}

theorem readPhi_of_written {gaps edges : List Char} {incoming : List Incoming}
    (isFlags : IsFlags fastMathFlags marks) (scalar : IsScalar type) (filled : gaps ≠ [])
    (blanks : IsGaps gaps) (written : EdgesWritten incoming edges)
    (attributes : IsAttributes rest) :
    readPhi result (marks ++ (type ++ (gaps ++ edges)) ++ rest) =
      .done (.phi result (String.ofList type) incoming) rest := by
  have head : MergeHead (String.ofList type) (marks ++ (type ++ gaps)) :=
    ⟨marks, type, gaps, rfl, rfl, isFlags, scalar.isType, scalar.not_mem (by decide), filled, blanks⟩
  have ends := misses_nextEdge_iff.1 attributes.misses_nextEdge
  exact readPhi_eq_phi_iff.2 ⟨rfl, _, edges, by simp, head, scalar.not_isPointer, written, ends⟩

theorem readBranch_of_condition {condition : TypedOperand} {ifTrue ifFalse : String}
    {tested one first two second : List Char} (test : ScalarWritten condition tested) (comma : IsComma one)
    (yes : IsTarget ifTrue first) (again : IsComma two) (no : IsTarget ifFalse second)
    (clear : Clear isNameChar rest) :
    readBranch (tested ++ (one ++ (first ++ (two ++ second))) ++ rest) =
      .done (.branchIf condition.value ifTrue ifFalse) rest := by
  simp only [List.append_assoc]
  refine (orElse_of_misses (misses_blockLabel test _).bind).trans ?_
  apply bind_done (typedOperand_of_comma test.written comma _)
  apply bind_done (comma_done comma (yes.clear_isGap _))
  apply bind_done (blockLabel_of_comma yes again _)
  apply bind_done (comma_done again (no.clear_isGap _))
  exact bind_done (readsAll_blockLabel no clear) rfl

theorem readLoad_of_written {address : TypedOperand} {pointer : List Char}
    (isFlags : IsFlags memoryFlags marks) (scalar : IsScalar type) (isComma : IsComma separator)
    (written : address.Written pointer) (clear : Clear isNameChar rest) :
    readLoad result (marks ++ (type ++ (separator ++ pointer)) ++ rest) =
      .done (.load result (String.ofList type) address.value) rest := by
  have ends : Clear isTypeChar (separator ++ (pointer ++ rest)) :=
    clear_of_isComma isComma (fun _ => isTypeChar_of_isGap) rfl _
  have noWord : Clear isWordChar (separator ++ (pointer ++ rest)) :=
    clear_of_isComma isComma (fun _ => isWordChar_of_isGap) rfl _
  simp only [List.append_assoc]
  apply bind_done (flags_of_scalar isFlags scalar (by decide) noWord)
  apply bind_done (readsAll_typeSpelling ⟨rfl, scalar.isType⟩ ends)
  apply bind_done (comma_done isComma (clear_isGap_of_typed written rest))
  apply bind_done (readsAll_typedOperand written clear)
  rw [if_neg (by simp [scalar.not_isPointer])]
  rfl

theorem readStore_of_written {stored address : TypedOperand} {value pointer : List Char}
    (isFlags : IsFlags memoryFlags marks) (written : ScalarWritten stored value)
    (isComma : IsComma separator) (target : address.Written pointer)
    (clear : Clear isNameChar rest) :
    readStore (marks ++ (value ++ (separator ++ pointer)) ++ rest) =
      .done (.store stored.type stored.value address.value) rest := by
  simp only [List.append_assoc]
  apply bind_done (flags_of_operand isFlags written (by decide) _)
  apply bind_done (typedOperand_of_comma written.written isComma _)
  apply bind_done (comma_done isComma (clear_isGap_of_typed target rest))
  exact bind_done (readsAll_typedOperand target clear) rfl

theorem readArith_of_written {type : String} {op : Arith} {operands : List TypedOperand} {pair : List Char}
    (isFlags : IsFlags arithmeticFlags marks) (written : PairWritten type operands pair)
    (clear : Clear isNameChar rest) :
    readArith result op (marks ++ pair ++ rest) =
      .done (.compute result type (.arith op) operands) rest := by
  have before : flags arithmeticFlags (marks ++ (pair ++ rest)) = .done () (pair ++ rest) := by
    cases written with
    | pair one _ _ =>
      rw [List.append_assoc]
      exact flags_of_operand isFlags one (by decide) _
  rw [List.append_assoc]
  apply bind_done (before)
  apply bind_done (operandPair_done written clear)
  exact return_computing written.scalar rest

theorem readSelect_of_written {condition ifTrue ifFalse : TypedOperand}
    {tested one first two second : List Char} (isFlags : IsFlags fastMathFlags marks)
    (test : ScalarWritten condition tested) (comma : IsComma one) (yes : ScalarWritten ifTrue first)
    (again : IsComma two) (no : ifFalse.Written second) (same : ifFalse.type = ifTrue.type)
    (clear : Clear isNameChar rest) :
    readSelect result (marks ++ (tested ++ (one ++ (first ++ (two ++ second)))) ++ rest) =
      .done (.compute result ifTrue.type .select [condition, ifTrue, ifFalse]) rest := by
  simp only [List.append_assoc]
  apply bind_done (flags_of_operand isFlags test (by decide) _)
  apply bind_done (typedOperand_of_comma test.written comma _)
  apply bind_done (comma_done comma (clear_isGap_of_typed yes.written _))
  apply bind_done (typedOperand_of_comma yes.written again _)
  apply bind_done (comma_done again (clear_isGap_of_typed no rest))
  apply bind_done (readsAll_typedOperand no clear)
  rw [← same]
  exact return_computing (same ▸ yes.scalar) rest

theorem readCast_of_written {op : Cast} {source : TypedOperand} {operand before after target : List Char}
    (isFlags : IsFlags integerFlags marks) (written : ScalarWritten source operand) (parted : before ≠ [])
    (front : IsGaps before) (filled : after ≠ []) (back : IsGaps after) (scalar : IsScalar target)
    (clear : Clear isTypeChar rest) :
    readCast result op (marks ++ (operand ++ (before ++ ("to".toList ++ (after ++ target)))) ++ rest) =
      .done (.compute result (String.ofList target) (.cast op) [source]) rest := by
  have ends : Clear isNameChar (before ++ ("to".toList ++ (after ++ (target ++ rest)))) :=
    clear_filled_gaps (fun _ => isNameChar_of_isGap) parted front _
  have keyed : Clear isGap ("to".toList ++ (after ++ (target ++ rest))) := clear_cons.2 rfl
  have parts : Clear isNameChar (after ++ (target ++ rest)) :=
    clear_filled_gaps (fun _ => isNameChar_of_isGap) filled back _
  have valued := written.scalar.not_isPointer
  rw [String.ofList_toList] at valued
  simp only [List.append_assoc]
  apply bind_done (flags_of_operand isFlags written (by decide) _)
  apply bind_done (readsAll_typedOperand written.written ends)
  apply bind_done (gap1_done parted front keyed)
  apply bind_done (keyword_done parts)
  apply bind_done (gap1_done filled back (scalar.isType.clear_isGap rest))
  apply bind_done (readsAll_typeSpelling ⟨rfl, scalar.isType⟩ clear)
  rw [if_neg (by simp [valued])]
  exact return_computing (by simpa using scalar) rest

theorem readUnary_of_written {opcode : Opcode} {source : TypedOperand} {operand : List Char}
    (isFlags : IsFlags fastMathFlags marks) (written : ScalarWritten source operand)
    (clear : Clear isNameChar rest) :
    readUnary result opcode (marks ++ operand ++ rest) =
      .done (.compute result source.type opcode [source]) rest := by
  rw [List.append_assoc]
  apply bind_done (flags_of_operand isFlags written (by decide) _)
  apply bind_done (readsAll_typedOperand written.written clear)
  exact return_computing written.scalar rest

/-- The name behind a call is read with its sigil. -/
theorem callee_read {sigil : Char} {callee : List Char} (known : sigil = '@' ∨ sigil = '%')
    (named : IsName sigil (sigil :: callee)) (clear : Clear isNameChar rest) :
    (globalSymbol <|> reference) (sigil :: callee ++ rest) =
      .done (String.ofList (sigil :: callee)) rest := by
  have read : sigilName sigil (sigil :: callee ++ rest) = .done (String.ofList (sigil :: callee)) rest :=
    sigilName_eq_done_iff.2 ⟨_, rfl, rfl, named, clear⟩
  rcases known with rfl | rfl
  · exact orElse_of_done read
  · exact (orElse_of_misses (misses_sigilName (by simp))).trans read

theorem readCall_of_written {arguments : List TypedOperand} {sigil : Char}
    {gaps callee listed : List Char} (isFlags : IsFlags callAttributes marks)
    (scalar : IsScalar type) (filled : gaps ≠ []) (blanks : IsGaps gaps)
    (known : sigil = '@' ∨ sigil = '%') (named : IsName sigil (sigil :: callee))
    (written : ArgumentsWritten arguments listed) (rest : List Char) :
    readCall (some result) (marks ++ (type ++ (gaps ++ (sigil :: callee ++ listed))) ++ rest) =
      .done (.compute result (String.ofList type) (.call (String.ofList callee)) arguments) rest := by
  obtain ⟨opened, inside, closed, enclosed, one, two, three⟩ := arguments_read written rest
  have ends : Clear isTypeChar (gaps ++ (sigil :: callee ++ (listed ++ rest))) :=
    clear_filled_gaps (fun _ => isTypeChar_of_isGap) filled blanks _
  have noWord : Clear isWordChar (gaps ++ (sigil :: callee ++ (listed ++ rest))) :=
    clear_filled_gaps (fun _ => isWordChar_of_isGap) filled blanks _
  have called : Clear isGap (sigil :: callee ++ (listed ++ rest)) := by
    rcases known with rfl | rfl
    · exact clear_cons.2 rfl
    · exact clear_cons.2 rfl
  have parenthesized : Clear isNameChar (listed ++ rest) := by
    rw [enclosed]
    exact clear_cons.2 rfl
  have valued : (String.ofList type == "void") = false := by
    simpa using scalar.not_mem
      (by decide : ["void"].all (fun word => (ScalarType.ofSpelling? word).isNone) = true)
  simp only [List.append_assoc]
  apply bind_done (flags_of_scalar isFlags scalar (by decide) noWord)
  apply bind_done (readsAll_typeSpelling ⟨rfl, scalar.isType⟩ ends)
  apply bind_done (gap1_done filled blanks called)
  apply bind_done (callee_read known named parenthesized)
  rw [enclosed]
  apply bind_done (char_done _ _)
  apply bind_done (one)
  apply bind_done (two)
  apply bind_done (three)
  apply bind_done (char_done _ _)
  simp only [valued, Bool.false_eq_true, if_false, String.toList_ofList, List.drop_one, List.tail_cons]
  exact return_computing (by simpa using scalar) rest

end Readers

theorem operandReader?_arith (result : String) (op : Arith) :
    operandReader? (some result) op.mnemonic = some (readArith result op) := by
  cases op <;> rfl

theorem operandReader?_cast (result : String) (op : Cast) :
    operandReader? (some result) op.mnemonic = some (readCast result op) := by
  cases op <;> rfl

theorem readIntComparison_of_written {result : String} {predicate : IntPredicate}
    {operands : List TypedOperand}
    (written : ComparisonWritten integerFlags predicate.mnemonic operands text)
    (clear : Clear isNameChar rest) :
    readIntComparison result (text ++ rest) =
      .done (.compute result "i1" (.icmp predicate) operands) rest := by
  have named : IntPredicate.ofMnemonic? predicate.mnemonic = some predicate := by cases predicate <;> rfl
  have unknown : integerFlags.contains predicate.mnemonic = false := by cases predicate <;> rfl
  exact readComparison_of_written named predicate.isWord_mnemonic unknown written clear

theorem readFloatComparison_of_written {result : String} {predicate : FloatPredicate}
    {operands : List TypedOperand}
    (written : ComparisonWritten fastMathFlags predicate.mnemonic operands text)
    (clear : Clear isNameChar rest) :
    readFloatComparison result (text ++ rest) =
      .done (.compute result "i1" (.fcmp predicate) operands) rest := by
  have named : FloatPredicate.ofMnemonic? predicate.mnemonic = some predicate := by cases predicate <;> rfl
  have unknown : fastMathFlags.contains predicate.mnemonic = false := by cases predicate <;> rfl
  exact readComparison_of_written named predicate.isWord_mnemonic unknown written clear

/-- Operands are read as the instruction they are a form of, up to the attributes behind them. -/
theorem OperandsWritten.reads {result : Option String} {opcode : String} {instruction : Instruction}
    (written : OperandsWritten result opcode instruction text) (attributes : IsAttributes rest) :
    ∃ reader, operandReader? result opcode = some reader ∧
      reader (text ++ rest) = .done instruction rest := by
  have clear := attributes.clear_isNameChar
  cases written with
  | phi isFlags scalar filled blanks edges =>
    exact ⟨_, rfl, readPhi_of_written isFlags scalar filled blanks edges attributes⟩
  | jump target => exact ⟨_, rfl, readBranch_of_target target clear⟩
  | fork test comma yes again no => exact ⟨_, rfl, readBranch_of_condition test comma yes again no clear⟩
  | load isFlags scalar comma address =>
    exact ⟨_, rfl, readLoad_of_written isFlags scalar comma address clear⟩
  | store isFlags stored comma address =>
    exact ⟨_, rfl, readStore_of_written isFlags stored comma address clear⟩
  | arith isFlags pair => exact ⟨_, operandReader?_arith _ _, readArith_of_written isFlags pair clear⟩
  | icmp compared => exact ⟨_, rfl, readIntComparison_of_written compared clear⟩
  | fcmp compared => exact ⟨_, rfl, readFloatComparison_of_written compared clear⟩
  | select isFlags test comma yes again no same =>
    exact ⟨_, rfl, readSelect_of_written isFlags test comma yes again no same clear⟩
  | cast isFlags source parted front filled back scalar =>
    have ends : Clear isTypeChar rest := attributes.clear (fun _ => isTypeChar_of_isGap) (by decide)
    exact ⟨_, operandReader?_cast _ _,
      readCast_of_written isFlags source parted front filled back scalar ends⟩
  | unary known isFlags source =>
    rcases known with rfl | rfl
    · exact ⟨_, rfl, readUnary_of_written isFlags source clear⟩
    · exact ⟨_, rfl, readUnary_of_written isFlags source clear⟩
  | call isFlags scalar filled blanks known named arguments =>
    exact ⟨_, rfl, readCall_of_written isFlags scalar filled blanks known named arguments rest⟩

/-! ### Lines -/

/-- The operations that have operands of some form. -/
def writtenOperations : List String :=
  ["phi", "br", "load", "store", "icmp", "fcmp", "select", "fneg", "freeze", "call"] ++
    Arith.all.map Arith.mnemonic ++ Cast.all.map Cast.mnemonic

theorem OperandsWritten.mem_operations {result : Option String} {opcode : String} {instruction : Instruction}
    (written : OperandsWritten result opcode instruction text) : opcode ∈ writtenOperations := by
  unfold writtenOperations
  cases written with
  | @arith _ _ op _ _ _ _ _ =>
    have member : op ∈ Arith.all := by cases op <;> decide
    simp [List.mem_map_of_mem member]
  | @cast _ op _ _ _ _ _ _ _ _ _ _ _ _ _ =>
    have member : op ∈ Cast.all := by cases op <;> decide
    simp [List.mem_map_of_mem member]
  | unary known _ _ =>
    rcases known with rfl | rfl
    · simp [Opcode.name]
    · simp [Opcode.name]
  | _ => simp

theorem OperandsWritten.clear_isGap {result : Option String} {opcode : String}
    {instruction : Instruction} (written : OperandsWritten result opcode instruction text)
    (rest : List Char) : Clear isGap (text ++ rest) := by
  cases written with
  | phi isFlags scalar _ _ _ | load isFlags scalar _ _ | call isFlags scalar _ _ _ _ _ =>
    simp only [List.append_assoc]
    exact clear_isGap_of_isFlags isFlags (scalar.isType.clear_isGap _)
  | jump target => exact target.clear_isGap rest
  | fork test _ _ _ _ =>
    rw [List.append_assoc]
    exact clear_isGap_of_typed test.written _
  | store isFlags operand _ _ | select isFlags operand _ _ _ _ _ | cast isFlags operand _ _ _ _ _
  | unary _ isFlags operand =>
    simp only [List.append_assoc]
    exact clear_isGap_of_isFlags isFlags (clear_isGap_of_typed operand.written _)
  | arith isFlags pair =>
    rw [List.append_assoc]
    exact clear_isGap_of_isFlags isFlags (pair.clear_isGap _)
  | @icmp _ predicate _ _ compared => exact compared.clear_isGap predicate.isWord_mnemonic rest
  | @fcmp _ predicate _ _ compared => exact compared.clear_isGap predicate.isWord_mnemonic rest

theorem OperandsWritten.endsSolid {result : Option String} {opcode : String} {instruction : Instruction}
    (written : OperandsWritten result opcode instruction text) : EndsSolid text := by
  cases written with
  | phi _ _ _ _ edges => exact (((endsSolid_of_edges edges).append _).append _).append _
  | jump target => exact target.endsSolid
  | fork _ _ _ _ no => exact (((no.endsSolid.append _).append _).append _).append _
  | load _ _ _ address => exact (((endsSolid_of_typed address).append _).append _).append _
  | store _ _ _ address => exact (((endsSolid_of_typed address).append _).append _).append _
  | arith _ pair => exact pair.endsSolid.append _
  | icmp compared => exact compared.endsSolid
  | fcmp compared => exact compared.endsSolid
  | select _ _ _ _ _ no _ =>
    exact (((((endsSolid_of_typed no).append _).append _).append _).append _).append _
  | cast _ _ _ _ _ _ scalar =>
    exact (((((scalar.solid.endsSolid.append _).append _).append _).append _).append _)
  | unary _ _ source => exact (endsSolid_of_typed source.written).append _
  | call _ _ _ _ _ _ arguments =>
    exact ((((endsSolid_of_arguments arguments).append _).append _).append _).append _

/-- An operation starts with a word. -/
theorem IsOperation.exists_word {opcode : String} (operation : IsOperation opcode text)
    (isWord : IsWord opcode.toList) : ∃ chars more, text = chars ++ more ∧ IsWord chars := by
  cases operation with
  | bare => exact ⟨_, _, rfl, isWord⟩
  | marked known => exact ⟨_, _, rfl, isWord_of_areWords (by decide) (List.contains_iff_mem.1 known)⟩

theorem IsOperation.starts {opcode : String} (operation : IsOperation opcode text)
    (isWord : IsWord opcode.toList) (unmarked : tailMarkers.contains opcode = false)
    (clear : Clear isGap rest) : StartsOperation opcode (text ++ rest) rest := by
  cases operation with
  | @bare _ gaps filled blanks =>
    have ends := clear_filled_gaps (fun _ => isWordChar_of_isGap) filled blanks rest
    exact .plain ⟨opcode.toList, gaps, by simp, by simp, isWord, blanks, ends, clear⟩ unmarked
  | @marked marker between gaps known parted front filled back =>
    have isMarker : IsWord marker.toList := isWord_of_areWords (by decide) (List.contains_iff_mem.1 known)
    have ends := clear_filled_gaps (fun _ => isWordChar_of_isGap) filled back rest
    have called : StartsWord "call" ("call".toList ++ (gaps ++ rest)) rest :=
      ⟨"call".toList, gaps, rfl, by simp, isWord, back, ends, clear⟩
    have between := clear_filled_gaps (fun _ => isWordChar_of_isGap) parted front
      ("call".toList ++ (gaps ++ rest))
    refine .marked ⟨marker.toList, _, ?_, by simp, isMarker, front, between, isWord.clear_isGap _⟩
      known called
    simp

/-- A line that starts with a word defines no reference. -/
theorem not_startsAssignment_of_word {chars : List Char} (isWord : IsWord chars) (result : String)
    (left : List Char) : ¬ StartsAssignment result (chars ++ rest) left := by
  rintro ⟨name, before, after, spelled, _, ⟨_, rfl, _⟩, _⟩
  obtain ⟨c, more, rfl⟩ := List.exists_cons_of_ne_nil isWord.1
  obtain ⟨rfl, _⟩ := List.cons.inj spelled
  exact Bool.noConfusion (isWord.2 _ List.mem_cons_self)

theorem OperandsWritten.isWord {result : Option String} {opcode : String} {instruction : Instruction}
    (written : OperandsWritten result opcode instruction text) :
    IsWord opcode.toList ∧ tailMarkers.contains opcode = false := by
  have table : writtenOperations.all (fun opcode => !tailMarkers.contains opcode) = true := by decide
  have unmarked := List.all_eq_true.1 table opcode written.mem_operations
  exact ⟨isWord_of_areWords (by decide) written.mem_operations, by simpa using unmarked⟩

/-- A written instruction neither starts nor ends with a blank. -/
theorem Written.solid {instruction : Instruction} (written : instruction.Written text) : Solid text := by
  cases written with
  | @defining _ name before after operation operands isName front back named written =>
    have behind : EndsSolid (before ++ '=' :: (after ++ (operation ++ operands))) :=
      ((((written.endsSolid.append operation).append after).append ['=']).append before)
    exact (isName.solid rfl).append_ends behind
  | plain named written =>
    obtain ⟨chars, more, rfl, isWord⟩ := named.exists_word written.isWord.1
    rw [List.append_assoc]
    exact isWord.solid.append_ends (written.endsSolid.append more)

/-- A written instruction opens with its operation; operands follow, and attributes. -/
theorem Written.opens {instruction : Instruction} (written : instruction.Written text) (rest : List Char) :
    ∃ result opcode operands, Opens (text ++ rest) result opcode (operands ++ rest) ∧
      OperandsWritten result opcode instruction operands := by
  cases written with
  | @defining opcode name before after operation operands isName front back named written =>
    obtain ⟨isWord, unmarked⟩ := written.isWord
    have starts := named.starts isWord unmarked (written.clear_isGap rest)
    have clear : Clear isGap (operation ++ (operands ++ rest)) := by
      obtain ⟨chars, more, rfl, first⟩ := named.exists_word isWord
      rw [List.append_assoc]
      exact first.clear_isGap _
    have assigned : StartsAssignment (String.ofList name)
        (name ++ (before ++ '=' :: (after ++ (operation ++ operands))) ++ rest)
        (operation ++ (operands ++ rest)) :=
      ⟨name, before, after, by simp, rfl, isName, front, back, clear⟩
    exact ⟨_, opcode, operands, .defining assigned starts, written⟩
  | @plain opcode operation operands named written =>
    obtain ⟨isWord, unmarked⟩ := written.isWord
    have starts := named.starts isWord unmarked (written.clear_isGap rest)
    rw [List.append_assoc]
    refine ⟨none, opcode, operands, .plain ?_ starts, written⟩
    obtain ⟨chars, more, rfl, first⟩ := named.exists_word isWord
    rw [List.append_assoc]
    exact not_startsAssignment_of_word first

/-- A written instruction is read from its line. Any blanks around it and any attributes behind its
    operands do not matter. -/
theorem read_of_written {instruction : Instruction} {front attributes back : List Char}
    (written : instruction.Written text) (trailing : IsAttributes attributes)
    (before : ∀ c ∈ front, isBlank c = true) (after : ∀ c ∈ back, isBlank c = true) :
    read (String.ofList (front ++ (text ++ attributes) ++ back)) = .ok instruction := by
  rw [read_eq_ok_iff, String.toList_ofList, (trailing.solid_append written.solid).trim_between before after]
  obtain ⟨result, opcode, operands, opens, form⟩ := written.opens attributes
  obtain ⟨reader, selected, read⟩ := form.reads trailing
  exact ⟨result, opcode, _, opens, reader, attributes, selected, read, trailing.isTrailer⟩

/-- A call behind a marker and flags, of a function with an attribute on one argument and a number
    with an exponent as the other. -/
def ornateCall : Instruction :=
  .compute "%r.0" "double" (.call "pow") [⟨"double", .ref "%x"⟩, ⟨"double", .literal "-1.5e+3"⟩]

theorem ornateCall_written :
    ornateCall.Written
        "%r.0 =\ttail  call fast nsz double @pow(double noundef %x,\tdouble -1.5e+3 )".toList := by
  have nothing : IsGaps [] := by simp [IsGaps]
  have space : IsGaps [' '] := List.all_eq_true.1 rfl
  have tab : IsGaps ['\t'] := List.all_eq_true.1 rfl
  have isFlag {set : List String} {chars : List Char} (known : set.contains (String.ofList chars) = true)
      (isWord : IsWord chars) : IsFlag set (chars ++ [' ']) :=
    ⟨chars, [' '], rfl, known, isWord, by simp, space⟩
  have isDouble : IsWord "double".toList := ⟨by decide, List.all_eq_true.1 rfl⟩
  have scalar : IsScalar "double".toList :=
    ⟨by decide, fun c member => isBlank_of_isNameChar (isNameChar_of_isWordChar (isDouble.2 c member))⟩
  have fast : IsFlag callAttributes ("fast".toList ++ [' ']) :=
    isFlag (by decide) ⟨by decide, List.all_eq_true.1 rfl⟩
  have noZeros : IsFlag callAttributes ("nsz".toList ++ [' ']) :=
    isFlag (by decide) ⟨by decide, List.all_eq_true.1 rfl⟩
  have defined : IsFlag parameterAttributes ("noundef".toList ++ [' ']) :=
    isFlag (by decide) ⟨by decide, List.all_eq_true.1 rfl⟩
  have base : Operand.Written (.ref "%x") "%x".toList :=
    .reference ⟨['x'], rfl, by simp, List.all_eq_true.1 rfl⟩
  have number : IsDecimal "-1.5e+3".toList :=
    ⟨['-'], "1.5".toList, "e+3".toList, rfl, .inr ⟨'-', rfl, rfl⟩,
      @IsMantissa.mixed ['1'] ['5'] ⟨by simp, List.all_eq_true.1 rfl⟩ (List.all_eq_true.1 rfl),
      .inr ⟨'e', ['+'], ['3'], rfl, rfl, .inr ⟨'+', rfl, rfl⟩, by simp, List.all_eq_true.1 rfl⟩⟩
  have power : Operand.Written (.literal "-1.5e+3") "-1.5e+3".toList := .literal (.decimal number)
  have first := TypedOperand.Written.pair scalar.isType (by simp) space ⟨[()], .cons defined .nil⟩ base
  have second := TypedOperand.Written.pair scalar.isType (by simp) space ⟨[], .nil⟩ power
  have comma : IsComma [',', '\t'] := ⟨[], ['\t'], rfl, nothing, tab⟩
  have arguments := ArgumentsWritten.some nothing first (.cons ⟨_, _, rfl, comma, second⟩ .nil) space
  have operands := @OperandsWritten.call "%r.0" _ _ _ _ _ _ _
    ⟨[(), ()], .cons fast (.cons noZeros .nil)⟩ scalar (by simp) space (.inl rfl)
    ⟨"pow".toList, rfl, by decide, List.all_eq_true.1 rfl⟩ arguments
  have operation := @IsOperation.marked "tail" [' ', ' '] [' '] rfl (by simp)
    (List.all_eq_true.1 rfl) (by simp) space
  have result : IsName '%' "%r.0".toList := ⟨"r.0".toList, rfl, by decide, List.all_eq_true.1 rfl⟩
  exact Written.defining result space tab operation operands

/-- The call is read from its line, with blanks around it and attributes behind it. -/
theorem ornateCall_read :
    ornateCall.Written
        "%r.0 =\ttail  call fast nsz double @pow(double noundef %x,\tdouble -1.5e+3 )".toList ∧
      read " %r.0 =\ttail  call fast nsz double @pow(double noundef %x,\tdouble -1.5e+3 ), !dbg !7\n" =
        .ok ornateCall := by
  have isComma : IsComma [',', ' '] := ⟨[], [' '], rfl, by simp [IsGaps], List.all_eq_true.1 rfl⟩
  have solid : Solid "!dbg !7".toList := ⟨⟨'!', _, rfl, rfl⟩, ⟨"!dbg !".toList, '7', rfl, rfl⟩⟩
  have trailing : IsAttributes ([',', ' '] ++ "!dbg !7".toList) := .listed isComma solid (by decide)
  have before : ∀ c ∈ [' '], isBlank c = true := List.all_eq_true.1 rfl
  have after : ∀ c ∈ ['\n'], isBlank c = true := List.all_eq_true.1 rfl
  have spelled : " %r.0 =\ttail  call fast nsz double @pow(double noundef %x,\tdouble -1.5e+3 ), !dbg !7\n" =
      String.ofList ([' '] ++
        ("%r.0 =\ttail  call fast nsz double @pow(double noundef %x,\tdouble -1.5e+3 )".toList ++
          ([',', ' '] ++ "!dbg !7".toList)) ++ ['\n']) := by
    rfl
  rw [spelled]
  exact ⟨ornateCall_written, read_of_written ornateCall_written trailing before after⟩

end Instruction

end RegionFlow
