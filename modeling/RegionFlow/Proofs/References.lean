/-
Module: RegionFlow.Proofs.References
Purpose: The references that computations of a listing use. A property of what a reader yields follows the
  reader's parts: what comes before the last part does not matter, a choice yields what one of its
  alternatives yields. Operands are read in one place, so every reference among the operands of a
  computation consists of a sigil and name characters. No operation but one yields merges.
Main exports: Text.Reader.Yields, Instruction.isReferenceName, Instruction.usesNames_of_readLines,
  Instruction.yields_operandReader
-/
import RegionFlow.Instruction.Listing
import RegionFlow.Proofs.Lines

namespace RegionFlow

namespace Text.Reader

variable {α β : Type} {holds : α → Prop} {after : β → Prop}

/-- Whatever a reader yields satisfies a property. -/
def Yields (reader : Reader α) (holds : α → Prop) : Prop :=
  ∀ ⦃text value rest⦄, reader text = .done value rest → holds value

theorem yields_pure {value : α} (held : holds value) : Yields (pure value) holds := by
  intro text other rest read
  cases read
  exact held

theorem Yields.bind {first : Reader α} {next : α → Reader β} (one : first.Yields holds)
    (two : ∀ value, holds value → (next value).Yields after) : (first >>= next).Yields after := by
  intro text value rest read
  obtain ⟨middle, left, readFirst, readSecond⟩ := bind_eq_done_iff.1 read
  exact two middle (one readFirst) readSecond

/-- What is read before the last part does not matter, if the last part yields the property anyway. -/
theorem yields_bind {first : Reader α} {next : α → Reader β}
    (two : ∀ value, (next value).Yields after) : (first >>= next).Yields after := by
  have anything : first.Yields fun _ => True := fun _ _ _ _ => trivial
  exact anything.bind fun value _ => two value

theorem Yields.orElse {first second : Reader α} (one : first.Yields holds)
    (two : second.Yields holds) : (first <|> second).Yields holds := by
  intro text value rest read
  rcases orElse_eq_done read with readFirst | ⟨_, readSecond⟩
  · exact one readFirst
  · exact two readSecond

theorem yields_run1 (accept : Char → Bool) :
    (run1 accept).Yields fun chars => ∀ c ∈ chars, accept c = true := by
  intro text chars rest read
  exact (run1_eq_done_iff.1 read).2.2.1

theorem Yields.manyUpTo {item : Reader α} (each : item.Yields holds) (budget : Nat) :
    (item.manyUpTo budget).Yields fun values => ∀ value ∈ values, holds value := by
  induction budget with
  | zero =>
    intro text values rest read
    cases read
    simp
  | succ budget ih =>
    intro text values rest read
    unfold Reader.manyUpTo at read
    split at read
    · rename_i value left readFirst
      split at read
      · rename_i others _ readRest
        cases read
        intro other member
        rcases List.mem_cons.1 member with rfl | later
        · exact each readFirst
        · exact ih readRest other later
      · cases read
      · cases read
    · cases read
      simp
    · cases read

theorem Yields.many {item : Reader α} (each : item.Yields holds) :
    item.many.Yields fun values => ∀ value ∈ values, holds value :=
  fun text _ _ read => each.manyUpTo text.length read

theorem Yields.sepBy {item : Reader α} (separator : Reader Unit) (each : item.Yields holds) :
    (Reader.sepBy separator item).Yields fun values => ∀ value ∈ values, holds value := by
  refine .orElse (each.bind fun first held => ?_) (yields_pure (by simp))
  have separated : (separator >>= fun _ => item).Yields holds := yields_bind fun _ => each
  refine separated.many.bind fun others all => yields_pure ?_
  simpa [held] using all

end Text.Reader

namespace Instruction

open Text Text.Reader

/-! ### Names -/

/-- Whether a text is a sigil followed by name characters. -/
def isReferenceName (name : String) : Bool :=
  match name.toList with
  | sigil :: chars => (sigil == '%' || sigil == '@') && chars.all isNameChar
  | [] => false

theorem hash_not_mem {name : String} (named : isReferenceName name = true) : '#' ∉ name.toList := by
  unfold isReferenceName at named
  split at named
  · rename_i sigil chars spelled
    simp only [Bool.and_eq_true, Bool.or_eq_true, beq_iff_eq, List.all_eq_true] at named
    rw [spelled]
    intro member
    rcases List.mem_cons.1 member with rfl | inside
    · simp at named
    · exact absurd (named.2 '#' inside) (by decide)
  · cases named

/-- Whether an operand is a literal or has the name of a reference. -/
def hasName : Operand → Bool
  | .ref name => isReferenceName name
  | .literal _ => true

/-- Whether every reference among the operands of a computation has the name of one. -/
def usesNames : Instruction → Bool
  | compute _ _ _ operands => operands.all fun operand => hasName operand.value
  | _ => true

/-- Whether an instruction is a merge. -/
def isMerge : Instruction → Bool
  | phi .. => true
  | _ => false

/-- An instruction that uses names and is no merge. -/
def IsPlain (instruction : Instruction) : Prop :=
  usesNames instruction = true ∧ isMerge instruction = false

/-! ### Operands and computations -/

theorem yields_sigilName {sigil : Char} (isSigil : (sigil == '%' || sigil == '@') = true) :
    (sigilName sigil).Yields fun name => isReferenceName name = true := by
  refine yields_bind fun _ => (yields_run1 isNameChar).bind fun chars all => yields_pure ?_
  rw [isReferenceName, String.toList_ofList]
  exact Bool.and_eq_true_iff.2 ⟨isSigil, List.all_eq_true.2 all⟩

theorem yields_operand : operand.Yields fun operand => hasName operand = true := by
  have named (name : String) (holds : isReferenceName name = true) :
      (pure (.ref name) : Reader Operand).Yields fun operand => hasName operand = true :=
    yields_pure holds
  refine .orElse ?_ (.orElse ?_ ?_)
  · exact (yields_sigilName (by decide)).bind named
  · exact (yields_sigilName (by decide)).bind named
  · exact yields_bind fun text => yields_pure rfl

theorem yields_typedOperand :
    typedOperand.Yields fun operand => hasName operand.value = true :=
  yields_bind fun _ => yields_bind fun _ => yields_bind fun _ => yields_operand.bind fun _ named =>
    yields_pure named

/-- What is a computation unless it yields a pointer uses names, if its operands have some. -/
theorem isPlain_computing {result type : String} {opcode : Opcode} {operands : List TypedOperand}
    (named : ∀ operand ∈ operands, hasName operand.value = true) :
    IsPlain (computing result type opcode operands) := by
  unfold computing
  split
  · exact ⟨rfl, rfl⟩
  · exact ⟨List.all_eq_true.2 named, rfl⟩

theorem yields_operandPair :
    operandPair.Yields fun pair => ∀ operand ∈ pair.2, hasName operand.value = true := by
  refine yields_typedOperand.bind fun left namedLeft => yields_bind fun _ =>
    yields_operand.bind fun right namedRight => yields_pure ?_
  simp [namedLeft, namedRight]

theorem yields_readArith (result : String) (op : Arith) :
    (readArith result op).Yields IsPlain :=
  yields_bind fun _ => yields_operandPair.bind fun _ named => yields_pure (isPlain_computing named)

theorem yields_readIntComparison (result : String) :
    (readIntComparison result).Yields IsPlain :=
  yields_bind fun _ => yields_bind fun _ => yields_operandPair.bind fun _ named =>
    yields_pure (isPlain_computing named)

theorem yields_readFloatComparison (result : String) :
    (readFloatComparison result).Yields IsPlain :=
  yields_bind fun _ => yields_bind fun _ => yields_operandPair.bind fun _ named =>
    yields_pure (isPlain_computing named)

theorem yields_readSelect (result : String) :
    (readSelect result).Yields IsPlain := by
  refine yields_bind fun _ => yields_typedOperand.bind fun condition namedCondition =>
    yields_bind fun _ => yields_typedOperand.bind fun ifTrue namedTrue => yields_bind fun _ =>
    yields_typedOperand.bind fun ifFalse namedFalse => yields_pure (isPlain_computing ?_)
  simp [namedCondition, namedTrue, namedFalse]

theorem yields_readCast (result : String) (cast : Cast) :
    (readCast result cast).Yields IsPlain := by
  refine yields_bind fun _ => yields_typedOperand.bind fun source named => yields_bind fun _ =>
    yields_bind fun _ => yields_bind fun _ => yields_bind fun target => yields_pure ?_
  split
  · exact ⟨rfl, rfl⟩
  · exact isPlain_computing (by simpa using named)

theorem yields_readUnary (result : String) (opcode : Opcode) :
    (readUnary result opcode).Yields IsPlain :=
  yields_bind fun _ => yields_typedOperand.bind fun source named =>
    yields_pure (isPlain_computing (by simpa using named))

theorem yields_readCall (result : Option String) :
    (readCall result).Yields IsPlain := by
  refine yields_bind fun _ => yields_bind fun type => yields_bind fun _ => yields_bind fun callee =>
    yields_bind fun _ => yields_bind fun _ => (yields_typedOperand.sepBy comma).bind
    fun arguments named => yields_bind fun _ => yields_bind fun _ => yields_pure ?_
  split
  · split
    · exact ⟨rfl, rfl⟩
    · exact isPlain_computing named
  · exact ⟨rfl, rfl⟩

/-! ### Operations that compute nothing -/

theorem yields_readPhi (result : String) :
    (readPhi result).Yields fun instruction => usesNames instruction = true := by
  refine yields_bind fun _ => yields_bind fun type => yields_bind fun _ => yields_bind fun incoming =>
    yields_pure ?_
  split <;> rfl

theorem yields_readLoad (result : String) :
    (readLoad result).Yields IsPlain := by
  refine yields_bind fun _ => yields_bind fun type => yields_bind fun _ => yields_bind fun address =>
    yields_pure ?_
  split <;> exact ⟨rfl, rfl⟩

theorem yields_readBranch : readBranch.Yields IsPlain :=
  .orElse (yields_bind fun _ => yields_pure ⟨rfl, rfl⟩)
    (yields_bind fun _ => yields_bind fun _ => yields_bind fun _ => yields_bind fun _ =>
      yields_bind fun _ => yields_pure ⟨rfl, rfl⟩)

theorem yields_readStore : readStore.Yields IsPlain :=
  yields_bind fun _ => yields_bind fun _ => yields_bind fun _ => yields_bind fun _ => yields_pure ⟨rfl, rfl⟩

theorem yields_readNothing {instruction : Instruction} (plain : IsPlain instruction) :
    (readNothing instruction).Yields IsPlain := by
  intro text value rest read
  cases read
  exact plain

/-! ### Lines -/

/-- Whatever the operation, the computation that its operands make uses names. Only the operation of
    merges makes merges. -/
theorem yields_operandReader {result : Option String} {opcode : String} {reader : Reader Instruction}
    (selected : operandReader? result opcode = some reader) :
    reader.Yields fun instruction =>
      usesNames instruction = true ∧ (isMerge instruction = true → opcode = "phi") := by
  have plain {reader : Reader Instruction} {opcode : String} (yields : reader.Yields IsPlain) :
      reader.Yields fun instruction =>
        usesNames instruction = true ∧ (isMerge instruction = true → opcode = "phi") := by
    intro text instruction rest read
    obtain ⟨named, other⟩ := yields read
    exact ⟨named, fun merges => Bool.noConfusion (merges.symm.trans other)⟩
  unfold operandReader? at selected
  split at selected
  · rename_i result
    split at selected
    · cases selected
      exact fun _ _ _ read => ⟨yields_readPhi result read, fun _ => rfl⟩
    · cases selected
      exact plain (yields_readLoad result)
    -- the five producers of addresses
    iterate 5
      · cases selected
        exact plain (yields_readNothing ⟨rfl, rfl⟩)
    · cases selected
      exact plain (yields_readIntComparison result)
    · cases selected
      exact plain (yields_readFloatComparison result)
    · cases selected
      exact plain (yields_readSelect result)
    · cases selected
      exact plain (yields_readUnary result .fneg)
    · cases selected
      exact plain (yields_readUnary result .freeze)
    · cases selected
      exact plain (yields_readCall (some result))
    · split at selected
      · rename_i cast _
        cases selected
        exact plain (yields_readCast result cast)
      · obtain ⟨op, _, rfl⟩ := Option.map_eq_some_iff.1 selected
        exact plain (yields_readArith result op)
  · split at selected
    · cases selected
      exact plain yields_readBranch
    · cases selected
      exact plain yields_readStore
    · cases selected
      exact plain (yields_readCall none)
    -- the five operations that are an effect and nothing else
    iterate 5
      · cases selected
        exact plain (yields_readNothing ⟨rfl, rfl⟩)
    · cases selected

/-- References among the operands of a computation that was read have the name of a reference. -/
theorem usesNames_of_read {line : String} {instruction : Instruction}
    (ran : read line = .ok instruction) : usesNames instruction = true := by
  obtain ⟨_, _, _, _, reader, _, selected, read, _⟩ := read_eq_ok_iff.1 ran
  exact (yields_operandReader selected read).1

theorem usesNames_of_readLines {number : Nat} {texts : List String}
    {lines : List (String × Instruction)} (ran : readLines number texts = .ok lines) :
    ∀ line ∈ lines, usesNames line.2 = true := by
  induction texts generalizing number lines with
  | nil =>
    cases ran
    simp
  | cons text texts ih =>
    unfold readLines at ran
    split at ran
    · cases ran
    · rename_i instruction readFirst
      split at ran
      · cases ran
      · rename_i others readRest
        cases ran
        intro line member
        rcases List.mem_cons.1 member with rfl | later
        · exact usesNames_of_read readFirst
        · exact ih readRest line later

end Instruction

end RegionFlow
