/-
Module: RegionFlow.Region.Draft
Purpose: Regions in the making. A draft holds the values and tables built so far, the references of
  induction variables, and the references of merges without a form. Instructions of a listing enter
  their computations and merges into it; operands enter as constants and placeholders.
Main exports: Draft, Draft.define, Draft.scan, Draft.stored
-/
import RegionFlow.Failure
import RegionFlow.Merge
import RegionFlow.Region.Basic

namespace RegionFlow.Region

/-- A region in the making. -/
structure Draft where
  arena : Arena
  storage : Table Storage
  /-- Parameters by reference. -/
  parameters : Table Parameter
  /-- Computations and merges by reference. -/
  computations : Table ValueId
  statements : Table Statement
  /-- References of induction variables. -/
  induction : List String
  /-- References of merges without a form. -/
  formless : List String

namespace Draft

/-- The draft without anything in it. -/
def empty : Draft :=
  ⟨Arena.empty, Table.empty, Table.empty, Table.empty, Table.empty, [], []⟩

instance : Inhabited Draft := ⟨empty⟩

/-- Add a value; the result names its place. -/
def add (draft : Draft) (value : Value) : Draft × ValueId :=
  ({ draft with arena := draft.arena.push value }, draft.arena.nextId)

/-- Add an operand: a literal as a constant, a reference as a placeholder. -/
def addOperand (draft : Draft) (operand : Operand) (type : ScalarType) : Draft × ValueId :=
  let arena := match operand with
    | .literal text => draft.arena.pushConstant text type
    | .ref name => draft.arena.pushPlaceholder name type
  ({ draft with arena }, draft.arena.nextId)

/-- Add operands in order. -/
def addOperands (draft : Draft) : List (Operand × ScalarType) → Draft × List ValueId
  | [] => (draft, [])
  | (operand, type) :: rest =>
    let (draft, id) := draft.addOperand operand type
    let (draft, ids) := draft.addOperands rest
    (draft, id :: ids)

/-- Add a computation or a merge after its operands, under its reference. -/
def addComputation (draft : Draft) (reference : String) (type : ScalarType) (kind : ValueKind)
    (operands : List (Operand × ScalarType)) : Draft :=
  let (draft, args) := draft.addOperands operands
  let (draft, id) := draft.add ⟨reference, type, kind, args⟩
  { draft with computations := draft.computations.insert reference id }

/-- Whether a reference has been dealt with: a definition counts once. -/
def isSettled (draft : Draft) (reference : String) : Bool :=
  draft.computations.contains reference || draft.induction.contains reference
    || draft.formless.contains reference

/-- Operands of a merge with their types: the condition of a selection is a truth value. -/
def mergeOperands (type : ScalarType) : MergeForm → List (Operand × ScalarType)
  | .forward value => [(value, type)]
  | .select condition ifTrue ifFalse => [(condition, .bool), (ifTrue, type), (ifFalse, type)]

/-- Kind of a merge. -/
def mergeKind (text : String) : MergeForm → ValueKind
  | .forward _ => .forward text
  | .select _ _ _ => .selection text

/-- Operands of a computation with their types; one of unknown type has the type of the result. -/
def typedOperands (type : ScalarType) (operands : List TypedOperand) :
    List (Operand × ScalarType) :=
  operands.map fun operand => (operand.value, (ScalarType.ofSpelling? operand.type).getD type)

/-- Enter what an instruction defines, if that is a computation or a merge of known type. `text` is
    the line the instruction stands on, and `branches` are the branches before it. -/
def define (draft : Draft) (instruction : Instruction) (text : String)
    (branches : List Branch) : Draft :=
  match instruction with
  | .phi reference spelling incoming =>
    if draft.isSettled reference then draft
    else
      match ScalarType.ofSpelling? spelling with
      | none => draft
      | some type =>
        match resolveMerge? incoming branches with
        | none => { draft with formless := draft.formless ++ [reference] }
        | some form =>
          draft.addComputation reference type (mergeKind (Text.trimmed text) form)
            (mergeOperands type form)
  | .compute reference spelling opcode operands =>
    if draft.isSettled reference then draft
    else
      match ScalarType.ofSpelling? spelling with
      | none => draft
      | some type =>
        draft.addComputation reference type (.computation opcode (Text.trimmed text))
          (typedOperands type operands)
  | _ => draft

/-- Enter one line of a listing; branches are collected in order. -/
def scanLine (state : Draft × List Branch) (line : String × Instruction) : Draft × List Branch :=
  match line.2 with
  | .branchIf condition ifTrue ifFalse =>
    (state.1, state.2 ++ [⟨condition, ifTrue, ifFalse⟩])
  | instruction => (state.1.define instruction line.1 state.2, state.2)

/-- Enter a listing. The result holds the branches of the listing. -/
def scan (draft : Draft) (listing : String) : Except Failure (Draft × List Branch) :=
  match Instruction.readListing listing with
  | .error fault => .error (.parse (.listing fault.problem) fault.position)
  | .ok lines => .ok (lines.foldl scanLine (draft, []))

/-- Spelling of the type of an instruction that yields a scalar. -/
def resultSpelling? : Instruction → Option String
  | .phi _ spelling _ | .load _ spelling _ | .compute _ spelling _ _ => some spelling
  | _ => none

/-- A type by its spelling, or another where there is no such type. -/
def typeOr (fallback : ScalarType) (spelling : Option String) : ScalarType :=
  (spelling.bind ScalarType.ofSpelling?).getD fallback

/-- A printed operand: a type, then a value. What stands between them does not count. -/
def printedOperand? (source : String) : Option (String × Operand) :=
  match Text.words source.toList with
  | [] | [_] => none
  | spelling :: rest =>
    rest.getLast?.map fun word =>
      (String.ofList spelling,
        if Instruction.isReferenceWord word then .ref (String.ofList word)
        else .literal (String.ofList word))

/-- Enter the value that a write stores, from its printed form: the operand of a store, the result
    of any other instruction, or an operand with its type. `fallback` is the type where none is
    known. Blank text and instructions without a result store nothing. -/
def stored (draft : Draft) (printed : String) (fallback : ScalarType) (branches : List Branch) :
    Except Failure (Draft × Option ValueId) :=
  let source := Text.trimmed printed
  if source.isEmpty then .ok (draft, none)
  else
    match Instruction.read source with
    | .ok (.store spelling value _) =>
      let (draft, id) := draft.addOperand value (typeOr fallback (some spelling))
      .ok (draft, some id)
    | .ok instruction =>
      let draft := draft.define instruction source branches
      match instruction.result? with
      | none => .ok (draft, none)
      | some reference =>
        let type := typeOr fallback (resultSpelling? instruction)
        let (draft, id) := draft.addOperand (.ref reference) type
        .ok (draft, some id)
    | .error fault =>
      let operand := if source.toList.contains '=' then none else printedOperand? source
      match operand with
      | none => .error (.parse (.instruction fault.problem) fault.position)
      | some (spelling, operand) =>
        let (draft, id) := draft.addOperand operand (typeOr fallback (some spelling))
        .ok (draft, some id)

end Draft

end RegionFlow.Region
