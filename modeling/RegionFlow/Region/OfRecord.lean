/-
Module: RegionFlow.Region.OfRecord
Purpose: The region of an extraction record. Storage comes first, then parameters, the listing of the
  region, and the statements in order. Statements that store a value that depends on a merge without a
  form are left out, and so is everything the relations say about them. Arguments are still
  placeholders where they are references.
Main exports: Region.ofRecord, Region.ofJson
-/
import RegionFlow.Record.Decoding
import RegionFlow.Region.Draft
import RegionFlow.Search

namespace RegionFlow.Region

open Polyhedral (Relation)

/-- Read polyhedral text that belongs to a part of a record; blank text is the empty set. -/
def readPart (part : Part) (text : String) : Except Failure Relation :=
  let text := if (Text.trimmed text).isEmpty then "\x7b  \x7d" else text
  match Relation.read text with
  | .ok relation => .ok relation
  | .error fault => .error (.parse (.polyhedral part fault.problem) fault.position)

namespace Draft

/-- Enter an array. -/
def addStorage (draft : Draft) (array : Record.Array) : Except Failure Draft :=
  if draft.storage.contains array.name then .error (.parse (.duplicateArray array.name) 0)
  else
    let storage : Storage :=
      { name := array.name
        kind := array.kind
        shape := array.sizes.map Extent.ofText
        element := Text.trimmed array.type
        pointer := Text.trimmed array.pointer }
    .ok { draft with storage := draft.storage.insert array.name storage }

/-- Type of a parameter; without a spelling it is a 64-bit integer. -/
def parameterType (parameter : Record.Parameter) : Except Failure ScalarType :=
  if (Text.trimmed parameter.type).isEmpty then .ok (.int 64)
  else
    match ScalarType.ofSpelling? parameter.type with
    | some type => .ok type
    | none => .error (.parse (.unsupportedType parameter.type parameter.name) 0)

/-- Enter a parameter under the reference of the value it stands for. -/
def addParameter (draft : Draft) (parameter : Record.Parameter) : Except Failure Draft := do
  let reference := (Instruction.definedReference? parameter.printed).getD ("%" ++ parameter.name)
  let type ← parameterType parameter
  let (draft, value) := draft.add ⟨reference, type, .parameter parameter.name, []⟩
  let entry : Parameter := ⟨parameter.name, reference, type, value⟩
  return { draft with parameters := draft.parameters.insert reference entry }

/-- Enter the induction variable of a loop, unless its text denotes no reference. -/
def addLoop (state : Draft × Table ValueId) (printed : String) : Draft × Table ValueId :=
  match Instruction.definedReference? printed with
  | none => state
  | some reference =>
    let type := match Instruction.read printed with
      | .ok (.phi _ spelling _) => typeOr (.int 64) (some spelling)
      | _ => .int 64
    let (draft, id) :=
      state.1.add ⟨reference, type, .inductionVariable (Text.trimmed printed), []⟩
    (draft, state.2.insert reference id)

/-- The array that an access relation leads to. -/
def targetArray? (relation : Relation) : Option String := do
  let piece ← relation.pieces.head?
  let target ← piece.output
  target.name

/-- Enter a read. It is known by the reference its instruction defines, failing that by the base
    pointer of the array, failing that by array and position. -/
def addRead (draft : Draft) (array : String) (position : Nat) (element : ScalarType)
    (instruction : String) (relation : Relation) : Draft × String × Access :=
  let pointer := (draft.storage.get? array).bind fun storage =>
    Instruction.definedReference? storage.pointer
  let key := ((Instruction.definedReference? instruction).or pointer).getD
    (array ++ "." ++ toString position)
  let type := match Instruction.read instruction with
    | .ok (.load _ spelling _) | .ok (.phi _ spelling _) => typeOr element (some spelling)
    | _ => element
  let (draft, value) := draft.add ⟨key, type, .access .read array instruction none, []⟩
  (draft, key, ⟨value, relation⟩)

/-- Enter a write after the value it stores. It is known by its instruction, failing that by
    statement and array. -/
def addWrite (draft : Draft) (statement array : String) (element : ScalarType)
    (instruction incoming : String) (relation : Relation) (branches : List Branch) :
    Except Failure (Draft × String × Access) := do
  let source := if incoming.isEmpty then instruction else incoming
  let (draft, stored) ← draft.stored source element branches
  let key := if instruction.isEmpty then statement ++ " -> " ++ array else instruction
  let origin := if incoming.isEmpty then none else some incoming
  let (draft, value) :=
    draft.add ⟨key, element, .access .write array instruction origin, stored.toList⟩
  return (draft, key, ⟨value, relation⟩)

/-- Enter an access of a statement; the result has the key it is known by. -/
def addAccess (draft : Draft) (statement : String) (position : Nat) (access : Record.Access)
    (branches : List Branch) : Except Failure (Draft × String × Access) := do
  let relation ← readPart (.accessRelation statement) access.relation
  match targetArray? relation with
  | none => throw (.parse (.namesNoArray access.relation statement) 0)
  | some array =>
    let element := ((draft.storage.get? array).bind Storage.elementType?).getD (.float 64)
    let instruction := Text.trimmed access.instruction
    match access.direction with
    | .read => return draft.addRead array position element instruction relation
    | .write =>
      draft.addWrite statement array element instruction (Text.trimmed access.incoming) relation
        branches

/-- Enter accesses in order, numbered from `position` on. An access whose key is taken is known by
    key and number. -/
def addAccesses (draft : Draft) (statement : String) (branches : List Branch) (position : Nat)
    (table : Table Access) : List Record.Access → Except Failure (Draft × Table Access)
  | [] => .ok (draft, table)
  | access :: rest => do
    let (draft, key, access) ← draft.addAccess statement position access branches
    let key := if table.contains key then key ++ "#" ++ toString position else key
    draft.addAccesses statement branches (position + 1) (table.insert key access) rest

/-- Enter a statement. A listing of its own brings its own branches; without one those of the region
    count. -/
def addStatement (branches : List Branch) (draft : Draft) (statement : Record.Statement) :
    Except Failure Draft := do
  if draft.statements.contains statement.name then
    throw (.parse (.duplicateStatement statement.name) 0)
  match statement.affine with
  | none => throw (.parse (.affineFlag statement.name) 0)
  | some affine =>
    let domain ← readPart (.domain statement.name) statement.domain
    let (draft, branches) ← match statement.instructions with
      | some listing => draft.scan listing
      | none => .ok (draft, branches)
    let (draft, loops) := statement.loops.foldl addLoop (draft, Table.empty)
    let (draft, accesses) ←
      draft.addAccesses statement.name branches 0 Table.empty statement.accesses
    let entry : Statement :=
      { name := statement.name
        domain
        affine
        depth := statement.loops.length
        accesses
        loops }
    return { draft with statements := draft.statements.insert statement.name entry }

/-- The values a value is made from: a placeholder from its producer, if there is one. -/
def sources (draft : Draft) (id : ValueId) : List ValueId :=
  match draft.arena.get? id with
  | none => []
  | some value =>
    if value.isPlaceholder then (draft.computations.get? value.reference).toList else value.args

/-- The merge without a form that a value stands for. -/
def formless? (draft : Draft) (id : ValueId) : Option String :=
  match draft.arena.get? id with
  | none => none
  | some value =>
    if value.isPlaceholder && draft.formless.contains value.reference then some value.reference
    else none

/-- A merge without a form that the values stored by a statement depend on. The last argument is
    looked at first. -/
def reachedMerge? (draft : Draft) (statement : Statement) : Option String :=
  let roots := (statement.writes draft.arena).flatMap fun entry => draft.arena.args entry.2.value
  let reached := Search.preorder draft.arena.ids (fun id => (draft.sources id).reverse)
    roots.reverse
  reached.findSome? draft.formless?

/-- The statements that depend on a merge without a form. -/
def droppedStatements (draft : Draft) : List DroppedStatement :=
  draft.statements.values.filterMap fun statement =>
    (draft.reachedMerge? statement).map fun merge => ⟨statement.name, merge⟩

end Draft

/-- The references of all induction variables of a record. -/
def inductionReferences (record : Record) : List String :=
  record.statements.flatMap fun statement =>
    statement.loops.filterMap Instruction.definedReference?

/-- Storage, parameters, computations and statements of a record. -/
def draftOfRecord (record : Record) : Except Failure Draft := do
  let draft ← record.arrays.foldlM Draft.addStorage Draft.empty
  let draft ← record.parameters.foldlM Draft.addParameter draft
  let draft := { draft with induction := inductionReferences record }
  let (draft, branches) ← draft.scan record.instructions
  record.statements.foldlM (Draft.addStatement branches) draft

/-- Read the dependence relations of a record. -/
def readDependences (texts : Record.Dependences) : Except Failure Dependences := do
  let raw ← readPart (.dependence "RAW") texts.raw
  let war ← readPart (.dependence "WAR") texts.war
  let waw ← readPart (.dependence "WAW") texts.waw
  let red ← readPart (.dependence "RED") texts.red
  let tcRed ← readPart (.dependence "TC_RED") texts.tcRed
  return ⟨raw, war, waw, red, tcRed⟩

/-- Access ranges of an alias group, those that are written first. -/
def rangesOfGroup (group : Record.AliasGroup) : List AccessRange :=
  (group.readwrite.map fun range => ⟨range.minimal, range.maximal, false⟩)
    ++ group.readonly.map fun range => ⟨range.minimal, range.maximal, true⟩

/-- The region of a record. Relations lose the pieces that mention a statement that is left out; if
    no statement is kept there is no region. -/
def ofRecord (record : Record) : Except Failure Region := do
  let draft ← draftOfRecord record
  let dropped := draft.droppedStatements
  let names := dropped.map DroppedStatement.name
  let statements := draft.statements.filter fun name _ => !names.contains name
  if statements.isEmpty && !dropped.isEmpty then
    throw (.unrepresentableMerge record.name names)
  let schedule ← readPart .schedule record.schedule
  let dependences ← readDependences record.dependences
  let context ← readPart .context record.context
  return {
    name := record.name
    arena := draft.arena
    storage := draft.storage
    parameters := draft.parameters
    computations := draft.computations
    statements
    schedule := if names.isEmpty then schedule else schedule.without names
    dependences := if names.isEmpty then dependences else dependences.without names
    context
    dropped
    accessRanges := record.aliasGroups.map rangesOfGroup }

/-- The region of a record in JSON. -/
def ofJson (text : String) : Except Failure Region :=
  match Record.ofJson text with
  | .error misfit => .error (.record misfit)
  | .ok record => ofRecord record

end RegionFlow.Region
