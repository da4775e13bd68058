/-
Module: RegionFlow.Json.Decoder
Purpose: Decoding of JSON text in one pass into what the caller expects at each place. The first
  problem in the order of the text is reported. A record may be written as an object or as the list
  of its fields; entries of an object that are not expected are passed over.
Main exports: Datum, string, optionalString, choice, flag, list, record, decode
-/
import RegionFlow.Json.Skipping

namespace RegionFlow.Json

namespace Decoder

variable {α : Type}

/-- Close a list. -/
def closeList : Decoder Unit := do
  match ← peekPart with
  | some ']' => skip
  | some ',' =>
    skip
    match ← peekPart with
    | some ']' => failNext .trailingComma
    | _ => failNext .trailingCharacters
  | some _ => failNext .trailingCharacters
  | none => failNext .endInList

/-- Close an object. -/
def closeObject : Decoder Unit := do
  match ← peekPart with
  | some '\x7d' => skip
  | some ',' => failNext .trailingComma
  | some _ => failNext .trailingCharacters
  | none => failNext .endInObject

/-- Whether another item of a list follows; `first` before any item was read. -/
def hasItem (first : Bool) : Decoder Bool := do
  match ← peekPart with
  | none => failNext .endInList
  | some ']' => return false
  | some c =>
    if first then return true
    else if c = ',' then
      skip
      match ← peekPart with
      | some ']' => failNext .trailingComma
      | some _ => return true
      | none => failNext .endInValue
    else failNext .expectedListEnd

/-- Whether another entry of an object follows; `first` before any entry was read. -/
def hasEntry (first : Bool) : Decoder Bool := do
  match ← peekPart with
  | none => failNext .endInObject
  | some '\x7d' => return false
  | some c =>
    if first then
      if c = '"' then return true else failNext .keyNotString
    else if c = ',' then
      skip
      match ← peekPart with
      | some '"' => return true
      | some '\x7d' => failNext .trailingComma
      | some _ => failNext .keyNotString
      | none => failNext .endInValue
    else failNext .expectedObjectEnd

/-- The colon behind a key. -/
def colon : Decoder Unit := do
  match ← peekPart with
  | some ':' => skip
  | some _ => failNext .expectedColon
  | none => failNext .endInObject

/-- Read items until the list ends. -/
def items (item : Decoder α) (first : Bool) : Nat → Decoder (List α)
  | 0 => return []
  | steps + 1 => do
    if ← hasItem first then
      let head ← item
      let tail ← items item false steps
      return head :: tail
    else return []

/-- Fail because something else is expected than what comes next. -/
def unexpected (expected : String) : Decoder α :=
  placed do
    let found ← match ← peek with
      | some 'n' => do skip; word ['u', 'l', 'l']; pure Found.null
      | some 't' => do skip; word ['r', 'u', 'e']; pure (Found.boolean true)
      | some 'f' => do skip; word ['a', 'l', 's', 'e']; pure (Found.boolean false)
      | some '-' => do skip; number false
      | some '"' => do pure (Found.string (← quotedString))
      | some '[' => pure Found.sequence
      | some '\x7b' => pure Found.map
      | some c => if Text.isDigit c then number true else failNext .expectedValue
      | none => failNext .expectedValue
    failUnplaced (.invalidType found expected)

/-- A list of items. -/
def listOf (item : Decoder α) : Decoder (List α) := do
  match ← peekPart with
  | none => failNext .endInValue
  | some '[' =>
    skip
    enclosed closeList do items item true (← stepsLeft)
  | some _ => unexpected "a sequence"

/-- Data read from a text. -/
inductive Datum where
  /-- A string. -/
  | text (text : String)
  /-- A truth value, or a text in place of one that is none. -/
  | truth (value : Option Bool)
  /-- Nothing. -/
  | absent
  /-- A list. -/
  | list (items : List Datum)
  /-- Named data. -/
  | record (fields : List (String × Datum))

/-- A string. -/
def string : Decoder Datum := do
  match ← peekPart with
  | none => failNext .endInValue
  | some '"' => return .text (← quotedString)
  | some _ => unexpected "a string"

/-- A string or nothing. -/
def optionalString : Decoder Datum := do
  match ← peekPart with
  | some 'n' =>
    skip
    word ['u', 'l', 'l']
    return .absent
  | _ => string

/-- A list of data. -/
def list (item : Decoder Datum) : Decoder Datum := do
  return .list (← listOf item)

/-- The name of one of several variants, at a quote. -/
def variantName (variants : List String) : Decoder String :=
  placed do
    let name ← quotedString
    if variants.contains name then return name
    else failUnplaced (.unknownVariant name variants)

/-- Check that the name of a variant follows the bracket of its object. An empty object lacks a
    value, which is another problem than a name of the wrong form. -/
def variantKey : Decoder Unit := do
  match ← peekPart with
  | some '"' => return ()
  | some '\x7d' => failNext .expectedValue
  | some _ => failNext .keyNotString
  | none => failNext .endInObject

/-- One of several variants: a string, or an object with nothing under the name of the variant. -/
def choice (variants : List String) : Decoder Datum := do
  match ← peekPart with
  | some '"' => return .text (← variantName variants)
  | some '\x7b' =>
    skip
    variantKey
    let name ← variantName variants
    colon
    match ← peekPart with
    | none => failNext .endInValue
    | some 'n' =>
      skip
      word ['u', 'l', 'l']
    | some _ => unexpected "unit"
    match ← peekPart with
    | some '\x7d' =>
      skip
      return .text name
    | some _ => failHere .expectedValue
    | none => failHere .endInObject
  | some _ => failNext .expectedValue
  | none => failNext .endInValue

/-- Read entries of any form until the object ends. -/
def entries (item : Decoder Unit) (first : Bool) : Nat → Decoder Unit
  | 0 => return ()
  | steps + 1 => do
    if ← hasEntry first then
      let _ ← quotedString
      colon
      item
      entries item false steps
    else return ()

/-- A value that is no list and no object: a truth value, a text, or nothing for any other form. -/
def anyScalar : Decoder Datum := do
  match ← peekPart with
  | none => failNext .endInValue
  | some 'n' =>
    skip
    word ['u', 'l', 'l']
    return .absent
  | some 't' =>
    skip
    word ['r', 'u', 'e']
    return .truth (some true)
  | some 'f' =>
    skip
    word ['a', 'l', 's', 'e']
    return .truth (some false)
  | some '-' =>
    skip
    let _ ← number false
    return .absent
  | some '"' => return .text (← quotedString)
  | some c =>
    if Text.isDigit c then
      let _ ← number true
      return .absent
    else failNext .expectedValue

/-- A value of any form with at most `depth` brackets inside one another. -/
def anyValue : (depth : Nat) → Decoder Datum
  | 0 => do
    match ← peekPart with
    | some '[' | some '\x7b' => failNext .tooDeep
    | _ => anyScalar
  | depth + 1 => do
    match ← peekPart with
    | some '[' =>
      skip
      let _ ← enclosed closeList do items (anyValue depth) true (← stepsLeft)
      return .absent
    | some '\x7b' =>
      skip
      enclosed closeObject do
        entries (do let _ ← anyValue depth) true (← stepsLeft)
      return .absent
    | _ => anyScalar

/-- A truth value, or the text of one. `type` names the pair of forms. -/
def flag (type : String) (depth : Nat) : Decoder Datum := do
  match ← anyValue depth with
  | .truth value => return .truth value
  | .text text =>
    return .truth (match String.ofList (Text.trim text.toList) with
      | "true" => some true
      | "false" => some false
      | _ => none)
  | _ => failUnplaced (.noAlternative type)

/-- A field of a record. -/
structure Field where
  name : String
  /-- Whether it has to be there. -/
  required : Bool
  decoder : Decoder Datum

/-- The required field that is first missing from the data. -/
def missing? (fields : List Field) (found : List (String × Datum)) : Option String :=
  (fields.find? fun field => field.required && (found.lookup field.name).isNone).map Field.name

/-- Read the entries of a record. Entries with other names are passed over. -/
def fieldsByName (fields : List Field) (found : List (String × Datum)) (first : Bool) :
    Nat → Decoder (List (String × Datum))
  | 0 => return found
  | steps + 1 => do
    if ← hasEntry first then
      let key ← quotedString
      match fields.find? fun field => field.name == key with
      | some field =>
        if (found.lookup key).isSome then failUnplaced (.duplicateField key)
        else
          colon
          let value ← field.decoder
          fieldsByName fields (found ++ [(key, value)]) false steps
      | none =>
        colon
        skipValue
        fieldsByName fields found false steps
    else
      match missing? fields found with
      | some name => failUnplaced (.missingField name)
      | none => return found

/-- Read the fields of a record that is written as a list; fields at its end may be left out. -/
def fieldsByPlace (description : String) (place : Nat) (first : Bool) :
    List Field → Decoder (List (String × Datum))
  | [] => return []
  | field :: rest => do
    if ← hasItem first then
      let value ← field.decoder
      let others ← fieldsByPlace description (place + 1) false rest
      return (field.name, value) :: others
    else if field.required then failUnplaced (.invalidLength place description)
    else fieldsByPlace description (place + 1) first rest

/-- A record: an object with named fields, or the list of its fields in order. -/
def record (name : String) (fields : List Field) : Decoder Datum := do
  match ← peekPart with
  | none => failNext .endInValue
  | some '[' =>
    skip
    let description :=
      "struct " ++ name ++ " with " ++ toString fields.length ++ " elements"
    return .record (← enclosed closeList (fieldsByPlace description 0 true fields))
  | some '\x7b' =>
    skip
    return .record (← enclosed closeObject do fieldsByName fields [] true (← stepsLeft))
  | some _ => unexpected ("struct " ++ name)

/-- Read a whole text. -/
def whole (body : Decoder α) : Decoder α := do
  let value ← body
  match ← peekPart with
  | some _ => failNext .trailingCharacters
  | none => return value

end Decoder

/-- A problem with the line and the column it was met at. Lines count from one, columns in bytes. -/
structure Misfit where
  problem : Problem
  line : Nat
  column : Nat

/-- Line and column of a byte: `line` and `column` are those of the text's first byte. -/
def place (offset line column : Nat) : List Char → Nat × Nat
  | [] => (line, column + offset)
  | c :: rest =>
    if offset < c.utf8Size then (line, column + offset)
    else if c = '\n' then place (offset - 1) (line + 1) 0 rest
    else place (offset - c.utf8Size) line (column + c.utf8Size) rest

/-- Decode a text. -/
def decode {α : Type} (body : Decoder α) (text : String) : Except Misfit α :=
  match (Decoder.whole body) ⟨text.toList, 0⟩ with
  | .ok value _ => .ok value
  | .error fault cursor =>
    let (line, column) := place (fault.offset.getD cursor.offset) 1 0 text.toList
    .error ⟨fault.problem, line, column⟩

end RegionFlow.Json
