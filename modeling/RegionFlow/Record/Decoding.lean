/-
Module: RegionFlow.Record.Decoding
Purpose: Decoding of records from JSON text. Each part of a record is described by its fields in the
  order of a record that is written as a list; fields that may be left out default to an empty text,
  an empty list, or an affine statement.
Main exports: Record.ofJson
-/
import RegionFlow.Json.Decoder
import RegionFlow.Record.Basic

namespace RegionFlow.Record

open Json Json.Decoder

/-- The data under a name. -/
def fieldOf (data : Datum) (name : String) : Datum :=
  match data with
  | .record fields => (fields.lookup name).getD .absent
  | _ => .absent

/-- The text under a name; empty if there is none. -/
def textOf (data : Datum) (name : String) : String :=
  match fieldOf data name with
  | .text text => text
  | _ => ""

/-- The list under a name; empty if there is none. -/
def listOf (data : Datum) (name : String) : List Datum :=
  match fieldOf data name with
  | .list items => items
  | _ => []

/-- A text on its own. -/
def asText : Datum → String
  | .text text => text
  | _ => ""

/-- A text that has to be there. -/
def requiredText (name : String) : Field := ⟨name, true, string⟩

/-- A text that may be left out. -/
def optionalText (name : String) : Field := ⟨name, false, string⟩

/-- A list that may be left out. -/
def optionalList (name : String) (item : Decoder Datum) : Field := ⟨name, false, list item⟩

/-- Form of a parameter. -/
def parameterForm : Decoder Datum :=
  record "ParameterRecord" [requiredText "name", optionalText "variable", optionalText "type"]

/-- Form of an array. -/
def arrayForm : Decoder Datum :=
  record "ArrayRecord"
    [requiredText "name", ⟨"kind", true, choice ["array", "value", "phi", "exit_phi"]⟩,
      optionalList "sizes" string, optionalText "type", optionalText "variable"]

/-- Form of the dependence relations. -/
def dependencesForm : Decoder Datum :=
  record "DependenceRecord"
    [optionalText "RAW", optionalText "WAR", optionalText "WAW", optionalText "RED",
      optionalText "TC_RED"]

/-- Form of a loop. -/
def loopForm : Decoder Datum :=
  record "LoopRecord" [optionalText "induction_variable"]

/-- Form of an access. -/
def accessForm : Decoder Datum :=
  record "AccessRecord"
    [⟨"kind", true, choice ["read", "write"]⟩, requiredText "relation",
      optionalText "access_instruction", optionalText "incoming_value"]

/-- Brackets that may still be opened inside the flag of a statement, of 127 in all. -/
def flagDepth : Nat := 124

/-- Form of a statement. -/
def statementForm : Decoder Datum :=
  record "StatementRecord"
    [requiredText "name", optionalText "domain", ⟨"affine", false, flag "Flag" flagDepth⟩,
      optionalList "loops" loopForm, optionalList "accesses" accessForm,
      ⟨"instructions", false, optionalString⟩]

/-- Form of a range. -/
def rangeForm : Decoder Datum :=
  record "RangeRecord" [requiredText "minimal", requiredText "maximal"]

/-- Form of an alias group. -/
def aliasGroupForm : Decoder Datum :=
  record "AliasGroupRecord" [optionalList "readwrite" rangeForm, optionalList "readonly" rangeForm]

/-- Form of a whole record. -/
def recordForm : Decoder Datum :=
  record "ExtractionRecord"
    [requiredText "name", optionalText "context", optionalText "schedule",
      optionalList "parameters" parameterForm, optionalList "arrays" arrayForm,
      ⟨"dependencies", false, dependencesForm⟩, optionalText "instructions",
      optionalList "statements" statementForm, optionalList "access_range" aliasGroupForm]

/-- The parameter that data describe. -/
def Parameter.ofDatum (data : Datum) : Parameter :=
  ⟨textOf data "name", textOf data "variable", textOf data "type"⟩

/-- The class of storage with a name. -/
def storageKindOf (name : String) : StorageKind :=
  match name with
  | "value" => .value
  | "phi" => .phi
  | "exit_phi" => .exitPhi
  | _ => .array

/-- The array that data describe. -/
def Array.ofDatum (data : Datum) : Array :=
  ⟨textOf data "name", storageKindOf (textOf data "kind"), (listOf data "sizes").map asText,
    textOf data "type", textOf data "variable"⟩

/-- The dependence relations that data describe. -/
def Dependences.ofDatum (data : Datum) : Dependences :=
  ⟨textOf data "RAW", textOf data "WAR", textOf data "WAW", textOf data "RED",
    textOf data "TC_RED"⟩

/-- The direction with a name. -/
def directionOf (name : String) : AccessKind :=
  if name = "write" then .write else .read

/-- The access that data describe. -/
def Access.ofDatum (data : Datum) : Access :=
  ⟨directionOf (textOf data "kind"), textOf data "relation", textOf data "access_instruction",
    textOf data "incoming_value"⟩

/-- The statement that data describe. -/
def Statement.ofDatum (data : Datum) : Statement where
  name := textOf data "name"
  domain := textOf data "domain"
  affine := match fieldOf data "affine" with
    | .truth value => value
    | _ => some true
  loops := (listOf data "loops").map fun loop => textOf loop "induction_variable"
  accesses := (listOf data "accesses").map Access.ofDatum
  instructions := match fieldOf data "instructions" with
    | .text listing => some listing
    | _ => none

/-- The range that data describe. -/
def Range.ofDatum (data : Datum) : Range :=
  ⟨textOf data "minimal", textOf data "maximal"⟩

/-- The alias group that data describe. -/
def AliasGroup.ofDatum (data : Datum) : AliasGroup :=
  ⟨(listOf data "readwrite").map Range.ofDatum, (listOf data "readonly").map Range.ofDatum⟩

/-- The record that data describe. -/
def ofDatum (data : Datum) : Record where
  name := textOf data "name"
  context := textOf data "context"
  schedule := textOf data "schedule"
  parameters := (listOf data "parameters").map Parameter.ofDatum
  arrays := (listOf data "arrays").map Array.ofDatum
  dependences := Dependences.ofDatum (fieldOf data "dependencies")
  instructions := textOf data "instructions"
  statements := (listOf data "statements").map Statement.ofDatum
  aliasGroups := (listOf data "access_range").map AliasGroup.ofDatum

/-- Decode the JSON text of a record. -/
def ofJson (text : String) : Except Misfit Record :=
  (decode recordForm text).map ofDatum

end RegionFlow.Record
