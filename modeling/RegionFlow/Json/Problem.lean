/-
Module: RegionFlow.Json.Problem
Purpose: What can be wrong with a JSON text, and the wording of it. Syntax comes first, then data of
  another form than expected.
Main exports: Found, Problem, Problem.message
-/
import RegionFlow.Json.Number
import RegionFlow.Text.Quoted

namespace RegionFlow.Json

/-- What stands in a place where something else is expected. -/
inductive Found where
  | null
  | boolean (value : Bool)
  | integer (text : String)
  | float (value : Float)
  | string (text : String)
  | sequence
  | map

/-- Description of what was found. -/
def Found.text : Found → String
  | null => "null"
  | boolean value => "boolean `" ++ toString value ++ "`"
  | integer text => "integer `" ++ text ++ "`"
  | float value => "floating point `" ++ floatText value ++ "`"
  | string text => "string " ++ Text.quoted text
  | sequence => "sequence"
  | map => "map"

/-- What can be wrong with a text. -/
inductive Problem where
  | endInValue
  | endInObject
  | endInList
  | endInString
  | expectedValue
  | expectedWord
  | expectedColon
  | expectedListEnd
  | expectedObjectEnd
  | trailingComma
  | trailingCharacters
  | keyNotString
  | invalidNumber
  | numberOutOfRange
  | invalidEscape
  | unfinishedEscape
  | loneSurrogate
  | controlCharacter
  | tooDeep
  | invalidType (found : Found) (expected : String)
  | invalidLength (length : Nat) (expected : String)
  | unknownVariant (name : String) (variants : List String)
  | missingField (name : String)
  | duplicateField (name : String)
  | noAlternative (type : String)

/-- The alternatives of an enumeration: two are joined by `or`, more are listed. -/
def variantsText (variants : List String) : String :=
  match variants.map fun name => "`" ++ name ++ "`" with
  | [first, second] => first ++ " or " ++ second
  | names => "one of " ++ ", ".intercalate names

/-- Wording of a problem. -/
def Problem.message : Problem → String
  | endInValue => "EOF while parsing a value"
  | endInObject => "EOF while parsing an object"
  | endInList => "EOF while parsing a list"
  | endInString => "EOF while parsing a string"
  | expectedValue => "expected value"
  | expectedWord => "expected ident"
  | expectedColon => "expected `:`"
  | expectedListEnd => "expected `,` or `]`"
  | expectedObjectEnd => "expected `,` or `\x7d`"
  | trailingComma => "trailing comma"
  | trailingCharacters => "trailing characters"
  | keyNotString => "key must be a string"
  | invalidNumber => "invalid number"
  | numberOutOfRange => "number out of range"
  | invalidEscape => "invalid escape"
  | unfinishedEscape => "unexpected end of hex escape"
  | loneSurrogate => "lone leading surrogate in hex escape"
  | controlCharacter => "control character (\\u0000-\\u001F) found while parsing a string"
  | tooDeep => "recursion limit exceeded"
  | invalidType found expected => "invalid type: " ++ found.text ++ ", expected " ++ expected
  | invalidLength length expected =>
    "invalid length " ++ toString length ++ ", expected " ++ expected
  | unknownVariant name variants =>
    "unknown variant `" ++ name ++ "`, expected " ++ variantsText variants
  | missingField name => "missing field `" ++ name ++ "`"
  | duplicateField name => "duplicate field `" ++ name ++ "`"
  | noAlternative type => "data did not match any variant of untagged enum " ++ type

end RegionFlow.Json
