/-
Why a JSON document does not give the record that is expected of it.
-/
import Enrollment.Base64
import Enrollment.Text.Quoted

namespace Enrollment.Json

/-- What stands where something else is expected. -/
inductive Found where
  | null
  | boolean (value : Bool)
  | natural (value : Nat)
  | negative (size : Nat)
  /-- A number with a fraction, an exponent or too many digits, by its text. -/
  | real (text : String)
  | text (value : String)
  | list
  | object
  deriving Repr, DecidableEq

/-- What is called by its kind and, where it is short, by its value. -/
def Found.message : Found → String
  | .null => "null"
  | .boolean value => "boolean `" ++ (if value then "true" else "false") ++ "`"
  | .natural value => "integer `" ++ Text.decimal value ++ "`"
  | .negative size => "integer `-" ++ Text.decimal size ++ "`"
  | .real digits => "floating point `" ++ digits ++ "`"
  | .text value => "string " ++ Text.quoted value
  | .list => "sequence"
  | .object => "map"

/-- Why a document is refused. -/
inductive Fault where
  | endInValue
  | endInList
  | endInObject
  | endInString
  | expectedValue
  | expectedWord
  | expectedColon
  | expectedListEnd
  | expectedObjectEnd
  | keyNotString
  | trailingComma
  | trailingCharacters
  | escape
  | codePoint
  | controlCharacter
  /-- A low surrogate without a high one, or a high one without a low one. -/
  | loneSurrogate
  /-- A high surrogate that no second escape follows. -/
  | hexEscapeEnd
  | number
  | numberRange
  /-- A value of the wrong kind. -/
  | wrongKind (found : Found) (expected : String)
  /-- A field that occurs twice. -/
  | duplicateField (name : String)
  /-- A field whose text is not base64. -/
  | base64 (fault : Base64.Fault)
  deriving Repr, DecidableEq

/-- The wording of a fault. -/
def Fault.message : Fault → String
  | .endInValue => "EOF while parsing a value"
  | .endInList => "EOF while parsing a list"
  | .endInObject => "EOF while parsing an object"
  | .endInString => "EOF while parsing a string"
  | .expectedValue => "expected value"
  | .expectedWord => "expected ident"
  | .expectedColon => "expected `:`"
  | .expectedListEnd => "expected `,` or `]`"
  | .expectedObjectEnd => "expected `,` or `\x7d`"
  | .keyNotString => "key must be a string"
  | .trailingComma => "trailing comma"
  | .trailingCharacters => "trailing characters"
  | .escape => "invalid escape"
  | .codePoint => "invalid unicode code point"
  | .controlCharacter =>
    "control character (\\u0000-\\u001F) found while parsing a string"
  | .loneSurrogate => "lone leading surrogate in hex escape"
  | .hexEscapeEnd => "unexpected end of hex escape"
  | .number => "invalid number"
  | .numberRange => "number out of range"
  | .wrongKind found expected => "invalid type: " ++ found.message ++ ", expected " ++ expected
  | .duplicateField name => "duplicate field `" ++ name ++ "`"
  | .base64 fault => fault.message

end Enrollment.Json
