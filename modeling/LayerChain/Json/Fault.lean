import LayerChain.Number.Decimal
import LayerChain.Text.Quoted

/-!
# What can be wrong with a JSON text

A `Fault` is the cause for which reading a JSON text stops: the text breaks a rule of the syntax,
or a value is not of the kind that is wanted in its place. `Fault.message` words each cause.
-/

namespace LayerChain.Json

/-- What stands in the place of a value of another kind. -/
inductive Found where
  | null
  | bool (b : Bool)
  | whole (n : Int)
  | float (x : Binary64)
  | text (s : String)
  | sequence
  | map
deriving DecidableEq

/-- Why a JSON text cannot be read. -/
inductive Fault where
  /-- The text ends where a value should stand. -/
  | endInValue
  /-- The text ends within a list. -/
  | endInList
  /-- The text ends within an object. -/
  | endInObject
  /-- The text ends within a string. -/
  | endInString
  /-- What stands in the place of a value does not start one. -/
  | expectedValue
  /-- A word starts like `null`, `true` or `false` and goes on differently. -/
  | expectedWord
  /-- No colon follows a member's name. -/
  | expectedColon
  /-- Neither a comma nor the end follows an item of a list. -/
  | expectedListEnd
  /-- Neither a comma nor the end follows a member of an object. -/
  | expectedObjectEnd
  /-- A member's name is not a string. -/
  | nameNotString
  /-- The end of a list or an object follows a comma. -/
  | trailingComma
  /-- More text follows where a value is complete. -/
  | trailingCharacters
  /-- A number is malformed. -/
  | badNumber
  /-- A number is too large for a floating-point number. -/
  | numberOutOfRange
  /-- An escape in a string is malformed. -/
  | badEscape
  /-- An escape for the first half of a surrogate pair is not followed by one for the second. -/
  | pairUnfinished
  /-- A pair of surrogate escapes is out of order. -/
  | loneSurrogate
  /-- A string holds bytes that spell no character. -/
  | badCodePoint
  /-- A string holds a control character. -/
  | controlCharacter
  /-- Lists and objects are nested too deeply. -/
  | tooDeep
  /-- A value is not of the wanted type. -/
  | wrongType (found : Found) (expected : String)
  /-- A value is of the wanted type but outside its range. -/
  | wrongValue (found : Found) (expected : String)
  /-- A list of fields is too short. -/
  | wrongLength (count : Nat) (expected : String)
  /-- An object lacks a field. -/
  | missingField (name : String)
  /-- An object has a field twice. -/
  | duplicateField (name : String)
  /-- A name is none of the alternatives. -/
  | unknownVariant (name : String) (alternatives : List String)
  /-- A value fits none of the forms of a type. -/
  | noVariant (type : String)
  /-- A value is well-formed, but a rule of the domain refuses it. -/
  | refused (reason : String)
deriving DecidableEq

/-- How a message names what was found. -/
def Found.describe : Found → String
  | null => "null"
  | bool b => "boolean `" ++ (if b then "true" else "false") ++ "`"
  | whole n => "integer `" ++ toString n ++ "`"
  | float x => "floating point `" ++ Layout.document.text x ++ "`"
  | text s => "string " ++ Quoted.quote s
  | sequence => "sequence"
  | map => "map"

namespace Fault

/-- The wording of a fault. -/
def message : Fault → String
  | endInValue => "EOF while parsing a value"
  | endInList => "EOF while parsing a list"
  | endInObject => "EOF while parsing an object"
  | endInString => "EOF while parsing a string"
  | expectedValue => "expected value"
  | expectedWord => "expected ident"
  | expectedColon => "expected `:`"
  | expectedListEnd => "expected `,` or `]`"
  | expectedObjectEnd => "expected `,` or `\x7d`"
  | nameNotString => "key must be a string"
  | trailingComma => "trailing comma"
  | trailingCharacters => "trailing characters"
  | badNumber => "invalid number"
  | numberOutOfRange => "number out of range"
  | badEscape => "invalid escape"
  | pairUnfinished => "unexpected end of hex escape"
  | loneSurrogate => "lone leading surrogate in hex escape"
  | badCodePoint => "invalid unicode code point"
  | controlCharacter => "control character (\\u0000-\\u001F) found while parsing a string"
  | tooDeep => "recursion limit exceeded"
  | wrongType found expected => "invalid type: " ++ found.describe ++ ", expected " ++ expected
  | wrongValue found expected => "invalid value: " ++ found.describe ++ ", expected " ++ expected
  | wrongLength count expected => s!"invalid length {count}, expected " ++ expected
  | missingField name => "missing field `" ++ name ++ "`"
  | duplicateField name => "duplicate field `" ++ name ++ "`"
  | unknownVariant name alternatives =>
    "unknown variant `" ++ name ++ "`, expected one of " ++
      ", ".intercalate (alternatives.map fun a => "`" ++ a ++ "`")
  | noVariant type => "data did not match any variant of untagged enum " ++ type
  | refused reason => reason

end Fault

end LayerChain.Json
