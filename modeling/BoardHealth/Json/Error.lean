import BoardHealth.Number.Decimal
import BoardHealth.Text.Quoted

/-!
# Why a JSON text is refused

A text is refused for one cause, the first met reading from left to right. A
cause is of one of three kinds: the text ended too early, it is not JSON, or it
is JSON of another shape than the one asked for.
-/

namespace BoardHealth.Json

/-- The kind of a cause. -/
inductive Category where
  | endOfText
  | malformed
  | mismatched
deriving DecidableEq

/-- The name of the kind. -/
def Category.name : Category → String
  | endOfText => "eof"
  | malformed => "syntax"
  | mismatched => "data"

/-- What stood in the text where something else was asked for. -/
inductive Found where
  | null
  | boolean (value : Bool)
  | integer (value : Int)
  | real (value : Double)
  | string (content : List Char)
  | list
  | object
deriving DecidableEq

/-- Fractions in messages have an exponent below `1e-5` and from `1e16` on, and
whole ones are marked. -/
def realLayout : DecimalLayout :=
  ⟨.toEven, fun first => -5 ≤ first && first ≤ 15, true⟩

/-- What was found, for a message. -/
def Found.text : Found → String
  | null => "null"
  | boolean value => "boolean `" ++ (if value then "true" else "false") ++ "`"
  | integer value => "integer `" ++ toString value ++ "`"
  | real value => "floating point `" ++ String.ofList (value.text realLayout) ++ "`"
  | string content => "string " ++ String.ofList (Text.quoted content)
  | list => "sequence"
  | object => "map"

/-- What was asked for. -/
inductive Shape where
  | boolean
  | single
  | word32
  | word64
  | null
  | list
  | vector (size : Nat)
  | record (title : String)
  /-- A record given as a list of all its fields. -/
  | listedRecord (title : String) (fields : Nat)
deriving DecidableEq

/-- What was asked for, for a message. -/
def Shape.text : Shape → String
  | boolean => "a boolean"
  | single => "f32"
  | word32 => "u32"
  | word64 => "usize"
  | null => "unit"
  | list => "a sequence"
  | vector size => "an array of length " ++ toString size
  | record title => "struct " ++ title
  | listedRecord title fields =>
    "struct " ++ title ++ " with " ++ toString fields
      ++ if fields = 1 then " element" else " elements"

/-- The causes for which a text is refused. -/
inductive DecodeError where
  -- The text ended.
  | endInValue
  | endInString
  | endInList
  | endInObject
  -- The text is not JSON.
  | valueExpected
  | keywordExpected
  | colonExpected
  | listSeparatorExpected
  | objectSeparatorExpected
  | keyNotString
  | trailingComma
  | trailingText
  | badNumber
  | numberTooLarge
  | badEscape
  | controlCharacter
  | surrogateUnpaired
  | surrogateMisplaced
  -- The text is JSON of another shape.
  | wrongType (found : Found) (expected : Shape)
  | outOfRange (value : Int) (expected : Shape)
  | wrongLength (length : Nat) (expected : Shape)
  | missingField (name : String)
  | duplicateField (name : String)
  | unknownName (name : List Char) (known : List String)
deriving DecidableEq

namespace DecodeError

/-- The kind of the cause. -/
def category : DecodeError → Category
  | endInValue | endInString | endInList | endInObject => .endOfText
  | valueExpected | keywordExpected | colonExpected | listSeparatorExpected
  | objectSeparatorExpected | keyNotString | trailingComma | trailingText | badNumber
  | numberTooLarge | badEscape | controlCharacter | surrogateUnpaired
  | surrogateMisplaced => .malformed
  | wrongType .. | outOfRange .. | wrongLength .. | missingField .. | duplicateField ..
  | unknownName .. => .mismatched

/-- The wording of the cause. -/
def message : DecodeError → String
  | endInValue => "EOF while parsing a value"
  | endInString => "EOF while parsing a string"
  | endInList => "EOF while parsing a list"
  | endInObject => "EOF while parsing an object"
  | valueExpected => "expected value"
  | keywordExpected => "expected ident"
  | colonExpected => "expected `:`"
  | listSeparatorExpected => "expected `,` or `]`"
  | objectSeparatorExpected => "expected `,` or `\x7d`"
  | keyNotString => "key must be a string"
  | trailingComma => "trailing comma"
  | trailingText => "trailing characters"
  | badNumber => "invalid number"
  | numberTooLarge => "number out of range"
  | badEscape => "invalid escape"
  | controlCharacter => "control character (\\u0000-\\u001F) found while parsing a string"
  | surrogateUnpaired => "unexpected end of hex escape"
  | surrogateMisplaced => "lone leading surrogate in hex escape"
  | wrongType found expected =>
    "invalid type: " ++ found.text ++ ", expected " ++ expected.text
  | outOfRange value expected =>
    "invalid value: integer `" ++ toString value ++ "`, expected " ++ expected.text
  | wrongLength length expected =>
    "invalid length " ++ toString length ++ ", expected " ++ expected.text
  | missingField name => "missing field `" ++ name ++ "`"
  | duplicateField name => "duplicate field `" ++ name ++ "`"
  | unknownName name known =>
    "unknown variant `" ++ String.ofList name ++ "`, expected one of "
      ++ ", ".intercalate (known.map fun other => "`" ++ other ++ "`")

end DecodeError

end BoardHealth.Json
