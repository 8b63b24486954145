import ShardedLedger.Number.Binary64
import ShardedLedger.Text.Quoted

namespace ShardedLedger

namespace Json

-- What stands where a value of another kind was wanted.
inductive Found where
  | null
  | bool (value : Bool)
  | integer (value : Int)
  | float
  | string (value : String)
  | sequence
  | map
  deriving DecidableEq

-- The first thing that keeps a text from being a JSON value, or a value from having the
-- wanted form.
inductive Error where
  | endInValue
  | endInList
  | endInObject
  | endInString
  | noValue
  | badLiteral
  | noColon
  | noListEnd
  | noObjectEnd
  | keyNotString
  | trailingComma
  | trailingCharacters
  | badNumber
  | numberTooBig
  | badEscape
  | unfinishedPair
  | loneSurrogate
  | controlCharacter
  | tooDeep
  | wrongKind (found : Found) (wanted : String)
  | integerOutOfRange (value : Int) (wanted : String)
  | missingField (name : String)
  | duplicateField (name : String)
  | wrongLength (length : Nat) (wanted : String)
  | unknownVariant (name : String) (variants : List String)
  | variantNotSingle
  deriving DecidableEq

def ticked (s : String) : String := "`" ++ s ++ "`"

def Found.describe : Found → String
  | .null => "null"
  | .bool value => "boolean " ++ ticked (if value then "true" else "false")
  | .integer value => "integer " ++ ticked (toString value)
  | .float => "floating point " ++ ticked "_"
  | .string value => "string " ++ Text.quoted value
  | .sequence => "sequence"
  | .map => "map"

def listVariants : List String → String
  | [] => "there are no variants"
  | [a] => "expected " ++ ticked a
  | [a, b] => "expected " ++ ticked a ++ " or " ++ ticked b
  | names => "expected one of " ++ ", ".intercalate (names.map ticked)

def Error.message : Error → String
  | .endInValue => "EOF while parsing a value"
  | .endInList => "EOF while parsing a list"
  | .endInObject => "EOF while parsing an object"
  | .endInString => "EOF while parsing a string"
  | .noValue => "expected value"
  | .badLiteral => "expected ident"
  | .noColon => "expected `:`"
  | .noListEnd => "expected `,` or `]`"
  | .noObjectEnd => "expected `,` or `\x7d`"
  | .keyNotString => "key must be a string"
  | .trailingComma => "trailing comma"
  | .trailingCharacters => "trailing characters"
  | .badNumber => "invalid number"
  | .numberTooBig => "number out of range"
  | .badEscape => "invalid escape"
  | .unfinishedPair => "unexpected end of hex escape"
  | .loneSurrogate => "lone leading surrogate in hex escape"
  | .controlCharacter => "control character (\\u0000-\\u001F) found while parsing a string"
  | .tooDeep => "recursion limit exceeded"
  | .wrongKind found wanted => "invalid type: " ++ found.describe ++ ", expected " ++ wanted
  | .integerOutOfRange value wanted =>
      "invalid value: integer " ++ ticked (toString value) ++ ", expected " ++ wanted
  | .missingField name => "missing field " ++ ticked name
  | .duplicateField name => "duplicate field " ++ ticked name
  | .wrongLength length wanted =>
      "invalid length " ++ toString length ++ ", expected " ++ wanted
  | .unknownVariant name variants =>
      "unknown variant " ++ ticked name ++ ", " ++ listVariants variants
  | .variantNotSingle => "invalid value: map, expected map with a single key"

end Json

end ShardedLedger
