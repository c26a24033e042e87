import Replica.Json.Basic
import Replica.Text.Quoted
/-! What can be wrong with a JSON text: with its spelling, or with what it says where a value of a
certain kind is wanted. -/
namespace Replica.Json

/-- What stands where something else was wanted. -/
inductive Found where
  | null
  | bool (b : Bool)
  | num (n : Number)
  | str (s : String)
  | sequence
  | map
  deriving DecidableEq

/-- Why a text is refused. -/
inductive Fault where
  | endInValue
  | endInList
  | endInObject
  | endInString
  | colonExpected
  | listEndExpected
  | objectEndExpected
  | wordExpected
  | valueExpected
  | badEscape
  | badNumber
  | numberOutOfRange
  | loneSurrogate
  | hexEscapeCut
  | controlCharacter
  | keyNotString
  | trailingComma
  | trailingCharacters
  | tooDeep
  | wrongType (found : Found) (expected : String)
  | integerOutOfRange (n : Int) (expected : String)
  | wrongLength (length : Nat) (expected : String)
  | unknownVariant (name : String) (known : List String)
  | missingField (name : String)
  | duplicateField (name : String)
  deriving DecidableEq

/-- The words for what was found. -/
def Found.text : Found → String
  | null => "null"
  | bool b => "boolean `" ++ toString b ++ "`"
  | num (.int n _) => "integer `" ++ toString n ++ "`"
  | num (.float x) => "floating point `" ++ x.text ++ "`"
  | str s => "string " ++ Text.quoted s
  | sequence => "sequence"
  | map => "map"

/-- A list of names in quotes, between commas. -/
def nameList (names : List String) : String :=
  ", ".intercalate (names.map fun name => "`" ++ name ++ "`")

/-- The words for an unknown name where one of a few was wanted. -/
def unknownVariantText (name : String) (known : List String) : String :=
  "unknown variant `" ++ name ++ "`, expected one of " ++ nameList known

/-- The words for an absent field. -/
def missingFieldText (name : String) : String := "missing field `" ++ name ++ "`"

/-- The words for a field given twice. -/
def duplicateFieldText (name : String) : String := "duplicate field `" ++ name ++ "`"

/-- The message. -/
def Fault.message : Fault → String
  | endInValue => "EOF while parsing a value"
  | endInList => "EOF while parsing a list"
  | endInObject => "EOF while parsing an object"
  | endInString => "EOF while parsing a string"
  | colonExpected => "expected `:`"
  | listEndExpected => "expected `,` or `]`"
  | objectEndExpected => "expected `,` or `\x7d`"
  | wordExpected => "expected ident"
  | valueExpected => "expected value"
  | badEscape => "invalid escape"
  | badNumber => "invalid number"
  | numberOutOfRange => "number out of range"
  | loneSurrogate => "lone leading surrogate in hex escape"
  | hexEscapeCut => "unexpected end of hex escape"
  | controlCharacter => "control character (\\u0000-\\u001F) found while parsing a string"
  | keyNotString => "key must be a string"
  | trailingComma => "trailing comma"
  | trailingCharacters => "trailing characters"
  | tooDeep => "recursion limit exceeded"
  | wrongType found expected => "invalid type: " ++ found.text ++ ", expected " ++ expected
  | integerOutOfRange n expected =>
    "invalid value: integer `" ++ toString n ++ "`, expected " ++ expected
  | wrongLength length expected =>
    "invalid length " ++ toString length ++ ", expected " ++ expected
  | unknownVariant name known => unknownVariantText name known
  | missingField name => missingFieldText name
  | duplicateField name => duplicateFieldText name

end Replica.Json
