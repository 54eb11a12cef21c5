import LocalNet.Text.Quoted
import LocalNet.Json.Real

/-!
Why a JSON document is refused. A fault is either a break of the grammar, an early end, or a
mismatch between the document and what is decoded from it; only what is read from text has a
position.
-/

namespace LocalNet.Json

inductive Found where
  | boolean (value : Bool)
  | integer (value : Int)
  | real (bits : UInt64)
  | text (value : String)
  | null
  | sequence
  | object
  | bareVariant
  deriving DecidableEq, Repr

def Found.shown : Found → String
  | .boolean value => "boolean `" ++ toString value ++ "`"
  | .integer value => "integer `" ++ toString value ++ "`"
  | .real bits => "floating point `" ++ Real.plainText bits ++ "`"
  | .text value => "string " ++ Text.quoted value
  | .null => "null"
  | .sequence => "sequence"
  | .object => "map"
  | .bareVariant => "unit variant"

inductive Mismatch where
  | wrongKind (found : Found) (expected : String)
  | wrongValue (found : Found) (expected : String)
  | wrongLength (length : Nat) (expected : String)
  | missingField (name : String)
  | repeatedField (name : String)
  | unknownField (name : String) (known : List String)
  | unknownVariant (name : String) (known : List String)
  | refused (reason : String)
  deriving DecidableEq, Repr

def nameList (names : List String) : String :=
  match names with
  | [] => "there are no fields"
  | [only] => "expected `" ++ only ++ "`"
  | [first, second] => "expected `" ++ first ++ "` or `" ++ second ++ "`"
  | many => "expected one of " ++ String.intercalate ", " (many.map fun name => "`" ++ name ++ "`")

def Mismatch.message : Mismatch → String
  | .wrongKind found expected => "invalid type: " ++ found.shown ++ ", expected " ++ expected
  | .wrongValue found expected => "invalid value: " ++ found.shown ++ ", expected " ++ expected
  | .wrongLength length expected =>
    "invalid length " ++ toString length ++ ", expected " ++ expected
  | .missingField name => "missing field `" ++ name ++ "`"
  | .repeatedField name => "duplicate field `" ++ name ++ "`"
  | .unknownField name known => "unknown field `" ++ name ++ "`, " ++ nameList known
  | .unknownVariant name known => "unknown variant `" ++ name ++ "`, " ++ nameList known
  | .refused reason => reason

inductive Break where
  | expectedColon
  | expectedListCommaOrEnd
  | expectedObjectCommaOrEnd
  | expectedIdentifier
  | expectedValue
  | invalidEscape
  | invalidNumber
  | numberOutOfRange
  | invalidUnicode
  | controlCharacter
  | keyNotText
  | loneSurrogate
  | trailingComma
  | trailingCharacters
  | unfinishedHexEscape
  | nestedTooDeep
  deriving DecidableEq, Repr

def Break.message : Break → String
  | .expectedColon => "expected `:`"
  | .expectedListCommaOrEnd => "expected `,` or `]`"
  | .expectedObjectCommaOrEnd => "expected `,` or `\x7d`"
  | .expectedIdentifier => "expected ident"
  | .expectedValue => "expected value"
  | .invalidEscape => "invalid escape"
  | .invalidNumber => "invalid number"
  | .numberOutOfRange => "number out of range"
  | .invalidUnicode => "invalid unicode code point"
  | .controlCharacter => "control character (\\u0000-\\u001F) found while parsing a string"
  | .keyNotText => "key must be a string"
  | .loneSurrogate => "lone leading surrogate in hex escape"
  | .trailingComma => "trailing comma"
  | .trailingCharacters => "trailing characters"
  | .unfinishedHexEscape => "unexpected end of hex escape"
  | .nestedTooDeep => "recursion limit exceeded"

inductive Unfinished where
  | list
  | object
  | string
  | value
  deriving DecidableEq, Repr

def Unfinished.message : Unfinished → String
  | .list => "EOF while parsing a list"
  | .object => "EOF while parsing an object"
  | .string => "EOF while parsing a string"
  | .value => "EOF while parsing a value"

inductive Fault where
  | grammar (reason : Break)
  | ended (inside : Unfinished)
  | mismatch (reason : Mismatch)
  deriving DecidableEq, Repr

def Fault.message : Fault → String
  | .grammar reason => reason.message
  | .ended inside => inside.message
  | .mismatch reason => reason.message

/-- Lines count from one, columns count the bytes read since the last line feed. -/
structure Position where
  line : Nat
  column : Nat
  deriving DecidableEq, Repr

structure Failure where
  fault : Fault
  position : Position
  deriving DecidableEq, Repr

def Failure.message (failure : Failure) : String :=
  failure.fault.message ++ " at line " ++ toString failure.position.line ++ " column " ++
    toString failure.position.column

end LocalNet.Json
