import VmAdmission.Json.Printer
import VmAdmission.Text.Quoted
import VmAdmission.Text.Symbol

namespace VmAdmission.Json

inductive Scalar
  | null
  | bool (b : Bool)
  | number (n : Number)
  | string (s : String)

/-- A value that was found where another kind was wanted. A container is known by its bracket. -/
inductive Found
  | scalar (value : Scalar)
  | sequence
  | map

/-- What a reader wanted in place of the value it found. -/
inductive Wanted
  | string
  | boolean
  | int64
  | unit
  | variantName
  | uuid
  | timestamp
  | sequence
  | record (name : String)

/-- Why reading failed. -/
inductive Cause
  | endInValue
  | endInObject
  | endInList
  | endInString
  | expectedValue
  | expectedIdent
  | expectedColon
  | expectedCommaOrBrace
  | expectedCommaOrBracket
  | keyNotString
  | trailingComma
  | trailingCharacters
  | tooDeep
  | invalidNumber
  | numberOutOfRange
  | controlCharacter
  | invalidEscape
  | loneSurrogate
  | unfinishedSurrogate
  | invalidCodePoint
  | wrongType (found : Found) (wanted : Wanted)
  | wrongInteger (n : WireInt) (wanted : Wanted)
  | missingField (name : String)
  | duplicateField (name : String)
  | tooShort (length : Nat) (record : String) (fields : Nat)
  | unknownVariant (name : String) (known : List String)
  | malformed (detail : String)

/-- The kinds of failure: the text is not JSON, it is JSON of another shape, or it ends early. -/
inductive ErrorClass
  | syntaxError
  | data
  | eof
deriving DecidableEq

def Cause.errorClass : Cause → ErrorClass
  | .endInValue | .endInObject | .endInList | .endInString => .eof
  | .wrongType .. | .wrongInteger .. | .missingField _ | .duplicateField _ | .tooShort ..
  | .unknownVariant .. | .malformed _ => .data
  | _ => .syntaxError

def Scalar.text : Scalar → String
  | .null => "null"
  | .bool b => "boolean `" ++ toString b ++ "`"
  | .number (.integer n) => "integer `" ++ String.ofList (intChars n.val) ++ "`"
  | .number (.double x) => "floating point `" ++ String.ofList x.chars ++ "`"
  | .string s => "string " ++ Quoted.quote s

def Found.text : Found → String
  | .scalar value => value.text
  | .sequence => "sequence"
  | .map => "map"

def Wanted.text : Wanted → String
  | .string => "a string"
  | .boolean => "a boolean"
  | .int64 => "i64"
  | .unit => "unit"
  | .variantName => "variant identifier"
  | .uuid => "a formatted UUID string"
  | .timestamp => "an RFC 3339 formatted date and time string"
  | .sequence => "a sequence"
  | .record name => "struct " ++ name

/-- The names between backticks with commas between them. -/
def listNames (names : List String) : String :=
  ", ".intercalate (names.map fun name => "`" ++ name ++ "`")

def Cause.text : Cause → String
  | .endInValue => "EOF while parsing a value"
  | .endInObject => "EOF while parsing an object"
  | .endInList => "EOF while parsing a list"
  | .endInString => "EOF while parsing a string"
  | .expectedValue => "expected value"
  | .expectedIdent => "expected ident"
  | .expectedColon => "expected `:`"
  | .expectedCommaOrBrace => "expected `,` or `\x7d`"
  | .expectedCommaOrBracket => "expected `,` or `]`"
  | .keyNotString => "key must be a string"
  | .trailingComma => "trailing comma"
  | .trailingCharacters => "trailing characters"
  | .tooDeep => "recursion limit exceeded"
  | .invalidNumber => "invalid number"
  | .numberOutOfRange => "number out of range"
  | .controlCharacter => "control character (\\u0000-\\u001F) found while parsing a string"
  | .invalidEscape => "invalid escape"
  | .loneSurrogate => "lone leading surrogate in hex escape"
  | .unfinishedSurrogate => "unexpected end of hex escape"
  | .invalidCodePoint => "invalid unicode code point"
  | .wrongType found wanted => "invalid type: " ++ found.text ++ ", expected " ++ wanted.text
  | .wrongInteger n wanted =>
    "invalid value: " ++ (Scalar.number (.integer n)).text ++ ", expected " ++ wanted.text
  | .missingField name => "missing field `" ++ name ++ "`"
  | .duplicateField name => "duplicate field `" ++ name ++ "`"
  | .tooShort length record fields =>
    "invalid length " ++ toString length ++ ", expected struct " ++ record ++ " with " ++
      toString fields ++ (if fields = 1 then " element" else " elements")
  | .unknownVariant name known =>
    "unknown variant `" ++ name ++ "`, expected " ++
      match known with
      | [only] => listNames [only]
      | [one, other] => "`" ++ one ++ "` or `" ++ other ++ "`"
      | _ => "one of " ++ listNames known
  | .malformed detail => detail

/-- A failure to read a text, with the line and the number of bytes of that line up to where it was
noticed. -/
structure Error where
  cause : Cause
  line : Nat
  column : Nat

def Error.message (e : Error) : String :=
  e.cause.text ++ " at line " ++ toString e.line ++ " column " ++ toString e.column

end VmAdmission.Json
