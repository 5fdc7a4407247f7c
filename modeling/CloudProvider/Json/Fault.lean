import CloudProvider.Json.Value
import CloudProvider.Text.Quoted

/-! Why a JSON text or a JSON value is refused. A fault found in a text carries the position at which
reading stopped; one found in a value that has been read already has none. -/

namespace CloudProvider.Json

/-- Lines count from one. The column is the number of bytes passed in the line. -/
structure Position where
  line : Nat
  column : Nat
deriving DecidableEq, Repr

namespace Position

def start : Position := ⟨1, 0⟩

def after (p : Position) (b : UInt8) : Position :=
  if b = '\n'.toUInt8 then ⟨p.line + 1, 0⟩ else ⟨p.line, p.column + 1⟩

def advance (p : Position) (bytes : List UInt8) : Position :=
  bytes.foldl after p

end Position

inductive Found
  | null
  | bool (b : Bool)
  | number (n : Number)
  | string (s : String)
  | array
  | object

namespace Found

def of : Value → Found
  | .null => .null
  | .bool b => .bool b
  | .number n => .number n
  | .string s => .string s
  | .array _ => .array
  | .object _ => .object

def describe : Found → String
  | .null => "null"
  | .bool b => "boolean `" ++ toString b ++ "`"
  | .number (.integer i _) => "integer `" ++ toString i ++ "`"
  | .number (.fraction x) => "floating point `" ++ x.render Number.layout ++ "`"
  | .string s => "string " ++ Text.quoted s
  | .array => "sequence"
  | .object => "map"

end Found

inductive Cause
  | endInList
  | endInObject
  | endInString
  | endInValue
  | expectedColon
  | expectedListEnd
  | expectedObjectEnd
  | expectedIdent
  | expectedValue
  | invalidEscape
  | invalidNumber
  | numberOutOfRange
  | invalidCodePoint
  | controlCharacter
  | keyNotString
  | loneSurrogate
  | unfinishedSurrogate
  | trailingComma
  | trailingCharacters
  | tooDeep
  | wrongType (found : Found) (wanted : String)
  | wrongValue (found : Found) (wanted : String)
  | wrongLength (length : Nat) (wanted : String)
  | missingMember (name : String)
  | repeatedMember (name : String)
  | unknownVariant (name : String) (known : List String)
  /-- A rule of its own refuses the value. -/
  | rejected (reason : String)
  /-- Not a refusal: reading itself broke down, and nobody is told where. -/
  | collapsed (reason : String)

namespace Cause

def backquoted (s : String) : String :=
  "`" ++ s ++ "`"

def oneOf : List String → String
  | [] => "there are no variants"
  | [a] => "expected " ++ backquoted a
  | [a, b] => "expected " ++ backquoted a ++ " or " ++ backquoted b
  | names => "expected one of " ++ String.intercalate ", " (names.map backquoted)

def message : Cause → String
  | .endInList => "EOF while parsing a list"
  | .endInObject => "EOF while parsing an object"
  | .endInString => "EOF while parsing a string"
  | .endInValue => "EOF while parsing a value"
  | .expectedColon => "expected `:`"
  | .expectedListEnd => "expected `,` or `]`"
  | .expectedObjectEnd => "expected `,` or `\x7d`"
  | .expectedIdent => "expected ident"
  | .expectedValue => "expected value"
  | .invalidEscape => "invalid escape"
  | .invalidNumber => "invalid number"
  | .numberOutOfRange => "number out of range"
  | .invalidCodePoint => "invalid unicode code point"
  | .controlCharacter => "control character (\\u0000-\\u001F) found while parsing a string"
  | .keyNotString => "key must be a string"
  | .loneSurrogate => "lone leading surrogate in hex escape"
  | .unfinishedSurrogate => "unexpected end of hex escape"
  | .trailingComma => "trailing comma"
  | .trailingCharacters => "trailing characters"
  | .tooDeep => "recursion limit exceeded"
  | .wrongType found wanted => "invalid type: " ++ found.describe ++ ", expected " ++ wanted
  | .wrongValue found wanted => "invalid value: " ++ found.describe ++ ", expected " ++ wanted
  | .wrongLength length wanted => "invalid length " ++ toString length ++ ", expected " ++ wanted
  | .missingMember name => "missing field " ++ backquoted name
  | .repeatedMember name => "duplicate field " ++ backquoted name
  | .unknownVariant name known => "unknown variant " ++ backquoted name ++ ", " ++ oneOf known
  | .rejected reason => reason
  | .collapsed reason => reason

end Cause

structure Fault where
  cause : Cause
  position : Option Position

namespace Fault

def message (f : Fault) : String :=
  match f.position with
  | none => f.cause.message
  | some p => f.cause.message ++ s!" at line {p.line} column {p.column}"

/-- A position that is known already stays. -/
def locate (f : Fault) (p : Position) : Fault :=
  { f with position := f.position <|> some p }

end Fault
end CloudProvider.Json
