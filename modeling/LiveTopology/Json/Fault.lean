import LiveTopology.Json.Printer
import LiveTopology.Text.Quoted

/-!
# Why and where reading stops

A fault has a cause and a place in the text. Faults of the text itself know their place at once.
Faults of a typed reader, such as a missing field, concern a whole object: they are placed only
when the object around them is closed. A `ReadError` is a fault as it leaves the reader, with the
place as line and column or, for a fault found after the text was read, without one.
-/

namespace LiveTopology.Json

/-- What a typed reader found instead of what it needs. -/
inductive Found where
  | null
  | bool (value : Bool)
  | number (value : Number)
  | string (value : String)
  | sequence
  | map

/-- What a value is to a typed reader. -/
def Found.ofValue : Value → Found
  | .null => .null
  | .bool value => .bool value
  | .number value => .number value
  | .string value => .string value
  | .array _ => .sequence
  | .object _ => .map

/-- The name of what was found in a message. -/
def Found.text : Found → String
  | .null => "null"
  | .bool value => "boolean `" ++ (if value then "true" else "false") ++ "`"
  | .number (.integer value _) => "integer `" ++ toString value ++ "`"
  | .number (.double value) => "floating point `" ++ doubleText value ++ "`"
  | .string value => "string " ++ Text.readable value
  | .sequence => "sequence"
  | .map => "map"

/-- The reasons for which reading stops. -/
inductive Cause where
  | endInValue
  | endInList
  | endInObject
  | endInString
  | colonExpected
  | listCommaExpected
  | objectCommaExpected
  | wordExpected
  | valueExpected
  | keyNotString
  | trailingComma
  | trailingCharacters
  | invalidNumber
  | numberOutOfRange
  | invalidEscape
  | endInHexEscape
  | loneSurrogate
  | invalidCodePoint
  | controlCharacter
  | tooDeep
  | missingField (name : String)
  | duplicateField (name : String)
  | wrongType (found : Found) (expected : String)
  | unknownVariant (name : String) (expected : List String)
  | wrongLength (length : Nat) (expected : String)

/-- Names in backticks, separated by commas. -/
def listed (names : List String) : String :=
  String.intercalate ", " (names.map fun name => "`" ++ name ++ "`")

/-- The wording of a cause. -/
def Cause.text : Cause → String
  | .endInValue => "EOF while parsing a value"
  | .endInList => "EOF while parsing a list"
  | .endInObject => "EOF while parsing an object"
  | .endInString => "EOF while parsing a string"
  | .colonExpected => "expected `:`"
  | .listCommaExpected => "expected `,` or `]`"
  | .objectCommaExpected => "expected `,` or `\x7d`"
  | .wordExpected => "expected ident"
  | .valueExpected => "expected value"
  | .keyNotString => "key must be a string"
  | .trailingComma => "trailing comma"
  | .trailingCharacters => "trailing characters"
  | .invalidNumber => "invalid number"
  | .numberOutOfRange => "number out of range"
  | .invalidEscape => "invalid escape"
  | .endInHexEscape => "unexpected end of hex escape"
  | .loneSurrogate => "lone leading surrogate in hex escape"
  | .invalidCodePoint => "invalid unicode code point"
  | .controlCharacter => "control character (\\u0000-\\u001F) found while parsing a string"
  | .tooDeep => "recursion limit exceeded"
  | .missingField name => "missing field `" ++ name ++ "`"
  | .duplicateField name => "duplicate field `" ++ name ++ "`"
  | .wrongType found expected => "invalid type: " ++ found.text ++ ", expected " ++ expected
  | .unknownVariant name expected =>
    "unknown variant `" ++ name ++ "`, expected one of " ++ listed expected
  | .wrongLength length expected =>
    "invalid length " ++ toString length ++ ", expected " ++ expected

/-- A fault with its place, given by the part of the text that lies behind it. -/
structure Fault where
  cause : Cause
  /-- What follows the place of the fault. -/
  unread : List UInt8
  /-- False while the fault waits for the end of the object or array around it. -/
  placed : Bool

/-- A fault of the bytes read so far. -/
def Fault.here (cause : Cause) (unread : List UInt8) : Fault := ⟨cause, unread, true⟩

/-- A fault of the next byte, or of the end of the text if there is none. -/
def Fault.next (cause : Cause) (unread : List UInt8) : Fault := ⟨cause, unread.tail, true⟩

/-- A fault of the object or array that is being read. -/
def Fault.pending (cause : Cause) (unread : List UInt8) : Fault := ⟨cause, unread, false⟩

/-- A pending fault placed where `closing` leaves off; other faults keep their place. -/
def Fault.settle (closing : List UInt8 → List UInt8) (fault : Fault) : Fault :=
  if fault.placed then fault else .here fault.cause (closing fault.unread)

/-- A place in a text. -/
structure Position where
  /-- The line, counted from 1. -/
  line : Nat
  /-- The number of bytes on that line up to the place. -/
  column : Nat
  deriving DecidableEq, Repr

/-- The place behind a leading part of a text. -/
def Position.behind (read : List UInt8) : Position :=
  ⟨1 + read.count 0x0A, (read.reverse.takeWhile (· ≠ 0x0A)).length⟩

/-- A fault as it leaves the reader. -/
structure ReadError where
  cause : Cause
  position : Option Position

/-- The full wording of a read error. -/
def ReadError.message (e : ReadError) : String :=
  match e.position with
  | none => e.cause.text
  | some p => e.cause.text ++ " at line " ++ toString p.line ++ " column " ++ toString p.column

/-- The error that a fault is in the whole text. -/
def Fault.toError (text : List UInt8) (fault : Fault) : ReadError :=
  ⟨fault.cause, some (Position.behind (text.take (text.length - fault.unread.length)))⟩

end LiveTopology.Json
