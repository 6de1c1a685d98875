import LsxKit.Text.Position

/-!
# Faults of JSON texts

Why a text is not the JSON that was asked for, and where reading stopped.

* `Fault.ofStop`: the fault of a text in which reading stopped.
* `Fault.message`: the cause and, where it is known, the spot.
-/

namespace LsxKit.Json

/-- Why reading stopped. -/
inductive Cause where
  | endInList
  | endInObject
  | endInString
  | endInValue
  | endInEscape
  | expectedColon
  | expectedListEnd
  | expectedObjectEnd
  | expectedWord
  | expectedValue
  | invalidEscape
  | invalidNumber
  | numberTooLarge
  | controlCharacter
  | keyNotString
  | loneSurrogate
  | trailingComma
  | trailingCharacters
  | tooDeep
  /-- The JSON is well formed but not of the expected shape. -/
  | unfit (message : String)
  deriving Repr, DecidableEq

/-- The text of a cause. -/
def Cause.message : Cause → String
  | .endInList => "EOF while parsing a list"
  | .endInObject => "EOF while parsing an object"
  | .endInString => "EOF while parsing a string"
  | .endInValue => "EOF while parsing a value"
  | .endInEscape => "unexpected end of hex escape"
  | .expectedColon => "expected `:`"
  | .expectedListEnd => "expected `,` or `]`"
  | .expectedObjectEnd => "expected `,` or `\x7d`"
  | .expectedWord => "expected ident"
  | .expectedValue => "expected value"
  | .invalidEscape => "invalid escape"
  | .invalidNumber => "invalid number"
  | .numberTooLarge => "number out of range"
  | .controlCharacter => "control character (\\u0000-\\u001F) found while parsing a string"
  | .keyNotString => "key must be a string"
  | .loneSurrogate => "lone leading surrogate in hex escape"
  | .trailingComma => "trailing comma"
  | .trailingCharacters => "trailing characters"
  | .tooDeep => "recursion limit exceeded"
  | .unfit message => message

/-- Where reading stopped: the text that was left, and how many bytes of it were looked at. -/
structure Stop where
  cause : Cause
  rest : List Char
  bytes : Nat
  deriving Repr, DecidableEq

/-- A spot in a text. -/
structure Spot where
  /-- Counted from one. -/
  line : Nat
  /-- The number of bytes of the line up to the spot. -/
  column : Nat
  deriving Repr, DecidableEq

/-- The spot after bytes of a text. -/
def Spot.after (bytes : List UInt8) : Spot :=
  let newline : UInt8 := 10
  ⟨bytes.count newline + 1, (bytes.reverse.takeWhile (· ≠ newline)).length⟩

/-- A fault of a JSON text. Where a text is read as a whole before it is asked what it stands for,
the spot of a value that does not fit is not known any more. -/
structure Fault where
  cause : Cause
  spot : Option Spot
  deriving Repr, DecidableEq

/-- The fault of a text in which reading stopped. -/
def Fault.ofStop (text : List Char) (stop : Stop) : Fault :=
  let bytes := (String.ofList text).toUTF8.toList
  ⟨stop.cause, some (.after (bytes.take (bytes.length - Text.size stop.rest + stop.bytes)))⟩

/-- The text of a fault. -/
def Fault.message (f : Fault) : String :=
  match f.spot with
  | some spot => s!"{f.cause.message} at line {spot.line} column {spot.column}"
  | none => f.cause.message

end LsxKit.Json
