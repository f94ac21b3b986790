/-! What can be wrong with a JSON text, and how that is reported. -/

namespace StyledEffects.Json

inductive Fault where
  | endInValue
  | endInString
  | endInList
  | endInObject
  | noValue
  | badLiteral
  | noColon
  | noListEnd
  | noObjectEnd
  | keyNotString
  | trailingComma
  | trailingText
  | badNumber
  | numberTooLarge
  | badEscape
  | unfinishedSurrogate
  | loneSurrogate
  | controlCharacter
  | tooDeep
  deriving DecidableEq, Repr

def Fault.text : Fault → String
  | endInValue => "EOF while parsing a value"
  | endInString => "EOF while parsing a string"
  | endInList => "EOF while parsing a list"
  | endInObject => "EOF while parsing an object"
  | noValue => "expected value"
  | badLiteral => "expected ident"
  | noColon => "expected `:`"
  | noListEnd => "expected `,` or `]`"
  | noObjectEnd => "expected `,` or `\x7d`"
  | keyNotString => "key must be a string"
  | trailingComma => "trailing comma"
  | trailingText => "trailing characters"
  | badNumber => "invalid number"
  | numberTooLarge => "number out of range"
  | badEscape => "invalid escape"
  | unfinishedSurrogate => "unexpected end of hex escape"
  | loneSurrogate => "lone leading surrogate in hex escape"
  | controlCharacter => "control character (\\u0000-\\u001F) found while parsing a string"
  | tooDeep => "recursion limit exceeded"

/-- A fault and the column, in bytes from 1, where it was found on its line. -/
structure ReadError where
  fault : Fault
  column : Nat
  deriving DecidableEq, Repr

def ReadError.message (e : ReadError) : String :=
  e.fault.text ++ " at line 1 column " ++ toString e.column

end StyledEffects.Json
