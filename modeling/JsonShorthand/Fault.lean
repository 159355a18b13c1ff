import JsonShorthand.Token
import JsonShorthand.Text.Quote

namespace JsonShorthand

inductive Cause where
  | unexpectedInput
  | unexpectedEnd
  | expectedCloseBrace
  | expectedLiteral
  | unclosedArray
  | unclosedString
  | nestingTooDeep
  | invalidRaw (text : String)
  deriving DecidableEq

def Cause.message : Cause → String
  | unexpectedInput => "Unexpected input"
  | unexpectedEnd => "Unexpected end of input"
  | expectedCloseBrace => "was expecting " ++ Symbol.describe (some .closeBrace)
  | expectedLiteral => "was expecting " ++ Symbol.describe (some (.literal ""))
  | unclosedArray => "Unclosed array"
  | unclosedString => "unclosed string"
  | nestingTooDeep => "Nesting too deep"
  | invalidRaw text =>
    "Invalid raw literal " ++ Text.quote text ++ ": isn't any of true, false, null or a numeric"

structure Fault where
  cause : Cause
  position : Nat
  deriving DecidableEq

/-- The number of characters before a byte offset; `none` inside a character or past the end. -/
def columnAt? : List Char → Nat → Option Nat
  | _, 0 => some 0
  | [], _ + 1 => none
  | c :: cs, offset + 1 =>
    if c.utf8Size ≤ offset + 1 then (columnAt? cs (offset + 1 - c.utf8Size)).map (· + 1) else none

/-- A message, the text it is about, and a caret under the character at a byte offset. An offset at
which no character begins or ends counts as a column. -/
def pointAt (input : String) (position : Nat) (message : String) : String :=
  let column := (columnAt? input.toList position).getD position
  "Parse error: " ++ message ++ "\n" ++ input ++ "\n" ++ .ofList (.replicate column ' ') ++ "^"

/-- Why a text is not what it was read as. -/
structure ParseError where
  input : String
  fault : Fault
  deriving DecidableEq

def ParseError.display (error : ParseError) : String :=
  pointAt error.input error.fault.position error.fault.cause.message

end JsonShorthand
