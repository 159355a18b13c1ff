import JsonShorthand.Reader
import JsonShorthand.Value.Raw

namespace JsonShorthand

/-- A literal is a string whatever it looks like, and a raw literal is what it denotes. -/
def Symbol.scalar : Symbol → Except Cause Value
  | literal text => .ok (.string text)
  | raw text =>
    match Value.ofRaw? text with
    | some v => .ok v
    | none => .error (.invalidRaw text)
  | _ => .error .unexpectedInput

def Value.scalarReader : Reader (Option Value) Value where
  start := none
  step
    | none, symbol, _ => symbol.scalar.map some
    | some _, _, _ => .error .unexpectedInput
  finish
    | none => .error .unexpectedEnd
    | some v => .ok v

def readScalar (input : String) : Except ParseError Value := Value.scalarReader.read input

end JsonShorthand
