import JsonShorthand.Binary64.Nearest
import JsonShorthand.Value

namespace JsonShorthand

def int64? (n : Int) : Option Int64 :=
  if Int64.minValue.toInt ≤ n ∧ n ≤ Int64.maxValue.toInt then some (.ofInt n) else none

/-- A numeral is an integer if it has only digits and fits, and a floating-point number if not. -/
def Value.ofRaw? (text : String) : Option Value :=
  if text = "true" then some (.boolean true)
  else if text = "false" then some (.boolean false)
  else if text = "null" then some .null
  else
    match (integer? text.toList).bind int64? with
    | some n => some (.integer n)
    | none => (Binary64.ofText? text.toList).map .float

end JsonShorthand
