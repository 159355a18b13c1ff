import JsonShorthand.Binary64
import JsonShorthand.Fields

namespace JsonShorthand

inductive Value where
  | null
  | boolean (b : Bool)
  | float (x : Binary64)
  | integer (n : Int64)
  | string (s : String)
  | array (elements : List Value)
  | object (fields : Fields Value none)

namespace Value

instance : Inhabited Value := ⟨null⟩

def kind : Value → String
  | null => "null"
  | boolean _ => "boolean"
  | float _ => "float"
  | integer _ => "integer"
  | string _ => "string"
  | array _ => "array"
  | object _ => "object"

/-- Whether the JSON text of a value is `null`: JSON has no infinities and no NaN. -/
def isNullInJson : Value → Bool
  | null => true
  | float x => !x.isFinite
  | _ => false

mutual

/-- Equality of values, where floating-point numbers are compared as numbers. -/
def same : Value → Value → Bool
  | null, null => true
  | boolean a, boolean b => a = b
  | float x, float y => x.sameNumber y
  | integer m, integer n => m = n
  | string s, string t => s = t
  | array xs, array ys => sameElements xs ys
  | object fs, object gs => sameFields fs gs
  | _, _ => false

def sameElements : List Value → List Value → Bool
  | [], [] => true
  | x :: xs, y :: ys => same x y && sameElements xs ys
  | _, _ => false

def sameFields {bound other : Option String} : Fields Value bound → Fields Value other → Bool
  | .nil, .nil => true
  | .cons k _ x fs, .cons l _ y gs => k = l && same x y && sameFields fs gs
  | _, _ => false

end

end Value

end JsonShorthand
