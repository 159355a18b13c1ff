import JsonShorthand.Binary64.Shortest
import JsonShorthand.Value

namespace JsonShorthand

namespace Json

structure Positional where
  least : Int
  greatest : Int

/-- Numbers from `0.00001` up to but not including ten to the sixteenth are written plainly. -/
def positional : Positional := ⟨-5, 15⟩

def significantDigits (n : Nat) : List Char :=
  match ((Nat.toDigits 10 n).reverse.dropWhile (· = '0')).reverse with
  | [] => ['0']
  | digits => digits

/-- Plain notation for digits of which the first stands at ten to the `lead`; there is always a
fraction. -/
def plain (digits : List Char) : Int → List Char
  | .ofNat lead =>
    let whole := lead + 1
    let fraction := digits.drop whole
    digits.take whole ++ List.replicate (whole - digits.length) '0' ++
      '.' :: (if fraction = [] then ['0'] else fraction)
  | .negSucc zeros => '0' :: '.' :: (List.replicate zeros '0' ++ digits)

def scientific (digits : List Char) (lead : Int) : List Char :=
  let fraction := digits.drop 1
  digits.take 1 ++ (if fraction = [] then [] else '.' :: fraction) ++
    'e' :: (if lead < 0 then '-' else '+') :: Nat.toDigits 10 lead.natAbs

def decimal (x : Decimal) : List Char :=
  let digits := significantDigits x.digits
  let lead := Decimal.digitCount x.digits - 1 + x.exponent
  if positional.least ≤ lead ∧ lead ≤ positional.greatest then plain digits lead
  else scientific digits lead

def float (x : Binary64) : List Char :=
  if x.isFinite then
    (if x.negative then ['-'] else []) ++ decimal (Binary64.shortestDecimal x.magnitude)
  else "null".toList

def integer (n : Int) : List Char :=
  (if n < 0 then ['-'] else []) ++ Nat.toDigits 10 n.natAbs

def escape (c : Char) : List Char :=
  match c with
  | '"' => ['\\', '"']
  | '\\' => ['\\', '\\']
  | '\x08' => ['\\', 'b']
  | '\x0c' => ['\\', 'f']
  | '\n' => ['\\', 'n']
  | '\r' => ['\\', 'r']
  | '\t' => ['\\', 't']
  | _ =>
    if c.toNat < 0x20 then
      ['\\', 'u', '0', '0', Nat.digitChar (c.toNat / 16), Nat.digitChar (c.toNat % 16)]
    else [c]

def string (s : String) : List Char := '"' :: s.toList.flatMap escape ++ ['"']

end Json

namespace Value

def scalar : Value → List Char
  | null => "null".toList
  | boolean true => "true".toList
  | boolean false => "false".toList
  | float x => Json.float x
  | integer n => Json.integer n.toInt
  | string s => Json.string s
  | array _ | object _ => []

mutual

def compact : Value → List Char
  | array elements => '[' :: [','].intercalate (compactElements elements) ++ [']']
  | object fields => '{' :: [','].intercalate (compactFields fields) ++ ['}']
  | value => scalar value

def compactElements : List Value → List (List Char)
  | [] => []
  | value :: rest => compact value :: compactElements rest

def compactFields {bound : Option String} : Fields Value bound → List (List Char)
  | .nil => []
  | .cons name _ value rest =>
    (Json.string name ++ ':' :: compact value) :: compactFields rest

end

def newline (depth : Nat) : List Char := '\n' :: List.replicate depth '\t'

/-- Items on lines of their own between two brackets that stand at `depth`; without items there is
one line. -/
def block (depth : Nat) (openBracket closeBracket : Char) (items : List (List Char)) : List Char :=
  if items = [] then [openBracket, closeBracket]
  else
    openBracket :: newline (depth + 1) ++ (',' :: newline (depth + 1)).intercalate items ++
      newline depth ++ [closeBracket]

mutual

def prettyAt (depth : Nat) : Value → List Char
  | array elements => block depth '[' ']' (prettyElements (depth + 1) elements)
  | object fields => block depth '{' '}' (prettyFields (depth + 1) fields)
  | value => scalar value

def prettyElements (depth : Nat) : List Value → List (List Char)
  | [] => []
  | value :: rest => prettyAt depth value :: prettyElements depth rest

def prettyFields (depth : Nat) {bound : Option String} : Fields Value bound → List (List Char)
  | .nil => []
  | .cons name _ value rest =>
    (Json.string name ++ ':' :: ' ' :: prettyAt depth value) :: prettyFields depth rest

end

def toJson (value : Value) : String := .ofList value.compact

def toPrettyJson (value : Value) : String := .ofList (value.prettyAt 0)

end Value

end JsonShorthand
